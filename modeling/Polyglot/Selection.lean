import Polyglot.Text.Blank
import Polyglot.Text.Lines

/-!
The list of class ids that a run is restricted to.
-/

namespace Polyglot

/-- An empty selection admits every id. -/
structure Selection where
  ids : List String := []
  deriving DecidableEq, Repr

namespace Selection

/-- The id on a line, without the comment behind a number sign. -/
def lineId (line : List Char) : List Char :=
  Text.trim (line.takeWhile (· != '#'))

/-- One id a line; lines without one are passed over. -/
def ofText (s : String) : Selection :=
  ⟨((Text.lines s.toList).map lineId |>.filter (!·.isEmpty)).map String.ofList⟩

def admits (s : Selection) (id : String) : Bool :=
  s.ids.isEmpty || s.ids.contains id

end Selection

end Polyglot
