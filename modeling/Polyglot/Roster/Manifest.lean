import Polyglot.Roster.Basic
import Polyglot.Workspace

/-!
The manifest: a file that declares every class of a run, on consecutive lines. Writing it replaces
the first run of such lines.
-/

namespace Polyglot

namespace Roster

open Pattern

/-- One declaration with its line end. -/
def declarationPattern : Pattern :=
  let word := plus true (noneOf [.blank])
  seqAll (text "    export class " ++ [word] ++ text " extends " ++ [word] ++ text " \x7b\x7d" ++
    [opt true (char (.single '\r'))] ++ text "\n")

/-- A run of declarations. -/
def manifestRegion : Matcher :=
  ⟨"(?:    export class [^\\s]+ extends [^\\s]+ \\\x7b\\\x7d\\r?\\n)+",
    plus true declarationPattern, []⟩

theorem manifestRegion_spelled :
    (Matcher.ofSource manifestRegion.source).toOption = some manifestRegion := by decide +kernel

/-- Declares the classes in a manifest; the answer says whether it had a place for them. -/
def declareIn {m : Type → Type} [Monad m] [Workspace m] (r : Roster) (path : Path) :
    Job m Bool := do
  let replaced ← Job.splice path manifestRegion r.declarations
  if replaced then
    Job.note .info ("Exported " ++ toString r.classes.length ++
      " class declarations to " ++ path.text)
  return replaced

end Roster

end Polyglot
