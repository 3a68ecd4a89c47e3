import Polyglot.Class.Source
import Polyglot.Diagnostic
import Polyglot.Render.PhpText

/-!
Free-standing pieces of source in every target. Their PHP variables are the locals and the names
bound by `catch` that they hold.
-/

namespace Polyglot

structure Fragment where
  python3 : String
  python2 : String
  php : String
  deriving DecidableEq, Repr

namespace Fragment

/-- The texts, and the lines that nest too deeply. -/
def render (book : RuleBook) (source : String) (removeEmptyLines : Bool) :
    Fragment × List String :=
  let python3 := Render.Python.python3Text book source none removeEmptyLines
  let bindings := ClassDecl.boundNames [] source.toList
  let (php, lines) := Render.Php.phpText book source bindings
  (⟨python3, Render.Python.python2Text book python3, php⟩, lines)

def diagnostics (origin : String) (lines : List String) : List Diagnostic :=
  lines.map fun line => ⟨.nestingExceeded line, some origin⟩

def log (origin : String) (lines : List String) : Log :=
  lines.map fun line => ⟨.warn, origin ++ ": collection literal left unconverted: " ++ line⟩

end Fragment

end Polyglot
