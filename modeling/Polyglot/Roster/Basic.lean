import Polyglot.Log
import Polyglot.Pattern.Source

/-!
The classes of a run with their bases, and the declarations that a manifest lists for them.
-/

namespace Polyglot

/-- Names with their bases in the order in which they are enrolled; no name stands twice. -/
structure Roster where
  classes : List (String × String) := []
  deriving DecidableEq, Repr

namespace Roster

def contains (r : Roster) (name : String) : Bool :=
  (r.classes.lookup name).isSome

def isEmpty (r : Roster) : Bool :=
  r.classes.isEmpty

/-- A name that is enrolled again keeps its first base, and a warning is logged. -/
def enroll (r : Roster) (name base : String) : Log × Roster :=
  match r.classes.lookup name with
  | some first =>
    ([⟨.warn, name ++ " registered twice, keeping base " ++ first ++ " over " ++ base⟩], r)
  | none => ([], ⟨r.classes ++ [(name, base)]⟩)

def declaration (name base : String) : String :=
  "    export class " ++ name ++ " extends " ++ base ++ " \x7b\x7d"

/-- One declaration per class, each on a line. -/
def declarations (r : Roster) : String :=
  "\n".intercalate (r.classes.map fun c => declaration c.1 c.2) ++ "\n"

end Roster

end Polyglot
