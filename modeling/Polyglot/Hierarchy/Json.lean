import Polyglot.Failure
import Polyglot.Hierarchy.Basic
import Polyglot.Json.Reader

/-!
The hierarchy from nested JSON objects, each key a class under the key that it is nested in.
-/

namespace Polyglot

namespace Hierarchy

mutual

/-- The classes of a value in preorder. A value that is no object fails with the key that it stands
under, if it has one. -/
def flatten (parent : Option String) : Json → Except (Option String) (List HierarchyEntry)
  | .object members => flattenMembers parent members
  | _ => .error parent

def flattenMembers (parent : Option String) :
    List (String × Json) → Except (Option String) (List HierarchyEntry)
  | [] => .ok []
  | (name, value) :: rest => do
    let children ← flatten (some name) value
    let others ← flattenMembers parent rest
    return ⟨name, parent⟩ :: children ++ others

end

/-- Siblings come in the order of their keys. -/
def ofJson (value : Json) : Except Failure Hierarchy :=
  match flatten none value with
  | .ok classes => .ok ⟨classes⟩
  | .error key => .error
      (.configuration "error hierarchy entries must be JSON objects" (some (key.getD "<root>")))

def ofText (s : String) : Except Failure Hierarchy :=
  match Json.parse? s with
  | some value => ofJson value
  | none => .error (.json "malformed JSON text")

end Hierarchy

end Polyglot
