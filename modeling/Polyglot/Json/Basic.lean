/-!
JSON values. Objects list their members in increasing order of their keys, each key once.
-/

namespace Polyglot

inductive Json where
  | null
  | bool (b : Bool)
  /-- A number as it is written. -/
  | number (text : String)
  | string (s : String)
  | array (items : List Json)
  | object (members : List (String × Json))
  deriving Repr

namespace Json

/-- Puts a member in its place; a key that is there already gets the new value. -/
def insertMember (key : String) (value : Json) : List (String × Json) → List (String × Json)
  | [] => [(key, value)]
  | m :: members =>
    if key = m.1 then (key, value) :: members
    else if key < m.1 then (key, value) :: m :: members
    else m :: insertMember key value members

end Json

end Polyglot
