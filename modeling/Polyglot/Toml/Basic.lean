/-!
TOML values and the rules for defining tables. A table remembers how it came about, because that
decides what may still be added to it: nothing to a table in braces, nothing by dotted keys to a
table that has a header, and no second header to any table.
-/

namespace Polyglot

namespace Toml

/-- How a table came about. -/
inductive Style where
  /-- In braces. -/
  | inline
  /-- On the way to a table with a header. -/
  | implicit
  /-- By a dotted key. -/
  | dotted
  /-- By a header of its own. -/
  | header
  deriving DecidableEq, Repr

end Toml

inductive Toml where
  | string (s : String)
  | integer (n : Int)
  | float
  | boolean (b : Bool)
  | datetime
  | array (items : List Toml)
  | table (style : Toml.Style) (entries : List (String × Toml))
  /-- Tables with headers in double brackets. -/
  | tables (items : List (List (String × Toml)))
  deriving Repr

namespace Toml

abbrev Entries := List (String × Toml)

def Entries.set (key : String) (value : Toml) : Entries → Entries
  | [] => [(key, value)]
  | e :: entries =>
    if e.1 = key then (key, value) :: entries else e :: Entries.set key value entries

/-- Changes the table at the end of a path, creating the tables on the way that are not there. Of
tables with double brackets, the last one counts. -/
def descend (byDots : Bool) (change : Style → Entries → Option (Style × Entries)) :
    List String → Style → Entries → Option (Style × Entries)
  | [], style, entries => change style entries
  | key :: path, style, entries =>
    match entries.lookup key with
    | none => do
      let (inner, es) ← descend byDots change path (if byDots then .dotted else .implicit) []
      return (style, Entries.set key (.table inner es) entries)
    | some (.table inner es) =>
      if inner = .inline || (byDots && inner = .header) then none
      else do
        let (inner, es) ← descend byDots change path inner es
        return (style, Entries.set key (.table inner es) entries)
    | some (.tables items) => do
      let (_, es) ← descend byDots change path .header (items.getLast?.getD [])
      return (style, Entries.set key (.tables (items.dropLast ++ [es])) entries)
    | some _ => none

/-- Sets a key that may be dotted in a table. -/
def assign (path : List String) (key : String) (value : Toml) (style : Style) (entries : Entries) :
    Option (Style × Entries) :=
  descend true (fun style entries =>
    if decide (style = .dotted) == path.isEmpty || (entries.lookup key).isSome then none
    else some (style, Entries.set key value entries)) path style entries

/-- Opens the table that a header names. -/
def openTable (path : List String) (key : String) (root : Entries) : Option Entries := do
  let (_, root) ← descend false (fun style entries =>
    match entries.lookup key with
    | none => some (style, Entries.set key (.table .header []) entries)
    | some (.table .implicit es) => some (style, Entries.set key (.table .header es) entries)
    | some _ => none) path .header root
  return root

/-- Adds a table under a header in double brackets. -/
def addTable (path : List String) (key : String) (root : Entries) : Option Entries := do
  let (_, root) ← descend false (fun style entries =>
    match entries.lookup key with
    | none => some (style, Entries.set key (.tables [[]]) entries)
    | some (.tables items) => some (style, Entries.set key (.tables (items ++ [[]])) entries)
    | some _ => none) path .header root
  return root

/-- Sets a key, which may be dotted, under the header that was read last. -/
def assignUnder (header : List String) (path : List String) (key : String) (value : Toml)
    (root : Entries) : Option Entries := do
  let (_, root) ← descend false (assign path key value) header .header root
  return root

end Toml

end Polyglot
