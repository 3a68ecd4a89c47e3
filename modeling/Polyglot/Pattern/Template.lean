import Polyglot.Pattern.Scan

/-!
Replacement templates. `$name` and `${name}` stand for the text of a group, by number if the name
is a number, and `$$` for a dollar. A dollar that starts no reference stays.
-/

namespace Polyglot

namespace Template

inductive Part where
  | char (c : Char)
  | group (index : Nat)
  | named (name : List Char)
  deriving DecidableEq, Repr

def isNameChar (c : Char) : Bool :=
  Text.isAsciiWord c

/-- The number that decimal digits denote. -/
def number (s : List Char) : Nat :=
  s.foldl (fun n c => 10 * n + (c.toNat - '0'.toNat)) 0

/-- A reference is a number if its name is one, with an optional plus sign. -/
def Part.ofName (name : List Char) : Part :=
  let digits := if name.head? = some '+' then name.tail else name
  if !digits.isEmpty && digits.all Text.isAsciiDigit then group (number digits) else named name

/-- The reference behind a dollar, and the rest of the template. -/
def reference? : List Char → Option (Part × List Char)
  | '{' :: rest =>
    let name := rest.takeWhile (· != '}')
    if name.length < rest.length then some (.ofName name, rest.drop (name.length + 1)) else none
  | rest =>
    let name := rest.takeWhile isNameChar
    if name.isEmpty then none else some (.ofName name, rest.drop name.length)

/-- The first `skip` characters belong to the reference before. -/
def partsFrom : (skip : Nat) → List Char → List Part
  | _, [] => []
  | skip + 1, _ :: rest => partsFrom skip rest
  | 0, '$' :: '$' :: rest => .char '$' :: partsFrom 1 ('$' :: rest)
  | 0, '$' :: rest =>
    match reference? rest with
    | some (part, after) => part :: partsFrom (rest.length - after.length) rest
    | none => .char '$' :: partsFrom 0 rest
  | 0, c :: rest => .char c :: partsFrom 0 rest

/-- The parts of a written template. -/
def parts (s : List Char) : List Part :=
  partsFrom 0 s

/-- The text of a part, given the names of the pattern's groups. -/
def Part.expand (names : List (List Char × Nat)) (m : Match) : Part → List Char
  | char c => [c]
  | group index => m.group index
  | named name => ((names.lookup name).map m.group).getD []

def expand (names : List (List Char × Nat)) (ps : List Part) (m : Match) : List Char :=
  ps.flatMap (Part.expand names m)

end Template

end Polyglot
