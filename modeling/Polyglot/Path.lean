import Polyglot.Text.Lines

/-!
Paths as they are written, with slashes between their names. Two paths are the same if their
components agree, so doubled slashes, slashes at the end and inner dots make no difference.
-/

namespace Polyglot

structure Path where
  text : String
  deriving DecidableEq, Repr, Inhabited

namespace Path

inductive Component where
  | root
  | here
  | up
  | name (s : String)
  deriving DecidableEq, Repr

def isAbsolute (p : Path) : Bool :=
  p.text.toList.head? = some '/'

/-- Whether a piece between slashes names nothing. -/
def isVoid (piece : List Char) : Bool :=
  piece = [] || piece = ['.']

/-- What stands between the slashes. -/
def pieces (p : Path) : List (List Char) :=
  Text.splitOn '/' p.text.toList

/-- The names between the slashes. A dot counts only at the start of a relative path. -/
def components (p : Path) : List Component :=
  let ofPiece (piece : List Char) : Option Component :=
    if isVoid piece then none
    else if piece = ['.', '.'] then some .up
    else some (.name (String.ofList piece))
  let start : List Component :=
    if p.isAbsolute then [.root] else if p.pieces.head? = some ['.'] then [.here] else []
  start ++ p.pieces.filterMap ofPiece

/-- Whether the components agree. -/
def same (p q : Path) : Bool :=
  p.components = q.components

/-- An absolute second path replaces the first; otherwise a slash comes between, unless the first
is empty or already ends in one. -/
def join (p q : Path) : Path :=
  if q.isAbsolute then q
  else if p.text.isEmpty || p.text.toList.getLast? = some '/' then ⟨p.text ++ q.text⟩
  else ⟨p.text ++ "/" ++ q.text⟩

/-- The path without its last component; none for the root and for the empty path. -/
def parent? (p : Path) : Option Path :=
  let trimEnd (pieces : List (List Char)) := (pieces.reverse.dropWhile isVoid).reverse
  match p.pieces with
  | [] => none
  | head :: pieces =>
    match trimEnd pieces with
    | [] => if head = [] then none else some ⟨""⟩
    | named =>
      match trimEnd named.dropLast with
      | [] => some ⟨if p.isAbsolute then "/" else String.ofList head⟩
      | rest => some ⟨String.ofList (Text.join ['/'] (head :: rest))⟩

/-- The last component, if it is a name. -/
def fileName? (p : Path) : Option String :=
  match p.components.getLast? with
  | some (.name s) => some s
  | _ => none

/-- The name up to its last dot; a dot at the start does not count. -/
def stem (name : String) : String :=
  let chars := name.toList
  let after := chars.reverse.takeWhile (· != '.')
  let before := (chars.reverse.drop (after.length + 1)).reverse
  if after.length = chars.length || before.isEmpty then name else String.ofList before

def fileStem? (p : Path) : Option String :=
  p.fileName?.map stem

end Path

end Polyglot
