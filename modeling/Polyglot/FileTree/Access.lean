import Polyglot.Failure
import Polyglot.FileTree.Basic

/-!
Access to a file tree by paths. On the way to a place every name but the last must be a directory.
The directories above the working directory are there, and nothing else outside of it.
-/

namespace Polyglot

/-- Where a path leads. -/
inductive Spot where
  | inside (place : Place)
  /-- A directory above the working directory. -/
  | above
  | nowhere
  deriving DecidableEq, Repr

namespace Spot

def up : Spot → Spot
  | inside [] => above
  | inside place => inside place.dropLast
  | above => above
  | nowhere => nowhere

def child (name : String) : Spot → Spot
  | inside place => inside (place ++ [name])
  | above => nowhere
  | nowhere => nowhere

end Spot

namespace FileTree

/-- The largest number of bytes in a name. -/
def maxName : Nat := 255

/-- The largest number of bytes in a path. -/
def maxPath : Nat := 4095

def look? (t : FileTree) : Spot → Option Node
  | .inside place => t.find? place
  | .above => some .directory
  | .nowhere => none

/-- Asks for a directory. -/
def expectDirectory (t : FileTree) (spot : Spot) : Except AccessError Unit :=
  match t.look? spot with
  | none => .error .missing
  | some (.file _) => .error .notDirectory
  | some .directory => .ok ()

/-- One piece of a path, from a spot that must be a directory. -/
def step (t : FileTree) (spot : Spot) (piece : List Char) : Except AccessError Spot := do
  t.expectDirectory spot
  if Path.isVoid piece then return spot
  else if piece = ['.', '.'] then return spot.up
  else
    let name := String.ofList piece
    if maxName < name.utf8ByteSize then .error .nameTooLong else return spot.child name

/-- Where a path starts from, unless it is no path at all. An absolute path starts above the working
directory, and none of its pieces leads back into it. -/
def start (p : Path) : Except AccessError Spot :=
  if p.text.toList.contains '\x00' then .error .badName
  else if maxPath < p.text.utf8ByteSize then .error .nameTooLong
  else if p.text.isEmpty then .error .missing
  else .ok (if p.isAbsolute then .above else .inside [])

/-- The spot that a path leads to. Its directory is there, the spot itself need not be. -/
def locate (t : FileTree) (p : Path) : Except AccessError Spot := do
  p.pieces.foldlM t.step (← start p)

/-- What a path leads to. -/
def node? (t : FileTree) (p : Path) : Option Node :=
  match t.locate p with
  | .ok spot => t.look? spot
  | .error _ => none

def read (t : FileTree) (p : Path) : Except AccessError String := do
  match t.look? (← t.locate p) with
  | none => .error .missing
  | some .directory => .error .isDirectory
  | some (.file (.text s)) => .ok s
  | some (.file (.binary _)) => .error .notText

/-- The directory that a path leads to before its last name, and the name. There is none if the path
ends in dots. Slashes at the end are passed over. -/
def split (t : FileTree) (p : Path) : Except AccessError (Spot × Option (List Char)) := do
  let pieces := (p.pieces.reverse.dropWhile (· == [])).reverse
  let spot ← pieces.dropLast.foldlM t.step (← start p)
  t.expectDirectory spot
  match pieces.getLast? with
  | none => return (spot, none)
  | some last => return (spot, if Path.isVoid last || last = ['.', '.'] then none else some last)

/-- Makes or overwrites a file in a directory that is there. A slash at the end asks for a
directory, which cannot be written. -/
def write (t : FileTree) (p : Path) (s : String) : Except AccessError FileTree := do
  match ← t.split p with
  | (_, none) => .error .isDirectory
  | (directory, some name) =>
    if p.text.toList.getLast? = some '/' then .error .isDirectory
    else
      match ← t.step directory name with
      | .inside place =>
        if t.find? place = some .directory then .error .isDirectory
        else return t.put place (.file (.text s))
      | _ => .error .missing

/-- The names of the files in a directory, in no particular order. A file has none. -/
def listNames (t : FileTree) (p : Path) : Except AccessError (List String) := do
  let spot ← t.locate p
  match spot, t.look? spot with
  | _, none => .error .missing
  | .inside place, some .directory => .ok (t.fileNames place)
  | _, some _ => .ok []

def remove (t : FileTree) (p : Path) : Except AccessError FileTree := do
  let spot ← t.locate p
  match spot, t.look? spot with
  | .inside place, some (.file _) => .ok (t.erase place)
  | _, some .directory => .error .isDirectory
  | _, _ => .error .missing

/-- Makes a directory in one that is there. -/
def makeDirectory (t : FileTree) (p : Path) : Except AccessError FileTree := do
  match ← t.split p with
  | (_, none) => .error .alreadyExists
  | (directory, some name) =>
    let spot ← t.step directory name
    match spot, t.look? spot with
    | _, some _ => .error .alreadyExists
    | .inside place, none => return t.put place .directory
    | _, none => .error .missing

end FileTree

end Polyglot
