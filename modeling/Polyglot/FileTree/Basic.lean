import Polyglot.Path

/-!
A tree of files below a working directory. A place is the list of names that lead to it; the
working directory is the empty list and always there.
-/

namespace Polyglot

/-- The content of a file: an encoded text, or bytes that encode none. -/
inductive Content where
  | text (s : String)
  | binary (bytes : List UInt8)
  deriving DecidableEq, Repr

def Content.ofBytes (bytes : ByteArray) : Content :=
  match String.fromUTF8? bytes with
  | some s => .text s
  | none => .binary bytes.toList

inductive Node where
  | directory
  | file (content : Content)
  deriving DecidableEq, Repr

def Node.isFile : Node → Bool
  | directory => false
  | file _ => true

abbrev Place := List String

structure FileTree where
  nodes : List (Place × Node) := []
  deriving DecidableEq, Repr

namespace FileTree

def find? (t : FileTree) (place : Place) : Option Node :=
  if place = [] then some .directory else t.nodes.lookup place

def erase (t : FileTree) (place : Place) : FileTree :=
  ⟨t.nodes.filter (·.1 != place)⟩

/-- Puts a node at a place, instead of what is there. -/
def put (t : FileTree) (place : Place) (node : Node) : FileTree :=
  ⟨(place, node) :: (t.erase place).nodes⟩

/-- Takes away a place and all below it. -/
def eraseAll (t : FileTree) (place : Place) : FileTree :=
  ⟨t.nodes.filter fun n => !place.isPrefixOf n.1⟩

/-- The names of the files that lie directly in a directory. -/
def fileNames (t : FileTree) (directory : Place) : List String :=
  t.nodes.filterMap fun n =>
    if n.2.isFile && n.1.dropLast = directory then n.1.getLast? else none

theorem lookup_filter_of_ne {place other : Place} (h : other ≠ place)
    (nodes : List (Place × Node)) :
    (nodes.filter (·.1 != place)).lookup other = nodes.lookup other := by
  induction nodes with
  | nil => rfl
  | cons n nodes ih =>
    obtain ⟨key, node⟩ := n
    by_cases hkey : key = place
    · subst hkey
      have : (other == key) = false := by simpa using h
      simp [List.lookup_cons, this, ih]
    · simp [hkey, List.lookup_cons, ih]

theorem lookup_filter_self (place : Place) (nodes : List (Place × Node)) :
    (nodes.filter (·.1 != place)).lookup place = none := by
  induction nodes with
  | nil => rfl
  | cons n nodes ih =>
    obtain ⟨key, node⟩ := n
    by_cases hkey : key = place
    · subst hkey
      simpa using ih
    · have : (place == key) = false := by simpa using Ne.symm hkey
      rw [List.filter_cons_of_pos (by simpa using hkey), List.lookup_cons, this, ih]

theorem find?_put_self {place : Place} (h : place ≠ []) (t : FileTree) (node : Node) :
    (t.put place node).find? place = some node := by
  simp [find?, put, h]

theorem find?_put_of_ne {place other : Place} (h : other ≠ place) (t : FileTree) (node : Node) :
    (t.put place node).find? other = t.find? other := by
  have : (other == place) = false := by simpa using h
  simp [find?, put, erase, List.lookup_cons, this, lookup_filter_of_ne h]

theorem find?_erase_self {place : Place} (h : place ≠ []) (t : FileTree) :
    (t.erase place).find? place = none := by
  simp [find?, erase, h, lookup_filter_self]

theorem find?_erase_of_ne {place other : Place} (h : other ≠ place) (t : FileTree) :
    (t.erase place).find? other = t.find? other := by
  simp [find?, erase, lookup_filter_of_ne h]

end FileTree

end Polyglot
