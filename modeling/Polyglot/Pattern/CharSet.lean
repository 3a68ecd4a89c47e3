import Polyglot.Text.Blank
import Polyglot.Text.Word

/-!
Sets of characters as patterns spell them: ranges and the three named classes, closed under the
Boolean operations.
-/

namespace Polyglot

inductive CharSet where
  | none
  | range (lo hi : Char)
  | blank
  | digit
  | word
  | union (a b : CharSet)
  | inter (a b : CharSet)
  | compl (a : CharSet)
  deriving DecidableEq, Repr

namespace CharSet

def has : CharSet → Char → Bool
  | none, _ => false
  | range lo hi, c => decide (lo ≤ c) && decide (c ≤ hi)
  | blank, c => Text.isBlank c
  | digit, c => Text.isDigit c
  | word, c => Text.isWord c
  | union a b, c => a.has c || b.has c
  | inter a b, c => a.has c && b.has c
  | compl a, c => !a.has c

def single (c : Char) : CharSet :=
  range c c

/-- The characters of any of the sets, as a class in brackets lists them. -/
def ofItems (items : List CharSet) : CharSet :=
  items.foldl union none

def asciiDigit : CharSet :=
  range '0' '9'

def asciiBlank : CharSet :=
  union (range '\t' '\r') (single ' ')

def asciiWord : CharSet :=
  union (union (union (range 'a' 'z') (range 'A' 'Z')) asciiDigit) (single '_')

def diff (a b : CharSet) : CharSet :=
  inter a (compl b)

def symmDiff (a b : CharSet) : CharSet :=
  union (diff a b) (diff b a)

@[simp] theorem has_none (c : Char) : none.has c = false := rfl

@[simp] theorem has_union (a b : CharSet) (c : Char) :
    (union a b).has c = (a.has c || b.has c) := rfl

@[simp] theorem has_compl (a : CharSet) (c : Char) : (compl a).has c = !a.has c := rfl

@[simp] theorem has_single (a c : Char) : (single a).has c = decide (c = a) := by
  simp only [single, has, ← Bool.decide_and]
  congr 1
  refine propext ⟨fun ⟨h, h'⟩ => Char.le_antisymm h' h, fun h => ?_⟩
  subst h
  exact ⟨Char.le_refl _, Char.le_refl _⟩

end CharSet

end Polyglot
