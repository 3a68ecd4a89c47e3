/-!
Stable sorting by insertion, for the short lists of names that this library orders.
-/

namespace Polyglot

/-- Puts an element before the first one that it may stand in front of. -/
def insertBy {α : Type} (le : α → α → Bool) (a : α) : List α → List α
  | [] => [a]
  | b :: bs => if le a b then a :: b :: bs else b :: insertBy le a bs

/-- Sorts a list; elements that may stand either way keep their order. -/
def sortBy {α : Type} (le : α → α → Bool) (xs : List α) : List α :=
  xs.foldr (insertBy le) []

/-- The order of texts by code points, which is also that of their bytes. -/
def textLe (a b : String) : Bool :=
  !decide (b < a)

theorem mem_insertBy {α : Type} {le : α → α → Bool} {a x : α} {xs : List α} :
    x ∈ insertBy le a xs ↔ x = a ∨ x ∈ xs := by
  induction xs with
  | nil => simp [insertBy]
  | cons b bs ih =>
    simp only [insertBy]
    split
    · simp
    · simp only [List.mem_cons, ih]
      exact ⟨fun h => h.elim (fun h => .inr (.inl h)) (fun h => h.elim .inl fun h => .inr (.inr h)),
        fun h => h.elim (fun h => .inr (.inl h)) (fun h => h.elim .inl fun h => .inr (.inr h))⟩

/-- Sorting neither adds nor drops elements. -/
theorem mem_sortBy {α : Type} {le : α → α → Bool} {x : α} {xs : List α} :
    x ∈ sortBy le xs ↔ x ∈ xs := by
  induction xs with
  | nil => rfl
  | cons a xs ih =>
    have : sortBy le (a :: xs) = insertBy le a (sortBy le xs) := rfl
    rw [this, mem_insertBy, ih, List.mem_cons]

theorem length_insertBy {α : Type} (le : α → α → Bool) (a : α) (xs : List α) :
    (insertBy le a xs).length = xs.length + 1 := by
  induction xs with
  | nil => rfl
  | cons b bs ih => simp only [insertBy]; split <;> simp [ih]

theorem length_sortBy {α : Type} (le : α → α → Bool) (xs : List α) :
    (sortBy le xs).length = xs.length := by
  induction xs with
  | nil => rfl
  | cons a xs ih =>
    have : sortBy le (a :: xs) = insertBy le a (sortBy le xs) := rfl
    rw [this, length_insertBy, ih, List.length_cons]

/-- Sorting puts the elements in an order that decides between any two of them. -/
theorem pairwise_insertBy {α : Type} {le : α → α → Bool} {R : α → α → Prop}
    (before : ∀ a b, le a b = true → R a b) (behind : ∀ a b, le a b = false → R b a)
    (trans : ∀ a b c, R a b → R b c → R a c) (a : α) {xs : List α}
    (h : xs.Pairwise R) : (insertBy le a xs).Pairwise R := by
  induction xs with
  | nil => simp [insertBy]
  | cons b bs ih =>
    obtain ⟨first, others⟩ := List.pairwise_cons.mp h
    rw [insertBy]
    split
    · next least =>
      refine List.pairwise_cons.mpr ⟨fun c hc => ?_, h⟩
      rcases List.mem_cons.mp hc with rfl | later
      · exact before a c least
      · exact trans a b c (before a b least) (first c later)
    · next least =>
      refine List.pairwise_cons.mpr ⟨fun c hc => ?_, ih others⟩
      rcases mem_insertBy.mp hc with rfl | old
      · exact behind c b (Bool.eq_false_iff.mpr least)
      · exact first c old

theorem pairwise_sortBy {α : Type} {le : α → α → Bool} {R : α → α → Prop}
    (before : ∀ a b, le a b = true → R a b) (behind : ∀ a b, le a b = false → R b a)
    (trans : ∀ a b c, R a b → R b c → R a c) (xs : List α) :
    (sortBy le xs).Pairwise R := by
  induction xs with
  | nil => exact .nil
  | cons a xs ih => exact pairwise_insertBy before behind trans a ih

end Polyglot
