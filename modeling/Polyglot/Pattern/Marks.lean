import Polyglot.Pattern.Program

/-!
Which forks a search has passed at which places of the text. One bit mask for each place, and no
masks behind the furthest place that has been marked.
-/

namespace Polyglot

structure Marks where
  masks : Array Nat

namespace Marks

def none : Marks :=
  ⟨#[]⟩

def has (m : Marks) (fork place : Nat) : Bool :=
  (m.masks.getD place 0).testBit fork

/-- Masks up to a place. -/
def grow (masks : Array Nat) (place : Nat) : Array Nat :=
  if place < masks.size then masks else masks ++ Array.replicate (place + 1 - masks.size) 0

def add (m : Marks) (fork place : Nat) : Marks :=
  ⟨(grow m.masks place).modify place (· ||| 1 <<< fork)⟩

/-- Takes away the marks at one place. -/
def clear (m : Marks) (place : Nat) : Marks :=
  ⟨m.masks.modify place fun _ => 0⟩

theorem size_grow (masks : Array Nat) (place : Nat) : place < (grow masks place).size := by
  unfold grow
  split
  · assumption
  · rw [Array.size_append, Array.size_replicate]
    omega

theorem getD_grow (masks : Array Nat) (place other : Nat) :
    (grow masks place).getD other 0 = masks.getD other 0 := by
  unfold grow
  split
  · rfl
  · simp only [Array.getD_eq_getD_getElem?, Array.getElem?_append]
    split
    · rfl
    · next beyond =>
      rw [Array.getElem?_eq_none (Nat.le_of_not_lt beyond), Array.getElem?_replicate]
      split <;> rfl

theorem not_has_none (fork place : Nat) : none.has fork place = false := by
  simp [has, none]

theorem has_add (m : Marks) (fork place fork' place' : Nat) :
    (m.add fork place).has fork' place' =
      (m.has fork' place' || (fork' == fork && place' == place)) := by
  simp only [has, add]
  rw [← getD_grow m.masks place place']
  have inside := size_grow m.masks place
  generalize grow m.masks place = masks at inside
  simp only [Array.getD_eq_getD_getElem?, Array.getElem?_modify]
  by_cases same : place' = place
  · subst same
    have bit : (1 <<< fork).testBit fork' = (fork' == fork) := by
      rw [Nat.one_shiftLeft, Nat.testBit_two_pow]
      exact Bool.eq_iff_iff.mpr (by simpa using eq_comm)
    simp [inside, Nat.testBit_or, bit]
  · simp [same, Ne.symm same]

theorem has_add_self (m : Marks) (fork place : Nat) : (m.add fork place).has fork place = true := by
  simp [has_add]

theorem has_add_of_has {m : Marks} {fork place : Nat} (h : m.has fork place = true)
    (fork' place' : Nat) : (m.add fork' place').has fork place = true := by
  simp [has_add, h]

theorem has_clear (m : Marks) (place fork place' : Nat) :
    (m.clear place).has fork place' = (place' != place && m.has fork place') := by
  simp only [has, clear, Array.getD_eq_getD_getElem?, Array.getElem?_modify]
  by_cases same : place' = place
  · subst same
    by_cases inside : place' < m.masks.size <;> simp [inside]
  · simp [same, Ne.symm same]

/-- All forks of a table at all places of a text. -/
def spots (forks length : Nat) : List (Nat × Nat) :=
  (List.range (length + 1)).flatMap fun place => (List.range forks).map (·, place)

/-- How many of them are not marked. -/
def room (m : Marks) (forks length : Nat) : Nat :=
  (spots forks length).countP fun spot => !m.has spot.1 spot.2

theorem countP_lt_countP {α : Type} {p q : α → Bool} {l : List α} {a : α} (mem : a ∈ l)
    (hp : p a = true) (hq : q a = false) (imp : ∀ b, q b = true → p b = true) :
    l.countP q < l.countP p := by
  induction l with
  | nil => cases mem
  | cons b l ih =>
    have weak : l.countP q ≤ l.countP p := List.countP_mono_left fun b _ => imp b
    rcases List.mem_cons.mp mem with same | later
    · subst same
      simp [hp, hq]
      omega
    · have := ih later
      have := imp b
      rw [List.countP_cons, List.countP_cons]
      grind

theorem room_add {m : Marks} {fork place forks length : Nat} (free : m.has fork place = false)
    (hfork : fork < forks) (hplace : place ≤ length) :
    (m.add fork place).room forks length < m.room forks length := by
  refine countP_lt_countP (a := (fork, place)) ?_ (by simp [free]) (by simp [has_add]) ?_
  · simp only [spots, List.mem_flatMap, List.mem_map, List.mem_range]
    exact ⟨place, by omega, fork, hfork, rfl⟩
  · intro spot h
    simp only [has_add, Bool.not_eq_true', Bool.or_eq_false_iff] at h
    simp [h.1]

theorem room_le (m : Marks) (forks length : Nat) :
    m.room forks length ≤ forks * (length + 1) := by
  refine Nat.le_trans List.countP_le_length ?_
  simp [spots, List.length_flatMap, List.map_const', Nat.mul_comm]

end Marks

end Polyglot
