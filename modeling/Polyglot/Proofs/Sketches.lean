import Polyglot.Proofs.CodePoints
import Polyglot.Proofs.Hits

/-!
Sketches of texts. A sketch says of each place of a text which characters may stand there, and it
leaves open how long the names and the numbers in the text are. Matching a pattern against a sketch
finds all that a match in some text of this sketch may leave shown, so a pattern that finds nothing
in the sketch matches none of its texts (`Pattern.isMatch_eq_false_of_sketch`). This is decided by
evaluation, once for all texts.
-/

namespace Polyglot

open Text (Ranges)

namespace CharSet

/-- Whether the set has a character in one of the ranges. -/
def meets (set : CharSet) (cs : Ranges) : Bool :=
  set.ranges.any fun r => cs.any fun s => decide (r.1 ≤ s.2) && decide (s.1 ≤ r.2)

theorem meets_of_covers {set : CharSet} {cs : Ranges} {c : Char} (has : set.has c = true)
    (h : cs.Covers c.toNat) : set.meets cs = true := by
  obtain ⟨r, hr, above, below⟩ := (has_iff_covers set c).mp has
  obtain ⟨s, hs, above', below'⟩ := h
  refine List.any_eq_true.mpr ⟨r, hr,
    List.any_eq_true.mpr ⟨s, hs, Bool.and_eq_true_iff.mpr ⟨?_, ?_⟩⟩⟩
  · exact decide_eq_true (above.trans below')
  · exact decide_eq_true (above'.trans below)

end CharSet

/-- A part of a sketch: so many characters out of some ranges. -/
inductive Stroke where
  | once (cs : Ranges)
  | maybe (cs : Ranges)
  | many (cs : Ranges)
  deriving DecidableEq, Repr

def Stroke.chars : Stroke → Ranges
  | once cs => cs
  | maybe cs => cs
  | many cs => cs

abbrev Sketch := List Stroke

namespace Sketch

/-- The texts of a sketch. -/
inductive Shows : Sketch → List Char → Prop where
  | nil : Shows [] []
  | once {cs : Ranges} {i : Sketch} {c : Char} {s : List Char} :
      cs.Covers c.toNat → Shows i s → Shows (.once cs :: i) (c :: s)
  | leave {cs : Ranges} {i : Sketch} {s : List Char} : Shows i s → Shows (.maybe cs :: i) s
  | take {cs : Ranges} {i : Sketch} {c : Char} {s : List Char} :
      cs.Covers c.toNat → Shows i s → Shows (.maybe cs :: i) (c :: s)
  | stop {cs : Ranges} {i : Sketch} {s : List Char} : Shows i s → Shows (.many cs :: i) s
  | more {cs : Ranges} {i : Sketch} {c : Char} {s : List Char} :
      cs.Covers c.toNat → Shows (.many cs :: i) s → Shows (.many cs :: i) (c :: s)

theorem Shows.append {i j : Sketch} {s t : List Char} (hs : Shows i s) (ht : Shows j t) :
    Shows (i ++ j) (s ++ t) := by
  induction hs with
  | nil => exact ht
  | once mem _ ih => exact .once mem ih
  | leave _ ih => exact .leave ih
  | take mem _ ih => exact .take mem ih
  | stop _ ih => exact .stop ih
  | more mem _ ih => exact .more mem ih

/-- Every character of a text comes from a part of the sketch. -/
theorem exists_stroke_of_mem {i : Sketch} {s : List Char} {c : Char} (h : Shows i s) (hc : c ∈ s) :
    ∃ x ∈ i, x.chars.Covers c.toNat := by
  have later {x : Stroke} {i : Sketch} (h : ∃ y ∈ i, y.chars.Covers c.toNat) :
      ∃ y ∈ x :: i, y.chars.Covers c.toNat := by
    obtain ⟨y, hy, mem⟩ := h
    exact ⟨y, List.mem_cons_of_mem _ hy, mem⟩
  induction h with
  | nil => cases hc
  | once mem _ ih =>
    rcases List.mem_cons.mp hc with rfl | behind
    · exact ⟨_, List.mem_cons_self, mem⟩
    · exact later (ih behind)
  | leave _ ih => exact later (ih hc)
  | take mem _ ih =>
    rcases List.mem_cons.mp hc with rfl | behind
    · exact ⟨_, List.mem_cons_self, mem⟩
    · exact later (ih behind)
  | stop _ ih => exact later (ih hc)
  | more mem _ ih =>
    rcases List.mem_cons.mp hc with rfl | behind
    · exact ⟨_, List.mem_cons_self, mem⟩
    · exact ih behind

theorem not_mem_of_shows {i : Sketch} {s : List Char} {c : Char} (h : Shows i s)
    (free : (i.all fun x => !decide (x.chars.Covers c.toNat)) = true) : c ∉ s := by
  intro mem
  obtain ⟨x, inside, covered⟩ := exists_stroke_of_mem h mem
  simpa [covered] using List.all_eq_true.mp free x inside

/-- The sketch of a single text. -/
def exactly (w : List Char) : Sketch :=
  w.map fun c => .once [(c.toNat, c.toNat)]

theorem shows_exactly (w : List Char) : Shows (exactly w) w := by
  induction w with
  | nil => exact .nil
  | cons c w ih => exact .once ⟨_, List.mem_cons_self, le_rfl, le_rfl⟩ ih

theorem shows_many {cs : Ranges} {w : List Char} (h : ∀ c ∈ w, cs.Covers c.toNat) :
    Shows [.many cs] w := by
  induction w with
  | nil => exact .stop .nil
  | cons c w ih =>
    exact .more (h c List.mem_cons_self) (ih fun d hd => h d (List.mem_cons_of_mem _ hd))

variable {set : CharSet} {i : Sketch} {c : Char} {s w : List Char}

/-- What one character of the set may leave shown. -/
def step (set : CharSet) : Sketch → List Sketch
  | [] => []
  | .once cs :: i => if set.meets cs then [i] else []
  | .maybe cs :: i => (if set.meets cs then [i] else []) ++ step set i
  | .many cs :: i => (if set.meets cs then [.many cs :: i] else []) ++ step set i

theorem exists_step (h : Shows i (c :: s)) (has : set.has c = true) :
    ∃ j ∈ step set i, Shows j s := by
  have left {cs : Ranges} (j : Sketch) (mem : cs.Covers c.toNat) :
      j ∈ if set.meets cs then [j] else [] := by
    rw [if_pos (CharSet.meets_of_covers has mem)]
    exact List.mem_singleton_self j
  generalize hcs : c :: s = cs at h
  induction h with
  | nil => cases hcs
  | once mem rest =>
    cases hcs
    exact ⟨_, left _ mem, rest⟩
  | leave _ ih =>
    obtain ⟨j, hj, rest⟩ := ih hcs
    exact ⟨j, List.mem_append_right _ hj, rest⟩
  | take mem rest =>
    cases hcs
    exact ⟨_, List.mem_append_left _ (left _ mem), rest⟩
  | stop _ ih =>
    obtain ⟨j, hj, rest⟩ := ih hcs
    exact ⟨j, List.mem_append_right _ hj, rest⟩
  | more mem rest =>
    cases hcs
    exact ⟨_, List.mem_append_left _ (left _ mem), rest⟩

/-- What any number of characters of the set may leave shown. -/
def run (set : CharSet) : Sketch → List Sketch
  | [] => [[]]
  | .once cs :: i => (.once cs :: i) :: if set.meets cs then run set i else []
  | .maybe cs :: i => (.maybe cs :: i) :: run set i
  | .many cs :: i => (.many cs :: i) :: run set i

theorem exists_run (h : Shows i (w ++ s)) (all : ∀ c ∈ w, set.has c = true) :
    ∃ j ∈ run set i, Shows j s := by
  generalize hcs : w ++ s = cs at h
  induction h generalizing w with
  | nil =>
    obtain ⟨-, rfl⟩ := List.append_eq_nil_iff.mp hcs
    exact ⟨[], List.mem_cons_self, .nil⟩
  | @once cs i c t mem rest ih =>
    cases w with
    | nil =>
      obtain rfl : s = _ := hcs
      exact ⟨_, List.mem_cons_self, .once mem rest⟩
    | cons d w =>
      cases hcs
      obtain ⟨j, hj, shown⟩ := ih (fun e he => all e (List.mem_cons_of_mem _ he)) rfl
      refine ⟨j, List.mem_cons_of_mem _ ?_, shown⟩
      rw [if_pos (CharSet.meets_of_covers (all c List.mem_cons_self) mem)]
      exact hj
  | leave rest ih =>
    obtain ⟨j, hj, shown⟩ := ih all hcs
    exact ⟨j, List.mem_cons_of_mem _ hj, shown⟩
  | take mem rest ih =>
    cases w with
    | nil =>
      obtain rfl : s = _ := hcs
      exact ⟨_, List.mem_cons_self, .take mem rest⟩
    | cons d w =>
      cases hcs
      obtain ⟨j, hj, shown⟩ := ih (fun e he => all e (List.mem_cons_of_mem _ he)) rfl
      exact ⟨j, List.mem_cons_of_mem _ hj, shown⟩
  | stop rest ih =>
    obtain ⟨j, hj, shown⟩ := ih all hcs
    exact ⟨j, List.mem_cons_of_mem _ hj, shown⟩
  | more mem rest ih =>
    cases w with
    | nil =>
      obtain rfl : s = _ := hcs
      exact ⟨_, List.mem_cons_self, .more mem rest⟩
    | cons d w =>
      cases hcs
      exact ih (fun e he => all e (List.mem_cons_of_mem _ he)) rfl

/-- A text that shows a sketch shows one of the rests of the sketch behind each of its places. -/
theorem exists_rest {u v : List Char} (h : Shows i (u ++ v)) :
    ∃ j ∈ run (.compl .none) i, Shows j v :=
  exists_run h fun _ _ => rfl

end Sketch

namespace Pattern

/-! ### What a match is made of -/

/-- The characters that a match may be made of. -/
def within : Pattern → CharSet
  | empty => .none
  | char set => set
  | look _ => .none
  | seq p q => .union (within p) (within q)
  | alt p q => .union (within p) (within q)
  | star _ p => within p
  | plus _ p => within p
  | group _ p => within p

/-- Between two places there are only characters of a set. -/
def Spans (set : CharSet) (s t : State) : Prop :=
  ∃ w, s.rest = w ++ t.rest ∧ ∀ c ∈ w, set.has c = true

variable {set other : CharSet} {s t u : State}

theorem Spans.of_rest_eq (h : t.rest = s.rest) : Spans set s t :=
  ⟨[], h.symm, List.forall_mem_nil _⟩

theorem Spans.trans (first : Spans set s t) (second : Spans set t u) : Spans set s u := by
  obtain ⟨v, hv, allv⟩ := first
  obtain ⟨w, hw, allw⟩ := second
  refine ⟨v ++ w, by rw [hv, hw, List.append_assoc], fun c mem => ?_⟩
  exact (List.mem_append.mp mem).elim (allv c) (allw c)

theorem Spans.mono (h : Spans set s t) (sub : ∀ c, set.has c = true → other.has c = true) :
    Spans other s t := by
  obtain ⟨w, hw, all⟩ := h
  exact ⟨w, hw, fun c mem => sub c (all c mem)⟩

theorem spans_of_mem_rounds {greedy : Bool} {fork : Nat} {step : State → List State}
    (h : ∀ s t, t ∈ step s → Spans set s t) {fuel : Nat}
    (mem : t ∈ rounds greedy fork step fuel s) :
    Spans set s t := by
  induction fuel generalizing s with
  | zero => cases mem
  | succ fuel ih =>
    unfold rounds at mem
    split at mem
    · cases mem
    · next u hu =>
      have still : u.rest = s.rest := by rw [(State.pass?_eq_some.mp hu).2]
      have cases : t = u ∨ ∃ v ∈ step u, t ∈ rounds greedy fork step fuel v := by
        cases greedy <;> simp at mem <;> grind
      refine (Spans.of_rest_eq still).trans ?_
      rcases cases with now | ⟨v, hv, hvt⟩
      · exact .of_rest_eq (now ▸ rfl)
      · exact (h u v hv).trans (ih hvt)

theorem spans_of_mem_ends {n : Nat} {p : Pattern} (mem : t ∈ p.ends n s) : Spans p.within s t := by
  have left {a b : CharSet} (c : Char) (h : a.has c = true) :
      (CharSet.union a b).has c = true := by simp [h]
  have right {a b : CharSet} (c : Char) (h : b.has c = true) :
      (CharSet.union a b).has c = true := by simp [h]
  induction p generalizing n s t with
  | empty => exact .of_rest_eq (by rw [List.mem_singleton.mp mem])
  | char set =>
    simp only [ends] at mem
    split at mem
    · cases mem
    · next c rest hrest =>
      split at mem
      · next has =>
        exact ⟨[c], by rw [List.mem_singleton.mp mem, hrest]; rfl, by simpa [within] using has⟩
      · cases mem
  | look test =>
    simp only [ends] at mem
    split at mem
    · exact .of_rest_eq (by rw [List.mem_singleton.mp mem])
    · cases mem
  | seq p q ihp ihq =>
    obtain ⟨u, hu, hut⟩ := List.mem_flatMap.mp mem
    exact ((ihp hu).mono left).trans ((ihq hut).mono right)
  | alt p q ihp ihq =>
    simp only [ends] at mem
    split at mem
    · cases mem
    · next u hu =>
      have still : u.rest = s.rest := by rw [(State.pass?_eq_some.mp hu).2]
      refine (Spans.of_rest_eq still).trans ?_
      rcases List.mem_append.mp mem with first | second
      · exact (ihp first).mono left
      · exact (ihq second).mono right
  | star greedy p ih => exact spans_of_mem_rounds (fun _ _ => ih) mem
  | plus greedy p ih =>
    obtain ⟨u, hu, hut⟩ := List.mem_flatMap.mp mem
    exact (ih hu).trans (spans_of_mem_rounds (fun _ _ => ih) hut)
  | group index p ih =>
    obtain ⟨u, hu, rfl⟩ := List.mem_map.mp mem
    exact (ih hu).trans (.of_rest_eq (State.leave_rest u index))

/-! ### Matching against a sketch -/

/-- What a match may leave shown of a sketch. Tests of a place are taken to hold, and a loop may
take any number of the characters that its body is made of. -/
def reach : Pattern → Sketch → List Sketch
  | empty, i => [i]
  | char set, i => Sketch.step set i
  | look _, i => [i]
  | seq p q, i => (reach p i).flatMap (reach q)
  | alt p q, i => reach p i ++ reach q i
  | star _ p, i => Sketch.run p.within i
  | plus _ p, i => (reach p i).flatMap (Sketch.run p.within)
  | group _ p, i => reach p i

open Sketch (Shows)

theorem exists_reach {n : Nat} {p : Pattern} {i : Sketch} (mem : t ∈ p.ends n s)
    (h : Shows i s.rest) : ∃ j ∈ p.reach i, Shows j t.rest := by
  induction p generalizing n s t i with
  | empty => exact ⟨i, List.mem_singleton_self _, by rw [List.mem_singleton.mp mem]; exact h⟩
  | char set =>
    simp only [ends] at mem
    split at mem
    · cases mem
    · next c rest hrest =>
      split at mem
      · next has =>
        rw [hrest] at h
        rw [List.mem_singleton.mp mem]
        exact Sketch.exists_step h has
      · cases mem
  | look test =>
    simp only [ends] at mem
    split at mem
    · exact ⟨i, List.mem_singleton_self _, by rw [List.mem_singleton.mp mem]; exact h⟩
    · cases mem
  | seq p q ihp ihq =>
    obtain ⟨u, hu, hut⟩ := List.mem_flatMap.mp mem
    obtain ⟨j, hj, there⟩ := ihp hu h
    obtain ⟨k, hk, shown⟩ := ihq hut there
    exact ⟨k, List.mem_flatMap.mpr ⟨j, hj, hk⟩, shown⟩
  | alt p q ihp ihq =>
    simp only [ends] at mem
    split at mem
    · cases mem
    · next u hu =>
      have still : u.rest = s.rest := by rw [(State.pass?_eq_some.mp hu).2]
      rw [← still] at h
      rcases List.mem_append.mp mem with first | second
      · obtain ⟨j, hj, shown⟩ := ihp first h
        exact ⟨j, List.mem_append_left _ hj, shown⟩
      · obtain ⟨j, hj, shown⟩ := ihq second h
        exact ⟨j, List.mem_append_right _ hj, shown⟩
  | star greedy p ih =>
    obtain ⟨w, hw, all⟩ := spans_of_mem_rounds (fun _ _ => spans_of_mem_ends) mem
    exact Sketch.exists_run (hw ▸ h) all
  | plus greedy p ih =>
    obtain ⟨u, hu, hut⟩ := List.mem_flatMap.mp mem
    obtain ⟨j, hj, there⟩ := ih hu h
    obtain ⟨w, hw, all⟩ := spans_of_mem_rounds (fun _ _ => spans_of_mem_ends) hut
    obtain ⟨k, hk, shown⟩ := Sketch.exists_run (hw ▸ there) all
    exact ⟨k, List.mem_flatMap.mpr ⟨j, hj, hk⟩, shown⟩
  | group index p ih =>
    obtain ⟨u, hu, rfl⟩ := List.mem_map.mp mem
    rw [State.leave_rest]
    exact ih hu h

/-- Where a sketch leaves a pattern nothing, no text of the sketch begins with a match. -/
theorem matchAt_eq_none_of_reach {p : Pattern} {i : Sketch} {rest : List Char} (h : Shows i rest)
    (nothing : p.reach i = []) (before : Option Char) : p.matchAt before rest = none := by
  unfold matchAt
  cases hends : p.ends 0 (State.start before rest) with
  | nil => rfl
  | cons t ts =>
    obtain ⟨j, hj, -⟩ :=
      exists_reach (hends ▸ List.mem_cons_self : t ∈ p.ends 0 (State.start before rest)) h
    rw [nothing] at hj
    cases hj

/-- Whether a text of the sketch may have a match. -/
def mayMatch (p : Pattern) (i : Sketch) : Bool :=
  (Sketch.run (.compl .none) i).any fun j => !(p.reach j).isEmpty

/-- A pattern that finds nothing in a sketch matches none of its texts. -/
theorem isMatch_eq_false_of_sketch {p : Pattern} {i : Sketch} {text : List Char} (h : Shows i text)
    (never : p.mayMatch i = false) : p.isMatch text = false := by
  refine Bool.eq_false_iff.mpr fun found => ?_
  obtain ⟨u, v, rfl, here⟩ := isMatch_iff.mp found
  obtain ⟨j, hj, rest⟩ := Sketch.exists_rest h
  have somewhere : p.reach j ≠ [] := by
    intro nothing
    rw [matchAt_eq_none_of_reach rest nothing] at here
    cases here
  have may : p.mayMatch i = true := List.any_eq_true.mpr ⟨j, hj, by simpa using somewhere⟩
  exact Bool.false_ne_true (never.symm.trans may)

end Pattern

end Polyglot
