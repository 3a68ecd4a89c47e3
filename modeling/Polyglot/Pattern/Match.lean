import Polyglot.Pattern.Basic

/-!
Matching at one place of a text. `Pattern.ends` lists all ways to match, the preferred first.

Every alternative and every loop of a pattern is a fork. The forks are numbered from the end of the
pattern to its start, those inside an alternative or a loop before it, and a match notes the numbers
of those that it has passed at its present place. It never passes one of them again before it has
consumed a character: such a way would only come back to where it was. Loops end for this reason,
whatever their body matches.
-/

namespace Polyglot

/-- A remembered text: its first `length` characters of `rest`. -/
structure Capture where
  rest : List Char
  length : Nat
  deriving DecidableEq, Repr

def Capture.text (c : Capture) : List Char :=
  c.rest.take c.length

/-- A place in a text during a match. -/
structure State where
  /-- The character before the place, none at the start of the text. -/
  before : Option Char
  rest : List Char
  /-- How many characters the match has consumed. -/
  count : Nat
  /-- The forks passed since the last character was consumed. -/
  passed : List Nat
  /-- Where the groups start that the place lies in, the innermost first. -/
  opened : List (List Char × Nat)
  /-- The groups completed so far, the latest first. -/
  groups : List (Nat × Capture)
  deriving DecidableEq, Repr

namespace State

def start (before : Option Char) (rest : List Char) : State :=
  ⟨before, rest, 0, [], [], []⟩

/-- The place behind one more character. -/
def next (s : State) (c : Char) (rest : List Char) : State :=
  { s with before := some c, rest := rest, count := s.count + 1, passed := [] }

/-- Passes a fork, unless it has been passed at this place. -/
def pass? (s : State) (fork : Nat) : Option State :=
  if s.passed.contains fork then none else some { s with passed := fork :: s.passed }

def enter (s : State) : State :=
  { s with opened := (s.rest, s.count) :: s.opened }

/-- Completes the innermost group. -/
def leave (s : State) (index : Nat) : State :=
  match s.opened with
  | [] => s
  | (rest, count) :: opened =>
    { s with opened := opened, groups := (index, ⟨rest, s.count - count⟩) :: s.groups }

end State

theorem State.leave_rest (s : State) (index : Nat) : (s.leave index).rest = s.rest := by
  unfold State.leave
  split <;> rfl

/-- The later place lies behind the earlier one by as many characters as were counted, and in the
same groups. Without a character between them, no passed fork is forgotten. -/
def State.Reaches (s t : State) : Prop :=
  ∃ w, s.rest = w ++ t.rest ∧ t.count = s.count + w.length ∧ t.opened = s.opened ∧
    t.before = w.getLast?.or s.before ∧ (w = [] → s.passed ⊆ t.passed)

theorem State.Reaches.refl (s : State) : s.Reaches s :=
  ⟨[], rfl, rfl, rfl, rfl, fun _ => List.Subset.refl _⟩

theorem State.Reaches.trans {s t u : State} (first : s.Reaches t) (second : t.Reaches u) :
    s.Reaches u := by
  obtain ⟨v, hv, hcv, hov, hbv, hpv⟩ := first
  obtain ⟨w, hw, hcw, how, hbw, hpw⟩ := second
  refine ⟨v ++ w, by rw [hv, hw, List.append_assoc], ?_, how.trans hov, ?_, fun none => ?_⟩
  · rw [hcw, hcv, List.length_append, Nat.add_assoc]
  · rw [hbw, hbv, List.getLast?_append, Option.or_assoc]
  · obtain ⟨hv, hw⟩ := List.append_eq_nil_iff.mp none
    exact List.Subset.trans (hpv hv) (hpw hw)

theorem State.Reaches.length_le {s t : State} (h : s.Reaches t) :
    t.rest.length ≤ s.rest.length := by
  obtain ⟨w, hw, _⟩ := h
  simp [hw]

/-- A place that is no further than another has all forks passed that the other has. -/
theorem State.Reaches.passed {s t : State} (h : s.Reaches t)
    (same : s.rest.length ≤ t.rest.length) : s.passed ⊆ t.passed := by
  obtain ⟨w, hw, _, _, _, keep⟩ := h
  refine keep (List.eq_nil_of_length_eq_zero ?_)
  rw [hw, List.length_append] at same
  omega

theorem State.Reaches.next (s : State) {c : Char} {rest : List Char} (h : s.rest = c :: rest) :
    s.Reaches (s.next c rest) :=
  ⟨[c], h, rfl, rfl, rfl, fun none => by cases none⟩

theorem State.pass?_eq_some {s t : State} {fork : Nat} :
    s.pass? fork = some t ↔ fork ∉ s.passed ∧ t = { s with passed := fork :: s.passed } := by
  unfold State.pass?
  split <;> simp_all [eq_comm]

theorem State.pass?_eq_none {s : State} {fork : Nat} :
    s.pass? fork = none ↔ fork ∈ s.passed := by
  simp [State.pass?]

theorem State.Reaches.pass {s t : State} {fork : Nat} (h : s.pass? fork = some t) :
    s.Reaches t := by
  rw [(State.pass?_eq_some.mp h).2]
  exact ⟨[], rfl, rfl, rfl, rfl, fun _ => List.subset_cons_self _ _⟩

theorem State.Reaches.group {s t : State} (index : Nat) (h : s.enter.Reaches t) :
    s.Reaches (t.leave index) := by
  obtain ⟨w, hw, hc, ho, hb, hp⟩ := h
  have opened : t.opened = (s.rest, s.count) :: s.opened := ho
  unfold State.leave
  rw [opened]
  exact ⟨w, hw, hc, rfl, hb, hp⟩

/-- Whether the test holds between two characters that are in words or not. -/
def WordTest.holds (test : WordTest) (before after : Bool) : Bool :=
  match test with
  | edge => before != after
  | inside => before == after
  | start => !before && after
  | finish => before && !after
  | startHalf => !before
  | finishHalf => !after

def Look.holds (l : Look) (before : Option Char) (rest : List Char) : Bool :=
  let after := rest.head?
  match l with
  | textStart => before.isNone
  | textEnd => after.isNone
  | lineStart => before.isNone || before == some '\n'
  | lineEnd => after.isNone || after == some '\n'
  | returnStart =>
    before.isNone || before == some '\n' || (before == some '\r' && after != some '\n')
  | returnEnd => after.isNone || after == some '\r' || (after == some '\n' && before != some '\r')
  | word test ascii =>
    let isWord := if ascii then Text.isAsciiWord else Text.isWord
    test.holds (before.any isWord) (after.any isWord)

namespace Pattern

/-- The number of forks. -/
def forks : Pattern → Nat
  | empty => 0
  | char _ => 0
  | look _ => 0
  | seq p q => forks p + forks q
  | alt p q => forks p + forks q + 1
  | star _ p => forks p + 1
  | plus _ p => forks p + 1
  | group _ p => forks p

/-- The ways out of a loop before its next iteration. The fuel bounds the iterations. -/
def rounds (greedy : Bool) (fork : Nat) (step : State → List State) : Nat → State → List State
  | 0, _ => []
  | fuel + 1, s =>
    match s.pass? fork with
    | none => []
    | some t =>
      let further := (step t).flatMap (rounds greedy fork step fuel)
      if greedy then further ++ [t] else t :: further

/-- Every iteration but the first consumes a character, so the rest of the text bounds them. -/
def loop (greedy : Bool) (fork : Nat) (step : State → List State) (s : State) : List State :=
  rounds greedy fork step (s.rest.length + 1) s

/-- All places where a match from `s` may end, the preferred first. The forks are numbered from `n`
on. -/
def ends (n : Nat) : Pattern → State → List State
  | empty, s => [s]
  | char set, s =>
    match s.rest with
    | [] => []
    | c :: rest => if set.has c then [s.next c rest] else []
  | look test, s => if test.holds s.before s.rest then [s] else []
  | seq p q, s => (ends (n + q.forks) p s).flatMap (ends n q)
  | alt p q, s =>
    match s.pass? (n + p.forks + q.forks) with
    | none => []
    | some t => ends n p t ++ ends (n + p.forks) q t
  | star greedy p, s => loop greedy (n + p.forks) (ends n p) s
  | plus greedy p, s => (ends n p s).flatMap (loop greedy (n + p.forks) (ends n p))
  | group index p, s => (ends n p s.enter).map (·.leave index)

/-- Functions that agree on a list are mapped over it with one result. -/
theorem flatMap_eq_of_forall {α β : Type} {f g : α → List β} {l : List α}
    (h : ∀ a ∈ l, f a = g a) : l.flatMap f = l.flatMap g := by
  rw [List.flatMap_def, List.flatMap_def, List.map_congr_left h]

section Loops

variable {greedy : Bool} {fork : Nat} {step : State → List State}

theorem reaches_of_mem_rounds (h : ∀ s t, t ∈ step s → s.Reaches t) {fuel : Nat} {s t : State}
    (mem : t ∈ rounds greedy fork step fuel s) : s.Reaches t := by
  induction fuel generalizing s with
  | zero => cases mem
  | succ fuel ih =>
    unfold rounds at mem
    split at mem
    · cases mem
    · next u hu =>
      have cases : t = u ∨ ∃ v ∈ step u, t ∈ rounds greedy fork step fuel v := by
        cases greedy <;> simp at mem <;> grind
      rcases cases with now | ⟨v, hv, hvt⟩
      · exact now ▸ .pass hu
      · exact ((State.Reaches.pass hu).trans (h u v hv)).trans (ih hvt)

/-- Behind its fork a loop has nothing more to do. -/
theorem rounds_of_mem_passed {s : State} (h : fork ∈ s.passed) (fuel : Nat) :
    rounds greedy fork step fuel s = [] := by
  cases fuel with
  | zero => rfl
  | succ fuel => simp [rounds, State.pass?_eq_none.mpr h]

/-- An iteration that consumes nothing ends behind the fork. -/
theorem mem_passed_of_step (h : ∀ s t, t ∈ step s → s.Reaches t) {s t u : State}
    (passed : s.pass? fork = some t) (mem : u ∈ step t) (still : ¬u.rest.length < s.rest.length) :
    fork ∈ u.passed := by
  have shorter := (State.Reaches.pass passed).length_le
  refine (h t u mem).passed (by omega) ?_
  rw [(State.pass?_eq_some.mp passed).2]
  exact List.mem_cons_self

/-- Fuel beyond the rest of the text changes nothing. -/
theorem rounds_eq_rounds (h : ∀ s t, t ∈ step s → s.Reaches t) {a b : Nat} {s : State}
    (ha : s.rest.length < a) (hb : s.rest.length < b) :
    rounds greedy fork step a s = rounds greedy fork step b s := by
  induction a generalizing b s with
  | zero => exact absurd ha (Nat.not_lt_zero _)
  | succ a ih =>
    cases b with
    | zero => exact absurd hb (Nat.not_lt_zero _)
    | succ b =>
      unfold rounds
      split
      · rfl
      · next t ht =>
        have same : (step t).flatMap (rounds greedy fork step a) =
            (step t).flatMap (rounds greedy fork step b) := by
          refine flatMap_eq_of_forall fun u hu => ?_
          have reached := (State.Reaches.pass ht).trans (h t u hu)
          by_cases consumed : u.rest.length < s.rest.length
          · exact ih (by omega) (by omega)
          · have inside := mem_passed_of_step h ht hu consumed
            rw [rounds_of_mem_passed inside, rounds_of_mem_passed inside]
        simp only [same]

/-- A loop passes its fork, and then either makes an iteration and goes on or ends. -/
theorem loop_eq (h : ∀ s t, t ∈ step s → s.Reaches t) (s : State) :
    loop greedy fork step s =
      match s.pass? fork with
      | none => []
      | some t =>
        if greedy then (step t).flatMap (loop greedy fork step) ++ [t]
        else t :: (step t).flatMap (loop greedy fork step) := by
  unfold loop
  rw [rounds]
  cases ht : s.pass? fork with
  | none => rfl
  | some t =>
    have same : (step t).flatMap (rounds greedy fork step s.rest.length) =
        (step t).flatMap fun u => rounds greedy fork step (u.rest.length + 1) u := by
      refine flatMap_eq_of_forall fun u hu => ?_
      by_cases consumed : u.rest.length < s.rest.length
      · exact rounds_eq_rounds h consumed (Nat.lt_succ_self _)
      · have inside := mem_passed_of_step h ht hu consumed
        rw [rounds_of_mem_passed inside, rounds_of_mem_passed inside]
    simp only [same]

end Loops

/-- A match consumes a part of the text right behind the place where it starts. -/
theorem reaches_of_mem_ends {n : Nat} {p : Pattern} {s t : State} (mem : t ∈ p.ends n s) :
    s.Reaches t := by
  induction p generalizing n s t with
  | empty => rw [List.mem_singleton.mp mem]; exact .refl s
  | char set =>
    simp only [ends] at mem
    split at mem
    · cases mem
    · next c rest hrest =>
      split at mem
      · rw [List.mem_singleton.mp mem]
        exact .next s hrest
      · cases mem
  | look test =>
    simp only [ends] at mem
    split at mem
    · rw [List.mem_singleton.mp mem]; exact .refl s
    · cases mem
  | seq p q ihp ihq =>
    obtain ⟨u, hu, hut⟩ := List.mem_flatMap.mp mem
    exact (ihp hu).trans (ihq hut)
  | alt p q ihp ihq =>
    simp only [ends] at mem
    split at mem
    · cases mem
    · next u hu =>
      exact (State.Reaches.pass hu).trans ((List.mem_append.mp mem).elim ihp ihq)
  | star greedy p ih => exact reaches_of_mem_rounds (fun s t => ih) mem
  | plus greedy p ih =>
    obtain ⟨u, hu, hut⟩ := List.mem_flatMap.mp mem
    exact (ih hu).trans (reaches_of_mem_rounds (fun s t => ih) hut)
  | group index p ih =>
    obtain ⟨u, hu, rfl⟩ := List.mem_map.mp mem
    exact .group index (ih hu)

end Pattern

end Polyglot
