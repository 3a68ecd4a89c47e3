import Polyglot.Pattern.Marks

/-!
Searching the graph of a pattern. A fork that has been passed at a place without success has none
later either, so the search marks the forks and goes on only from those without a mark. Hence its
work is bounded by forks times places, also when a text is searched for match after match: behind
the end of a match all marks stay good. `explore_start` says that the preferred match is found all
the same.
-/

namespace Polyglot

/-- Follows the branches from the top of a stack until one of them is complete. The place of a state
in the text is its count behind `offset`. -/
def explore (table : Forks) (offset : Nat) :
    Nat → List (Branch × State) → Marks → Option State × Marks
  | 0, _, marks => (none, marks)
  | _ + 1, [], marks => (none, marks)
  | fuel + 1, (branch, s) :: stack, marks =>
    match s.walk branch.steps with
    | none => explore table offset fuel stack marks
    | some t =>
      match branch.fork with
      | none => (some t, marks)
      | some fork =>
        let place := offset + t.count
        if marks.has fork place then explore table offset fuel stack marks
        else
          match table[fork]? with
          | none => explore table offset fuel stack marks
          | some (first, second) =>
            explore table offset fuel ((first, t) :: (second, t) :: stack) (marks.add fork place)

namespace State

/-- A search has its marks in place of the passed forks. -/
def forget (s : State) : State :=
  { s with passed := [] }

theorem walk_forget (steps : List Step) (s : State) :
    s.forget.walk steps = (s.walk steps).map forget := by
  induction steps generalizing s with
  | nil => rfl
  | cons step steps ih =>
    obtain ⟨before, rest, count, passed, opened, groups⟩ := s
    cases step with
    | char set =>
      cases rest with
      | nil => rfl
      | cons c rest =>
        simp only [walk, forget]
        split
        · exact ih ⟨some c, rest, count + 1, [], opened, groups⟩
        · rfl
    | look test =>
      have further := ih ⟨before, rest, count, passed, opened, groups⟩
      cases holds : test.holds before rest <;> simp_all [walk, forget]
    | enter => exact ih (enter _)
    | leave index =>
      cases opened with
      | nil => exact ih _
      | cons first opened =>
        exact ih (leave ⟨before, rest, count, passed, first :: opened, groups⟩ index)

/-- Without a character between them, a step passes no fork; with one, none is left. -/
theorem walk_eq_some {steps : List Step} {s t : State} (h : s.walk steps = some t) :
    ∃ w, s.rest = w ++ t.rest ∧ t.count = s.count + w.length ∧
      t.before = w.getLast?.or s.before ∧ t.passed = if w = [] then s.passed else [] := by
  induction steps generalizing s with
  | nil =>
    cases h
    exact ⟨[], rfl, rfl, rfl, rfl⟩
  | cons step steps ih =>
    cases step with
    | char set =>
      simp only [walk] at h
      split at h
      · cases h
      · next c rest hrest =>
        split at h
        · obtain ⟨w, hw, count, before, passed⟩ := ih h
          refine ⟨c :: w, by rw [hrest]; exact congrArg (c :: ·) hw, ?_, ?_, ?_⟩
          · rw [count, List.length_cons, Nat.add_comm w.length, ← Nat.add_assoc]
            rfl
          · rw [before, List.getLast?_cons]
            cases w.getLast? <;> rfl
          · rw [passed, if_neg (List.cons_ne_nil _ _)]
            exact ite_self _
        · cases h
    | look test =>
      simp only [walk] at h
      split at h
      · exact ih h
      · cases h
    | enter => exact ih (s := s.enter) h
    | leave index =>
      have same : (s.leave index).rest = s.rest ∧ (s.leave index).count = s.count ∧
          (s.leave index).before = s.before ∧ (s.leave index).passed = s.passed := by
        unfold leave
        split <;> simp
      have := ih (s := s.leave index) h
      rwa [same.1, same.2.1, same.2.2.1, same.2.2.2] at this

/-- Where steps lead depends only on the place. -/
theorem walk_rest {steps : List Step} {s t : State} (rest : s.rest = t.rest)
    (before : s.before = t.before) :
    (s.walk steps).map State.rest = (t.walk steps).map State.rest := by
  induction steps generalizing s t with
  | nil => simp [walk, rest]
  | cons step steps ih =>
    cases step with
    | char set =>
      simp only [walk, rest]
      split
      · rfl
      · split
        · exact ih rfl rfl
        · rfl
    | look test =>
      simp only [walk, rest, before]
      split
      · exact ih rest before
      · rfl
    | enter => exact ih rest before
    | leave index =>
      refine ih ?_ ?_
      · rw [leave_rest, leave_rest, rest]
      · have (s : State) : (s.leave index).before = s.before := by
          unfold leave
          split <;> rfl
        rw [this, this, before]

/-- A place of the text that starts at `o`. -/
def Within (o s : State) : Prop :=
  ∃ w, o.rest = w ++ s.rest ∧ s.before = w.getLast?.or o.before

/-- How far a place is behind `o`. -/
def distance (o s : State) : Nat :=
  o.rest.length - s.rest.length

theorem Within.length_le {o s : State} (h : Within o s) : s.rest.length ≤ o.rest.length := by
  obtain ⟨w, hw, _⟩ := h
  simp [hw]

theorem Within.walk {o s t : State} {steps : List Step} (h : Within o s)
    (along : s.walk steps = some t) : Within o t := by
  obtain ⟨v, hv, hb⟩ := h
  obtain ⟨w, hw, _, before, _⟩ := walk_eq_some along
  refine ⟨v ++ w, by rw [hv, hw, List.append_assoc], ?_⟩
  rw [before, hb, List.getLast?_append, Option.or_assoc]

/-- At one distance there is one place. -/
theorem Within.unique {o s t : State} (hs : Within o s) (ht : Within o t)
    (same : distance o s = distance o t) : s.rest = t.rest ∧ s.before = t.before := by
  have ls := hs.length_le
  have lt := ht.length_le
  obtain ⟨v, hv, hb⟩ := hs
  obtain ⟨w, hw, hc⟩ := ht
  have lengths : v.length = w.length := by
    have lv := congrArg List.length hv
    have lw := congrArg List.length hw
    simp only [List.length_append] at lv lw
    unfold distance at same
    omega
  obtain ⟨same, rest⟩ := List.append_inj (hv.symm.trans hw) lengths
  exact ⟨rest, by rw [hb, hc, same]⟩

end State

open State (Within distance)

section Settled

variable {table : Forks} {o : State}

/-- The branch does not come to an end before a marked fork. -/
def Marks.Stops (m : Marks) (o : State) (b : Branch) (s : State) : Prop :=
  ∀ t, s.walk b.steps = some t → ∃ fork, b.fork = some fork ∧ m.has fork (distance o t) = true

/-- Both branches from a fork at a place stop. -/
def Marks.Closed (m : Marks) (table : Forks) (o : State) (fork place : Nat) : Prop :=
  ∃ first second, table[fork]? = some (first, second) ∧
    ∀ s, Within o s → distance o s = place → m.Stops o first s ∧ m.Stops o second s

/-- All marks from a place on are closed, those apart that were passed on the way to it. -/
def Marks.Settled (m : Marks) (table : Forks) (o s : State) : Prop :=
  ∀ fork place, m.has fork place = true → distance o s ≤ place →
    (place = distance o s → fork ∉ s.passed) → m.Closed table o fork place

/-- The marks of `m` are marks of `m'`. -/
def Marks.Le (m m' : Marks) : Prop :=
  ∀ fork place, m.has fork place = true → m'.has fork place = true

theorem Marks.Stops.mono {m m' : Marks} {b : Branch} {s : State} (le : m.Le m')
    (h : m.Stops o b s) : m'.Stops o b s := fun t ht => by
  obtain ⟨fork, hfork, has⟩ := h t ht
  exact ⟨fork, hfork, le _ _ has⟩

theorem Marks.Closed.mono {m m' : Marks} {fork place : Nat} (le : m.Le m')
    (h : m.Closed table o fork place) : m'.Closed table o fork place := by
  obtain ⟨first, second, both, stops⟩ := h
  exact ⟨first, second, both, fun s within here =>
    ⟨(stops s within here).1.mono le, (stops s within here).2.mono le⟩⟩

theorem Marks.Stops.of_same {m : Marks} {b : Branch} {s t : State} (hs : Within o s)
    (ht : Within o t) (same : distance o s = distance o t) (h : m.Stops o b s) :
    m.Stops o b t := by
  obtain ⟨rest, before⟩ := hs.unique ht same
  intro v hv
  have walks : (s.walk b.steps).map _ = _ := State.walk_rest rest before
  rw [hv] at walks
  obtain ⟨u, hu, rests⟩ := Option.map_eq_some_iff.mp walks
  obtain ⟨fork, hfork, has⟩ := h u hu
  refine ⟨fork, hfork, ?_⟩
  rwa [distance, ← rests]

/-- What is settled at a place is settled further on. -/
theorem Marks.Settled.walk {m : Marks} {s t : State} {steps : List Step} (within : Within o s)
    (h : m.Settled table o s) (along : s.walk steps = some t) : m.Settled table o t := by
  have later := (within.walk along).length_le
  have earlier := within.length_le
  obtain ⟨w, hw, _, _, passed⟩ := State.walk_eq_some along
  have length := congrArg List.length hw
  rw [List.length_append] at length
  intro fork place has le free
  refine h fork place has ?_ fun here => ?_
  · unfold distance at le ⊢
    omega
  · have none : w = [] := by
      refine List.eq_nil_of_length_eq_zero ?_
      unfold distance at le here
      omega
    subst none
    rw [if_pos rfl] at passed
    rw [← passed]
    refine free ?_
    simp only [List.length_nil, Nat.zero_add] at length
    rw [here, distance, distance, length]

theorem Marks.Settled.pass {m : Marks} {s t : State} {fork : Nat} (h : m.Settled table o s)
    (pass : s.pass? fork = some t) : m.Settled table o t := by
  rw [(State.pass?_eq_some.mp pass).2]
  exact fun other place has le free => h other place has le fun here inside =>
    free here (List.mem_cons_of_mem _ inside)

/-- A branch that stops has no match. -/
theorem Explores.eq_nil {m : Marks} {b : Branch} {s : State} {l : List State}
    (h : Explores table b s l) (within : Within o s) (settled : m.Settled table o s)
    (stops : m.Stops o b s) : l = [] := by
  induction h with
  | stuck => rfl
  | done along complete =>
    obtain ⟨fork, hfork, _⟩ := stops _ along
    rw [complete] at hfork
    cases hfork
  | passed => rfl
  | @fork b first second s t u fork l l' along next pass both explores explores' ih ih' =>
    obtain ⟨fork', hfork', has⟩ := stops _ along
    cases next.symm.trans hfork'
    have arrived := within.walk along
    have later := settled.walk within along
    obtain ⟨free, passing⟩ := State.pass?_eq_some.mp pass
    obtain ⟨first', second', both', closed⟩ := later fork _ has (Nat.le_refl _) fun _ => free
    cases both.symm.trans both'
    have there : Within o u := by rw [passing]; exact arrived
    obtain ⟨stop, stop'⟩ := closed u there (by rw [passing]; rfl)
    rw [ih there (later.pass pass) stop, ih' there (later.pass pass) stop', List.append_nil]

/-- All marks from a place on are closed. -/
def Marks.ClosedFrom (m : Marks) (table : Forks) (o : State) (place : Nat) : Prop :=
  ∀ fork other, m.has fork other = true → place ≤ other → m.Closed table o fork other

/-- What becomes of a branch on top of the stack: either its preferred match is found, or the rest
of the stack is explored with more marks. -/
inductive Explored (table : Forks) (o : State) (offset : Nat) (m : Marks) (b : Branch) (s : State) :
    List State → Prop where
  | found {t : State} {l : List State} (cost : Nat) (m' : Marks)
      (bound : cost ≤ 1 + 2 * m.room table.size o.rest.length)
      (within : Within o t)
      (count : offset + t.count = distance o t)
      (closed : m'.ClosedFrom table o (distance o t + 1))
      (run : ∀ fuel stack, cost ≤ fuel →
        explore table offset fuel ((b, s.forget) :: stack) m = (some t.forget, m')) :
      Explored table o offset m b s (t :: l)
  | exhausted (cost : Nat) (m' : Marks)
      (bound : cost + 2 * m'.room table.size o.rest.length ≤
        1 + 2 * m.room table.size o.rest.length)
      (le : m.Le m')
      (new : ∀ fork place, m'.has fork place = true →
        m.has fork place = true ∨ distance o s ≤ place)
      (settled : m'.Settled table o s)
      (stops : m'.Stops o b s)
      (run : ∀ fuel stack, explore table offset (fuel + cost) ((b, s.forget) :: stack) m =
        explore table offset fuel stack m') :
      Explored table o offset m b s []

/-- A branch without a match that is left at once. -/
theorem Explored.atOnce {offset : Nat} {m : Marks} {b : Branch} {s : State}
    (settled : m.Settled table o s) (stops : m.Stops o b s)
    (run : ∀ fuel stack, explore table offset (fuel + 1) ((b, s.forget) :: stack) m =
      explore table offset fuel stack m) : Explored table o offset m b s [] :=
  .exhausted 1 m (Nat.le_refl _) (fun _ _ => id) (fun _ _ => .inl) settled stops run

theorem distance_walk {s t : State} {steps : List Step} (within : Within o s)
    (along : s.walk steps = some t) : distance o s ≤ distance o t := by
  have := within.length_le
  obtain ⟨w, hw, _⟩ := State.walk_eq_some along
  have length := congrArg List.length hw
  rw [List.length_append] at length
  unfold distance
  omega

theorem place_walk {offset : Nat} {s t : State} {steps : List Step} (within : Within o s)
    (along : s.walk steps = some t) (count : offset + s.count = distance o s) :
    offset + t.count = distance o t := by
  have earlier := within.length_le
  obtain ⟨w, hw, counted, _⟩ := State.walk_eq_some along
  have length := congrArg List.length hw
  rw [List.length_append] at length
  unfold distance at count ⊢
  omega

theorem passed_walk {m : Marks} {s t : State} {steps : List Step}
    (along : s.walk steps = some t)
    (passed : ∀ fork ∈ s.passed, m.has fork (distance o s) = true) :
    ∀ fork ∈ t.passed, m.has fork (distance o t) = true := by
  obtain ⟨w, hw, _, _, keep⟩ := State.walk_eq_some along
  intro fork inside
  split at keep
  · next none =>
    subst none
    rw [keep] at inside
    rw [distance, ← List.nil_append t.rest, ← hw]
    exact passed fork inside
  · rw [keep] at inside
    cases inside

theorem explore_of_has {offset : Nat} {m : Marks} {b : Branch} {s t : State} {fork : Nat}
    (along : s.walk b.steps = some t) (next : b.fork = some fork)
    (place : offset + t.count = distance o t) (has : m.has fork (distance o t) = true)
    (fuel : Nat) (stack : List (Branch × State)) :
    explore table offset (fuel + 1) ((b, s.forget) :: stack) m =
      explore table offset fuel stack m := by
  have place : offset + t.forget.count = distance o t := place
  simp [explore, State.walk_forget, along, next, place, has]

/-- At a fork without a mark both branches are explored, the second with the marks of the first. -/
theorem explored_fork {offset : Nat} {m : Marks} {b first second : Branch} {s t u : State}
    {fork : Nat} {l l' : List State} (within : Within o s)
    (count : offset + s.count = distance o s) (settled : m.Settled table o s)
    (passed : ∀ fork ∈ s.passed, m.has fork (distance o s) = true)
    (along : s.walk b.steps = some t) (next : b.fork = some fork) (pass : t.pass? fork = some u)
    (both : table[fork]? = some (first, second)) (free : ¬ m.has fork (distance o t) = true)
    (ih : ∀ m : Marks, Within o u → offset + u.count = distance o u → m.Settled table o u →
      (∀ fork ∈ u.passed, m.has fork (distance o u) = true) →
      Explored table o offset m first u l)
    (ih' : ∀ m : Marks, Within o u → offset + u.count = distance o u → m.Settled table o u →
      (∀ fork ∈ u.passed, m.has fork (distance o u) = true) →
      Explored table o offset m second u l') :
    Explored table o offset m b s (l ++ l') := by
  have place := place_walk within along count
  have arrived := within.walk along
  have later := settled.walk within along
  have marked := passed_walk along passed
  obtain ⟨new, rfl⟩ := State.pass?_eq_some.mp pass
  have room : (m.add fork (distance o t)).room table.size o.rest.length <
      m.room table.size o.rest.length :=
    Marks.room_add (by simpa using free) (Array.getElem?_eq_some_iff.mp both).1 (Nat.sub_le _ _)
  have run (fuel : Nat) (stack : List (Branch × State)) :
      explore table offset (fuel + 1) ((b, s.forget) :: stack) m =
        explore table offset fuel ((first, t.forget) :: (second, t.forget) :: stack)
          (m.add fork (distance o t)) := by
    have place : offset + t.forget.count = distance o t := place
    simp [explore, State.walk_forget, along, next, place, free, both]
  have settled₁ : (m.add fork (distance o t)).Settled table o
      { t with passed := fork :: t.passed } := by
    intro other place has le apart
    rw [Marks.has_add, Bool.or_eq_true, Bool.and_eq_true, beq_iff_eq, beq_iff_eq] at has
    rcases has with old | ⟨rfl, rfl⟩
    · refine (later other place old le fun here inside => ?_).mono fun _ _ has =>
        Marks.has_add_of_has has _ _
      exact apart here (List.mem_cons_of_mem _ inside)
    · exact absurd List.mem_cons_self (apart rfl)
  have passed₁ : ∀ other ∈ fork :: t.passed,
      (m.add fork (distance o t)).has other (distance o t) = true := by
    intro other inside
    rcases List.mem_cons.mp inside with rfl | old
    · exact Marks.has_add_self _ _ _
    · exact Marks.has_add_of_has (marked other old) _ _
  cases ih _ arrived place settled₁ passed₁ with
  | found cost m' bound there counted closed found =>
    refine .found (cost + 1) m' (by omega) there counted closed fun fuel stack enough => ?_
    obtain ⟨fuel, rfl⟩ := Nat.exists_eq_add_of_le' (Nat.le_trans (Nat.le_add_left 1 cost) enough)
    rw [run]
    exact found fuel _ (by omega)
  | exhausted cost m₂ bound le new₂ settled₂ stops₂ run₂ =>
    cases ih' m₂ arrived place settled₂ fun other inside => le _ _ (passed₁ other inside) with
    | found cost' m' bound' there counted closed found =>
      refine .found (cost' + cost + 1) m' (by omega) there counted closed
        fun fuel stack enough => ?_
      obtain ⟨fuel, rfl⟩ := Nat.exists_eq_add_of_le' enough
      have : fuel + (cost' + cost + 1) = fuel + cost' + cost + 1 := by omega
      rw [this, run]
      refine (run₂ (fuel + cost') _).trans ?_
      exact found _ _ (Nat.le_add_left _ _)
    | exhausted cost' m₃ bound' le' new₃ settled₃ stops₃ run₃ =>
      have onward := distance_walk within along
      have old {other place : Nat} (has : m₃.has other place = true) :
          m.has other place = true ∨ distance o t ≤ place := by
        rcases new₃ _ _ has with has | behind
        · rcases new₂ _ _ has with has | behind
          · rw [Marks.has_add, Bool.or_eq_true, Bool.and_eq_true, beq_iff_eq, beq_iff_eq] at has
            exact has.imp id fun same => Nat.le_of_eq same.2.symm
          · exact .inr behind
        · exact .inr behind
      have all : m.Le m₃ := fun _ _ has => le' _ _ (le _ _ (Marks.has_add_of_has has _ _))
      have own : m₃.has fork (distance o t) = true := le' _ _ (le _ _ (Marks.has_add_self _ _ _))
      refine .exhausted (cost' + cost + 1) m₃ (by omega) all
        (fun _ _ has => (old has).imp id (Nat.le_trans onward)) ?_ ?_ fun fuel stack => ?_
      · intro other place has behind apart
        by_cases same : other = fork ∧ place = distance o t
        · obtain ⟨rfl, rfl⟩ := same
          exact ⟨first, second, both, fun v there here =>
            ⟨(stops₂.mono le').of_same (s := { t with passed := other :: t.passed }) arrived there
              here.symm,
            stops₃.of_same (s := { t with passed := other :: t.passed }) arrived there here.symm⟩⟩
        · by_cases further : distance o t ≤ place
          · refine settled₃ other place has further fun here inside => ?_
            rcases List.mem_cons.mp inside with rfl | inside
            · exact same ⟨rfl, here⟩
            · obtain ⟨w, hw, _, _, keep⟩ := State.walk_eq_some along
              split at keep
              · next none =>
                subst none
                rw [keep] at inside
                refine apart ?_ inside
                rw [here, distance, distance, hw]
                rfl
              · rw [keep] at inside
                cases inside
          · rcases old has with has | behind'
            · exact (settled other place has behind apart).mono all
            · exact absurd behind' further
      · intro v hv
        cases along.symm.trans hv
        exact ⟨fork, next, own⟩
      · have : fuel + (cost' + cost + 1) = fuel + cost' + cost + 1 := by omega
        rw [this, run]
        exact (run₂ (fuel + cost') _).trans (run₃ fuel stack)

theorem explored_of_explores {offset : Nat} {m : Marks} {b : Branch} {s : State} {l : List State}
    (h : Explores table b s l) (within : Within o s) (count : offset + s.count = distance o s)
    (settled : m.Settled table o s)
    (passed : ∀ fork ∈ s.passed, m.has fork (distance o s) = true) :
    Explored table o offset m b s l := by
  induction h generalizing m with
  | stuck stuck =>
    refine .atOnce settled (fun t ht => by simp [stuck] at ht) fun fuel stack => ?_
    simp [explore, State.walk_forget, stuck]
  | @done b s t along complete =>
    have onward := distance_walk within along
    refine .found 1 m (by omega) (within.walk along) (place_walk within along count)
      (fun fork other has le => settled fork other has (by omega) fun same => by omega)
      fun fuel stack enough => ?_
    obtain ⟨fuel, rfl⟩ := Nat.exists_eq_add_of_le' enough
    simp [explore, State.walk_forget, along, complete]
  | @passed b s t fork along next blocked =>
    have inside := State.pass?_eq_none.mp blocked
    have marked := passed_walk along passed fork inside
    have place := place_walk within along count
    refine .atOnce settled (fun v hv => ?_) (explore_of_has along next place marked)
    cases along.symm.trans hv
    exact ⟨fork, next, marked⟩
  | @fork b first second s t u fork l l' along next pass both explores explores' ih ih' =>
    have place := place_walk within along count
    by_cases marked : m.has fork (distance o t) = true
    · have stops : m.Stops o b s := fun v hv => by
        cases along.symm.trans hv
        exact ⟨fork, next, marked⟩
      have none :=
        (Explores.fork along next pass both explores explores').eq_nil within settled stops
      rw [none]
      exact .atOnce settled stops (explore_of_has along next place marked)
    · exact explored_fork within count settled passed along next pass both marked
        (fun m => ih (m := m)) (fun m => ih' (m := m))

/-- The marks are good for a search in the text at `s`, which is `offset` characters behind its
start, once `skip` more characters are passed over. -/
def Marks.Ready (m : Marks) (table : Forks) (offset skip length : Nat) (s : State) : Prop :=
  ∃ o, Within o s ∧ offset = distance o s ∧ o.rest.length ≤ length ∧
    m.ClosedFrom table o (offset + skip)

theorem Marks.ready_none {length : Nat} {s : State} (h : s.rest.length ≤ length) :
    Marks.none.Ready table 0 0 length s :=
  ⟨s, ⟨[], rfl, rfl⟩, (Nat.sub_self _).symm, h, fun fork place has => by
    simp [Marks.not_has_none] at has⟩

theorem Marks.Ready.next {m : Marks} {offset skip skip' length : Nat} {before : Option Char}
    {c : Char} {rest : List Char} (h : m.Ready table offset skip length (.start before (c :: rest)))
    (le : skip ≤ skip' + 1) :
    m.Ready table (offset + 1) skip' length (.start (some c) rest) := by
  obtain ⟨o, ⟨w, hw, hb⟩, hoffset, hlength, closed⟩ := h
  have further : distance o (.start (some c) rest) = offset + 1 := by
    simp only [distance, hw, State.start, List.length_append, List.length_cons] at hoffset ⊢
    omega
  exact ⟨o, ⟨w ++ [c], by simpa [State.start] using hw, by simp [State.start]⟩, further.symm,
    hlength, fun fork place has behind => closed fork place has (by omega)⟩

/-- Without the marks at the end of a match those behind it stay closed. -/
theorem Marks.ClosedFrom.clear {m : Marks} {place : Nat}
    (h : m.ClosedFrom table o (place + 1)) : (m.clear place).ClosedFrom table o place := by
  intro fork other has le
  rw [Marks.has_clear, Bool.and_eq_true, bne_iff_ne] at has
  obtain ⟨first, second, both, stops⟩ := h fork other has.2 (by omega)
  have keep {b : Branch} {s : State} (within : Within o s) (here : distance o s = other)
      (stop : m.Stops o b s) : (m.clear place).Stops o b s := fun t along => by
    obtain ⟨next, hnext, marked⟩ := stop t along
    have := distance_walk within along
    refine ⟨next, hnext, ?_⟩
    rw [Marks.has_clear, marked, Bool.and_true, bne_iff_ne]
    omega
  exact ⟨first, second, both, fun s within here =>
    ⟨keep within here (stops s within here).1, keep within here (stops s within here).2⟩⟩

/-- The fuel for a search in a text. -/
def fuelFor (table : Forks) (length : Nat) : Nat :=
  1 + 2 * (table.size * (length + 1))

/-- The search at a place finds the preferred end, and its marks are good behind it. Without one
they are good for the same place. -/
theorem explore_start {offset length : Nat} {m : Marks} {b : Branch} {before : Option Char}
    {rest : List Char} {l : List State} (h : Explores table b (.start before rest) l)
    (ready : m.Ready table offset 0 length (.start before rest)) :
    (∃ t ts m', l = t :: ts ∧
      (m'.clear (offset + t.count)).Ready table offset t.count length (.start before rest) ∧
      explore table offset (fuelFor table length) [(b, .start before rest)] m =
        (some t.forget, m')) ∨
    ∃ m', l = [] ∧ m'.Ready table offset 0 length (.start before rest) ∧
      explore table offset (fuelFor table length) [(b, .start before rest)] m = (none, m') := by
  obtain ⟨o, within, hoffset, hlength, closed⟩ := ready
  have enough : 1 + 2 * m.room table.size o.rest.length ≤ fuelFor table length := by
    have := m.room_le table.size o.rest.length
    have := Nat.mul_le_mul_left table.size (Nat.succ_le_succ hlength)
    simp only [Nat.succ_eq_add_one] at this
    unfold fuelFor
    omega
  have settled : m.Settled table o (.start before rest) := fun fork place has le _ =>
    closed fork place has (by omega)
  cases explored_of_explores h within hoffset settled (fun _ inside => by cases inside) with
  | found cost m' bound there counted closed' run =>
    refine .inl ⟨_, _, m', rfl, ⟨o, within, hoffset, hlength, ?_⟩,
      run _ [] (Nat.le_trans bound enough)⟩
    rw [counted]
    exact closed'.clear
  | exhausted cost m' bound _ _ settled' _ run =>
    refine .inr ⟨m', rfl, ⟨o, within, hoffset, hlength, fun fork place has le =>
      settled' fork place has (by omega) fun _ => List.not_mem_nil⟩, ?_⟩
    have covered : cost ≤ fuelFor table length := by omega
    obtain ⟨fuel, hfuel⟩ := Nat.exists_eq_add_of_le' covered
    rw [hfuel]
    refine (run fuel []).trans ?_
    cases fuel <;> rfl

end Settled

end Polyglot
