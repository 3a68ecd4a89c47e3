import Mathlib.Logic.Relation
import Polyglot.Proofs.Hits

/-!
What patterns match, without the order of preference. `Pattern.Takes` says from which place of a
text to which other one a pattern leads, and `isMatch_iff_takes` that a search succeeds exactly if
it leads from some place to another.

A match never passes a fork twice at one place. Nothing is lost by that: of the ways through the
graph of a pattern one without repetition is enough (`exists_simple`), and such a way is never
stopped.
-/

namespace Polyglot

/-- A place in a text: the character before it, if there is one, and what follows. -/
structure Site where
  before : Option Char
  rest : List Char

namespace Pattern

/-- The pattern matches the text from the first place up to the second. -/
def Takes : Pattern → Site → Site → Prop
  | empty, s, t => s = t
  | char set, s, t => ∃ c r, s.rest = c :: r ∧ set.has c = true ∧ t = ⟨some c, r⟩
  | look test, s, t => test.holds s.before s.rest = true ∧ s = t
  | seq p q, s, t => ∃ u, Takes p s u ∧ Takes q u t
  | alt p q, s, t => Takes p s t ∨ Takes q s t
  | star _ p, s, t => Relation.ReflTransGen (Takes p) s t
  | plus _ p, s, t => Relation.TransGen (Takes p) s t
  | group _ p, s, t => Takes p s t

end Pattern

/-- Where a state of a match is. -/
def State.site (s : State) : Site :=
  ⟨s.before, s.rest⟩

theorem State.site_leave (s : State) (index : Nat) : (s.leave index).site = s.site := by
  unfold State.leave
  split <;> rfl

theorem State.passed_leave (s : State) (index : Nat) : (s.leave index).passed = s.passed := by
  unfold State.leave
  split <;> rfl

namespace Pattern

/-! ### Every end of a match is reached -/

theorem takes_of_mem_rounds {greedy : Bool} {fork : Nat} {step : State → List State}
    {R : Site → Site → Prop} (h : ∀ s t, t ∈ step s → R s.site t.site) {fuel : Nat} {s t : State}
    (mem : t ∈ rounds greedy fork step fuel s) : Relation.ReflTransGen R s.site t.site := by
  induction fuel generalizing s with
  | zero => cases mem
  | succ fuel ih =>
    unfold rounds at mem
    split at mem
    · cases mem
    · next u hu =>
      have here : u.site = s.site := by
        rw [(State.pass?_eq_some.mp hu).2]
        rfl
      have cases : t = u ∨ ∃ v ∈ step u, t ∈ rounds greedy fork step fuel v := by
        cases greedy <;> simp at mem <;> grind
      rw [← here]
      rcases cases with rfl | ⟨v, hv, hvt⟩
      · exact .refl
      · exact .head (h u v hv) (ih hvt)

theorem takes_of_mem_ends {n : Nat} {p : Pattern} {s t : State} (mem : t ∈ p.ends n s) :
    p.Takes s.site t.site := by
  induction p generalizing n s t with
  | empty =>
    rw [List.mem_singleton.mp mem]
    rfl
  | char set =>
    simp only [ends] at mem
    split at mem
    · cases mem
    · next c r hr =>
      split at mem
      · next has =>
        rw [List.mem_singleton.mp mem]
        exact ⟨c, r, hr, has, rfl⟩
      · cases mem
  | look test =>
    simp only [ends] at mem
    split at mem
    · next holds =>
      rw [List.mem_singleton.mp mem]
      exact ⟨holds, rfl⟩
    · cases mem
  | seq p q ihp ihq =>
    obtain ⟨u, hu, hut⟩ := List.mem_flatMap.mp mem
    exact ⟨u.site, ihp hu, ihq hut⟩
  | alt p q ihp ihq =>
    simp only [ends] at mem
    split at mem
    · cases mem
    · next u hu =>
      have here : u.site = s.site := by
        rw [(State.pass?_eq_some.mp hu).2]
        rfl
      rw [← here]
      rcases List.mem_append.mp mem with first | second
      · exact .inl (ihp first)
      · exact .inr (ihq second)
  | star greedy p ih => exact takes_of_mem_rounds (fun _ _ => ih) mem
  | plus greedy p ih =>
    obtain ⟨u, hu, hut⟩ := List.mem_flatMap.mp mem
    exact .head' (ih hu) (takes_of_mem_rounds (fun _ _ => ih) hut)
  | group index p ih =>
    obtain ⟨u, hu, rfl⟩ := List.mem_map.mp mem
    rw [State.site_leave]
    exact ih (s := s.enter) hu

end Pattern

/-! ### Ways through a graph -/

/-- Follows steps as far as the text allows. -/
def Site.walk : List Step → Site → Option Site
  | [], s => some s
  | .char set :: steps, s =>
    match s.rest with
    | [] => none
    | c :: rest => if set.has c then walk steps ⟨some c, rest⟩ else none
  | .look test :: steps, s => if test.holds s.before s.rest then walk steps s else none
  | .enter :: steps, s => walk steps s
  | .leave _ :: steps, s => walk steps s

theorem State.site_walk (steps : List Step) (s : State) :
    (s.walk steps).map State.site = s.site.walk steps := by
  induction steps generalizing s with
  | nil => rfl
  | cons step steps ih =>
    cases step with
    | char set =>
      obtain ⟨before, rest, count, passed, opened, groups⟩ := s
      cases rest with
      | nil => rfl
      | cons c rest =>
        simp only [State.walk, Site.walk, State.site]
        split
        · exact ih _
        · rfl
    | look test =>
      by_cases holds : test.holds s.before s.rest = true
      · rw [State.walk, if_pos holds, ih, Site.walk]
        exact (if_pos holds).symm
      · rw [State.walk, if_neg holds, Site.walk]
        exact (if_neg holds).symm
    | enter => exact ih s.enter
    | leave index =>
      rw [State.walk, ih, State.site_leave, Site.walk]

/-- Along steps either a character is consumed, and no fork counts as passed, or nothing changes. -/
theorem State.passed_walk {steps : List Step} {s t : State} (h : s.walk steps = some t) :
    t.passed = [] ∨ t.passed = s.passed ∧ t.site = s.site := by
  induction steps generalizing s with
  | nil =>
    obtain rfl := Option.some.inj h
    exact .inr ⟨rfl, rfl⟩
  | cons step steps ih =>
    cases step with
    | char set =>
      simp only [State.walk] at h
      split at h
      · cases h
      · split at h
        · rcases ih h with none | ⟨none, -⟩
          · exact .inl none
          · exact .inl none
        · cases h
    | look test =>
      simp only [State.walk] at h
      split at h
      · exact ih h
      · cases h
    | enter => exact ih (s := s.enter) h
    | leave index =>
      have := ih (s := s.leave index) h
      rwa [State.passed_leave, State.site_leave] at this

/-- A way from a branch to the end of a match, with the forks that it passes and where. -/
inductive Leads (table : Forks) : Branch → Site → List (Nat × Site) → Prop where
  | done {b : Branch} {s t : Site} : s.walk b.steps = some t → b.fork = none → Leads table b s []
  | fork {b k : Branch} {both : Branch × Branch} {s t : Site} {fork : Nat}
      {passed : List (Nat × Site)} : s.walk b.steps = some t → b.fork = some fork → table[fork]? =
      some both → (k = both.1 ∨ k = both.2) →
      Leads table k t passed → Leads table b s ((fork, t) :: passed)

namespace Leads

variable {table : Forks} {b k : Branch} {s t : Site} {passed : List (Nat × Site)}

/-- Branches with one next fork, where the steps lead to one place, lead alike. -/
theorem of_walk_eq (h : Leads table k t passed) (walk : s.walk b.steps = t.walk k.steps)
    (fork : b.fork = k.fork) : Leads table b s passed := by
  cases h with
  | done along complete => exact .done (walk.trans along) (fork.trans complete)
  | fork along next both branch later =>
    exact .fork (walk.trans along) (fork.trans next) both branch later

/-- Where a way passes a fork, the rest of it leads on from there. -/
theorem exists_of_mem (h : Leads table b s passed) {fork : Nat} (mem : (fork, t) ∈ passed) :
    ∃ front back both k, passed = front ++ (fork, t) :: back ∧ table[fork]? = some both ∧
      (k = both.1 ∨ k = both.2) ∧ Leads table k t back := by
  induction h with
  | done => cases mem
  | @fork b k both s u fork' passed walk next here branch later ih =>
    rcases List.mem_cons.mp mem with same | below
    · obtain ⟨rfl, rfl⟩ := Prod.mk.inj same
      exact ⟨[], passed, both, k, rfl, here, branch, later⟩
    · obtain ⟨front, back, both', k', rfl, here', branch', later'⟩ := ih below
      exact ⟨(fork', u) :: front, back, both', k', rfl, here', branch', later'⟩

/-- A way that passes no fork twice at one place is left when circles are cut out. -/
theorem exists_simple (h : Leads table b s passed) :
    ∃ passed', Leads table b s passed' ∧ passed'.Nodup := by
  classical
  induction h with
  | done walk complete => exact ⟨[], .done walk complete, .nil⟩
  | @fork b k both s t fork passed walk next here branch later ih =>
    obtain ⟨passed', way, single⟩ := ih
    by_cases again : (fork, t) ∈ passed'
    · obtain ⟨front, back, both', k', rfl, here', branch', later'⟩ := way.exists_of_mem again
      exact ⟨(fork, t) :: back, .fork walk next here' branch' later',
        (List.nodup_append.mp single).2.1⟩
    · exact ⟨(fork, t) :: passed', .fork walk next here branch way,
        List.nodup_cons.mpr ⟨again, single⟩⟩

end Leads

/-- A way without repetition is not stopped by forks that were passed before it. -/
theorem Explores.ne_nil_of_leads {table : Forks} {b : Branch} {s : State} {l : List State}
    {passed : List (Nat × Site)} (h : Explores table b s l) (way : Leads table b s.site passed)
    (single : passed.Nodup) (fresh : ∀ fork, (fork, s.site) ∈ passed → fork ∉ s.passed) :
    l ≠ [] := by
  induction h generalizing passed with
  | @stuck b s stuck =>
    have none := s.site_walk b.steps
    rw [stuck] at none
    cases way with
    | done walk _ =>
      rw [walk] at none
      cases none
    | fork walk _ _ _ _ =>
      rw [walk] at none
      cases none
  | done => exact List.cons_ne_nil _ _
  | @passed b s t fork walk next blocked =>
    have same := s.site_walk b.steps
    rw [walk] at same
    cases way with
    | done _ complete =>
      rw [next] at complete
      cases complete
    | fork walk' next' _ _ _ =>
      rw [walk'] at same
      obtain rfl := Option.some.inj same
      obtain rfl := Option.some.inj (next.symm.trans next')
      have before := State.pass?_eq_none.mp blocked
      rcases State.passed_walk walk with none | ⟨kept, here⟩
      · rw [none] at before
        cases before
      · rw [kept] at before
        exact absurd before (fresh fork (here ▸ List.mem_cons_self))
  | @fork b first second s t u fork l m walk next free both _ _ ihl ihm =>
    have same := s.site_walk b.steps
    rw [walk] at same
    cases way with
    | done _ complete =>
      rw [next] at complete
      cases complete
    | @fork _ k both' _ _ fork' passed' walk' next' both'' branch later =>
      rw [walk'] at same
      obtain rfl := Option.some.inj same
      obtain rfl := Option.some.inj (next.symm.trans next')
      obtain rfl := Option.some.inj (both.symm.trans both'')
      obtain ⟨once, single⟩ := List.nodup_cons.mp single
      obtain ⟨-, hu⟩ := State.pass?_eq_some.mp free
      have site : u.site = t.site := by rw [hu]; rfl
      have fresh' : ∀ other, (other, u.site) ∈ passed' → other ∉ u.passed := by
        intro other mem before
        rw [site] at mem
        rw [hu] at before
        rcases List.mem_cons.mp before with rfl | earlier
        · exact once mem
        · rcases State.passed_walk walk with none | ⟨kept, here⟩
          · rw [none] at earlier
            cases earlier
          · rw [kept] at earlier
            rw [here] at mem
            exact fresh other (List.mem_cons_of_mem _ mem) earlier
      rw [← site] at later
      rcases branch with rfl | rfl
      · exact List.append_ne_nil_of_left_ne_nil (ihl later single fresh') _
      · exact List.append_ne_nil_of_right_ne_nil _ (ihm later single fresh')

namespace Pattern

variable {table : Forks}

/-- The fork of a loop leads on through any number of iterations. -/
theorem leads_loop {greedy : Bool} {fork : Nat} {R : Site → Site → Prop}
    {body k : Branch} {s t : Site} (own : table[fork]? = some (loopBranches greedy body k))
    (runs : ∀ s t, R s t → (∃ passed, Leads table (.goto fork) t passed) → ∃ passed,
      Leads table body s passed)
    (iterations : Relation.ReflTransGen R s t) (out : ∃ passed, Leads table k t passed) :
    ∃ passed, Leads table (.goto fork) s passed := by
  induction iterations using Relation.ReflTransGen.head_induction_on with
  | refl =>
    obtain ⟨passed, out⟩ := out
    refine ⟨_, .fork rfl rfl own ?_ out⟩
    cases greedy with
    | true => exact .inr rfl
    | false => exact .inl rfl
  | head once _ ih =>
    obtain ⟨passed, again⟩ := runs _ _ once ih
    refine ⟨_, .fork rfl rfl own ?_ again⟩
    cases greedy with
    | true => exact .inl rfl
    | false => exact .inr rfl

/-- The graph of a pattern leads wherever the pattern takes the text, and on from there. -/
theorem leads_entry {p : Pattern} {n : Nat} {k : Branch} (holds : table.Holds n (p.branches n k))
    {s t : Site} (takes : p.Takes s t) (behind : ∃ passed, Leads table k t passed) :
    ∃ passed, Leads table (p.entry n k) s passed := by
  induction p generalizing n k s t with
  | empty =>
    obtain rfl : s = t := takes
    exact behind
  | char set =>
    obtain ⟨c, r, hr, has, rfl⟩ := takes
    obtain ⟨passed, behind⟩ := behind
    exact ⟨passed, behind.of_walk_eq (by simp [entry, Branch.cons, Site.walk, hr, has]) rfl⟩
  | look test =>
    obtain ⟨holds, rfl⟩ := takes
    obtain ⟨passed, behind⟩ := behind
    exact ⟨passed, behind.of_walk_eq (by simp [entry, Branch.cons, Site.walk, holds]) rfl⟩
  | seq p q ihp ihq =>
    obtain ⟨u, first, second⟩ := takes
    obtain ⟨later, earlier⟩ := Forks.Holds.append holds
    rw [length_branches] at earlier
    exact ihp earlier first (ihq later second behind)
  | alt p q ihp ihq =>
    have own := Forks.Holds.last holds
    rw [List.length_append, length_branches, length_branches, ← Nat.add_assoc] at own
    obtain ⟨first, second⟩ := Forks.Holds.append (Forks.Holds.append holds).1
    rw [length_branches] at second
    rcases takes with left | right
    · obtain ⟨passed, way⟩ := ihp first left behind
      exact ⟨_, .fork rfl rfl own (.inl rfl) way⟩
    · obtain ⟨passed, way⟩ := ihq second right behind
      exact ⟨_, .fork rfl rfl own (.inr rfl) way⟩
  | star greedy p ih =>
    have own := Forks.Holds.last holds
    rw [length_branches] at own
    exact leads_loop own (fun _ _ => ih (Forks.Holds.append holds).1) takes behind
  | plus greedy p ih =>
    have own := Forks.Holds.last holds
    rw [length_branches] at own
    have inner := (Forks.Holds.append holds).1
    obtain ⟨u, first, others⟩ := Relation.TransGen.head'_iff.mp takes
    exact ih inner first (leads_loop own (fun _ _ => ih inner) others behind)
  | group index p ih =>
    obtain ⟨passed, behind⟩ := behind
    obtain ⟨passed, way⟩ := ih holds takes ⟨passed, behind.of_walk_eq rfl rfl⟩
    exact ⟨passed, way.of_walk_eq rfl rfl⟩

theorem isSome_matchAt_iff_takes {p : Pattern} {before : Option Char} {rest : List Char} :
    (p.matchAt before rest).isSome = true ↔ ∃ t, p.Takes ⟨before, rest⟩ t := by
  have found : (p.matchAt before rest).isSome = true ↔ p.ends 0 (State.start before rest) ≠ [] := by
    rw [matchAt, Option.isSome_map]
    cases p.ends 0 (State.start before rest) <;> simp
  rw [found]
  constructor
  · intro some
    obtain ⟨t, mem⟩ := List.exists_mem_of_ne_nil _ some
    exact ⟨t.site, takes_of_mem_ends mem⟩
  · rintro ⟨t, takes⟩
    have holds : Forks.Holds (p.compile .done #[]).2 0 (p.branches 0 .done) := by
      rw [compile_eq]
      exact fun j both h => by simpa using h
    obtain ⟨passed, way⟩ := leads_entry holds takes ⟨[], .done rfl rfl⟩
    obtain ⟨passed, way, single⟩ := way.exists_simple
    have entry : (p.compile .done #[]).1 = p.entry 0 .done := by
      rw [compile_eq]
      rfl
    rw [← entry] at way
    refine (p.explores_compile (State.start before rest)).ne_nil_of_leads way single ?_
    intro fork _ before
    cases before

/-- A search succeeds exactly if the pattern matches from some place on. -/
theorem isMatch_iff_takes {p : Pattern} {s : List Char} :
    p.isMatch s = true ↔ ∃ u v t, s = u ++ v ∧ p.Takes ⟨u.getLast?, v⟩ t := by
  rw [isMatch_iff]
  constructor
  · rintro ⟨u, v, whole, found⟩
    obtain ⟨t, takes⟩ := isSome_matchAt_iff_takes.mp found
    exact ⟨u, v, t, whole, takes⟩
  · rintro ⟨u, v, t, whole, takes⟩
    exact ⟨u, v, whole, isSome_matchAt_iff_takes.mpr ⟨t, takes⟩⟩

end Pattern

end Polyglot
