import Polyglot.Pattern.Match

/-!
Patterns as graphs. Between its forks a match has no choice, so a pattern is a table of its forks,
each with the two ways that lead on from it, the preferred first. `Explores` says in which order the
ways end, and `explores_entry` that this is the order of `Pattern.ends`.
-/

namespace Polyglot

/-- What a match does without a choice. -/
inductive Step where
  | char (set : CharSet)
  | look (test : Look)
  | enter
  | leave (index : Nat)
  deriving Repr

/-- A way up to the next fork, or to the end of the match. -/
structure Branch where
  steps : List Step
  fork : Option Nat
  deriving Repr

/-- The branches of the forks, by their numbers. -/
abbrev Forks := Array (Branch × Branch)

namespace Branch

/-- The way that is complete at once. -/
def done : Branch :=
  ⟨[], none⟩

/-- The way that leads to a fork at once. -/
def goto (fork : Nat) : Branch :=
  ⟨[], some fork⟩

def cons (step : Step) (b : Branch) : Branch :=
  ⟨step :: b.steps, b.fork⟩

end Branch

/-- Follows steps as far as the text allows. -/
def State.walk : List Step → State → Option State
  | [], s => some s
  | .char set :: steps, s =>
    match s.rest with
    | [] => none
    | c :: rest => if set.has c then walk steps (s.next c rest) else none
  | .look test :: steps, s => if test.holds s.before s.rest then walk steps s else none
  | .enter :: steps, s => walk steps s.enter
  | .leave index :: steps, s => walk steps (s.leave index)

namespace Pattern

/-- The way into a pattern that is followed by `k`. -/
def entry (n : Nat) : Pattern → Branch → Branch
  | empty, k => k
  | char set, k => k.cons (.char set)
  | look test, k => k.cons (.look test)
  | seq p q, k => entry (n + q.forks) p (entry n q k)
  | alt p q, _ => .goto (n + p.forks + q.forks)
  | star _ p, _ => .goto (n + p.forks)
  | plus _ p, _ => entry n p (.goto (n + p.forks))
  | group index p, k => (entry n p (k.cons (.leave index))).cons .enter

/-- The ways from the fork of a loop. -/
def loopBranches (greedy : Bool) (body exit : Branch) : Branch × Branch :=
  if greedy then (body, exit) else (exit, body)

/-- The ways from the forks of a pattern that is followed by `k`. -/
def branches (n : Nat) : Pattern → Branch → List (Branch × Branch)
  | empty, _ => []
  | char _, _ => []
  | look _, _ => []
  | seq p q, k => branches n q k ++ branches (n + q.forks) p (entry n q k)
  | alt p q, k =>
    branches n p k ++ branches (n + p.forks) q k ++ [(entry n p k, entry (n + p.forks) q k)]
  | star greedy p, k =>
    branches n p (.goto (n + p.forks)) ++
      [loopBranches greedy (entry n p (.goto (n + p.forks))) k]
  | plus greedy p, k =>
    branches n p (.goto (n + p.forks)) ++
      [loopBranches greedy (entry n p (.goto (n + p.forks))) k]
  | group index p, k => branches n p (k.cons (.leave index))

/-- Entry and branches in one pass; the branches go to the end of a table. -/
def compile : Pattern → Branch → Forks → Branch × Forks
  | empty, k, forks => (k, forks)
  | char set, k, forks => (k.cons (.char set), forks)
  | look test, k, forks => (k.cons (.look test), forks)
  | seq p q, k, forks =>
    let (behind, forks) := compile q k forks
    compile p behind forks
  | alt p q, k, forks =>
    let (first, forks) := compile p k forks
    let (second, forks) := compile q k forks
    (.goto forks.size, forks.push (first, second))
  | star greedy p, k, forks =>
    let own := Branch.goto (forks.size + p.forks)
    let (body, forks) := compile p own forks
    (own, forks.push (loopBranches greedy body k))
  | plus greedy p, k, forks =>
    let (body, forks) := compile p (.goto (forks.size + p.forks)) forks
    (body, forks.push (loopBranches greedy body k))
  | group index p, k, forks =>
    let (body, forks) := compile p (k.cons (.leave index)) forks
    (body.cons .enter, forks)

theorem length_branches (n : Nat) (p : Pattern) (k : Branch) :
    (p.branches n k).length = p.forks := by
  induction p generalizing n k with
  | empty => rfl
  | char _ => rfl
  | look _ => rfl
  | seq p q ihp ihq => simp [branches, forks, ihp, ihq, Nat.add_comm]
  | alt p q ihp ihq => simp [branches, forks, ihp, ihq, Nat.add_assoc]
  | star _ p ih => simp [branches, forks, ih]
  | plus _ p ih => simp [branches, forks, ih]
  | group _ p ih => exact ih n _

theorem compile_eq (p : Pattern) (k : Branch) (table : Forks) :
    p.compile k table = (p.entry table.size k, table ++ (p.branches table.size k).toArray) := by
  induction p generalizing k table with
  | empty => simp [compile, entry, branches]
  | char _ => simp [compile, entry, branches]
  | look _ => simp [compile, entry, branches]
  | seq p q ihp ihq =>
    simp [compile, entry, branches, ihp, ihq, length_branches, Array.append_assoc]
  | alt p q ihp ihq =>
    simp [compile, entry, branches, ihp, ihq, length_branches, ← Array.append_singleton,
      Array.append_assoc, Nat.add_assoc]
  | star _ p ih =>
    simp [compile, entry, branches, ih, ← Array.append_singleton, Array.append_assoc]
  | plus _ p ih =>
    simp [compile, entry, branches, ih, ← Array.append_singleton, Array.append_assoc]
  | group _ p ih => simp [compile, entry, branches, ih]

end Pattern

/-- The places where the ways along a branch end, the preferred first. -/
inductive Explores (table : Forks) : Branch → State → List State → Prop where
  | stuck {b : Branch} {s : State} : s.walk b.steps = none → Explores table b s []
  | done {b : Branch} {s t : State} :
      s.walk b.steps = some t → b.fork = none → Explores table b s [t]
  | passed {b : Branch} {s t : State} {fork : Nat} :
      s.walk b.steps = some t → b.fork = some fork → t.pass? fork = none → Explores table b s []
  | fork {b first second : Branch} {s t u : State} {fork : Nat} {l m : List State} :
      s.walk b.steps = some t → b.fork = some fork → t.pass? fork = some u →
      table[fork]? = some (first, second) → Explores table first u l → Explores table second u m →
      Explores table b s (l ++ m)

namespace Explores

variable {table : Forks}

/-- Branches with one next fork, where the steps lead to one place, explore alike. -/
theorem of_walk_eq {b k : Branch} {s t : State} {l : List State} (h : Explores table k t l)
    (walk : s.walk b.steps = t.walk k.steps) (fork : b.fork = k.fork) : Explores table b s l := by
  cases h with
  | stuck stuck => exact .stuck (walk.trans stuck)
  | done along complete => exact .done (walk.trans along) (fork.trans complete)
  | passed along next blocked => exact .passed (walk.trans along) (fork.trans next) blocked
  | fork along next free both first second =>
    exact .fork (walk.trans along) (fork.trans next) free both first second

theorem goto_passed {s : State} {fork : Nat} (h : s.pass? fork = none) :
    Explores table (.goto fork) s [] :=
  .passed rfl rfl h

end Explores

/-- The branches `l` stand in a table from the number `n` on. -/
def Forks.Holds (table : Forks) (n : Nat) (l : List (Branch × Branch)) : Prop :=
  ∀ j both, l[j]? = some both → table[n + j]? = some both

theorem Forks.Holds.append {table : Forks} {n : Nat} {l m : List (Branch × Branch)}
    (h : table.Holds n (l ++ m)) : table.Holds n l ∧ table.Holds (n + l.length) m := by
  refine ⟨fun j both hj => h j both ?_, fun j both hj => ?_⟩
  · rw [List.getElem?_append_left (List.getElem?_eq_some_iff.mp hj).1, hj]
  · rw [Nat.add_assoc]
    refine h _ both ?_
    rw [List.getElem?_append_right (Nat.le_add_right _ _), Nat.add_sub_cancel_left, hj]

theorem Forks.Holds.last {table : Forks} {n : Nat} {l : List (Branch × Branch)}
    {both : Branch × Branch} (h : table.Holds n (l ++ [both])) :
    table[n + l.length]? = some both :=
  h l.length both (by simp)

namespace Pattern

variable {table : Forks}

/-- A loop explores its rounds. -/
theorem explores_loop {greedy : Bool} {fork : Nat} {step : State → List State} {body k : Branch}
    {f : State → List State} (own : table[fork]? = some (loopBranches greedy body k))
    (reaches : ∀ s t, t ∈ step s → s.Reaches t)
    (runs : ∀ s f, (∀ t ∈ step s, Explores table (.goto fork) t (f t)) →
      Explores table body s ((step s).flatMap f))
    (s : State) (ends : ∀ t ∈ loop greedy fork step s, Explores table k t (f t)) :
    Explores table (.goto fork) s ((loop greedy fork step s).flatMap f) := by
  induction hlen : s.rest.length using Nat.strongRecOn generalizing s with
  | _ length ih =>
    cases ht : s.pass? fork with
    | none =>
      rw [loop_eq reaches, ht]
      exact .goto_passed ht
    | some t =>
      have both : loop greedy fork step s = _ := loop_eq reaches s
      rw [ht] at both
      have again : Explores table body t
          (((step t).flatMap (loop greedy fork step)).flatMap f) := by
        rw [List.flatMap_assoc]
        refine runs t _ fun u hu => ?_
        have nearer := (State.Reaches.pass ht).length_le
        by_cases consumed : u.rest.length < s.rest.length
        · refine ih u.rest.length (hlen ▸ consumed) u (fun v hv => ends v ?_) rfl
          rw [both]
          have : v ∈ (step t).flatMap (loop greedy fork step) := List.mem_flatMap.mpr ⟨u, hu, hv⟩
          cases greedy <;> simp [this]
        · have inside : fork ∈ u.passed :=
            (reaches t u hu).passed (by omega)
              (by rw [(State.pass?_eq_some.mp ht).2]; exact List.mem_cons_self)
          rw [loop_eq reaches, State.pass?_eq_none.mpr inside]
          exact .goto_passed (State.pass?_eq_none.mpr inside)
      have out : Explores table k t (f t) := ends t (by rw [both]; cases greedy <;> simp)
      rw [both]
      cases greedy with
      | true => simpa using Explores.fork rfl rfl ht own again out
      | false => simpa using Explores.fork rfl rfl ht own out again

/-- The graph of a pattern explores the ends of its matches, and from each of them on what
follows. -/
theorem explores_entry {p : Pattern} {n : Nat} {k : Branch} (holds : table.Holds n (p.branches n k))
    {s : State} {f : State → List State} (ends : ∀ t ∈ p.ends n s, Explores table k t (f t)) :
    Explores table (p.entry n k) s ((p.ends n s).flatMap f) := by
  induction p generalizing n k s f with
  | empty => simpa [Pattern.ends, entry] using ends s (by simp [Pattern.ends])
  | char set =>
    simp only [Pattern.ends] at ends ⊢
    split
    · next none => exact .stuck (by simp [entry, Branch.cons, State.walk, none])
    · next c rest hrest =>
      split
      · next has =>
        simp only [hrest, has, ↓reduceIte, List.mem_singleton, forall_eq] at ends
        simp only [List.flatMap_cons, List.flatMap_nil, List.append_nil]
        exact ends.of_walk_eq (by simp [entry, Branch.cons, State.walk, hrest, has]) rfl
      · next has => exact .stuck (by simp [entry, Branch.cons, State.walk, hrest, has])
  | look test =>
    simp only [Pattern.ends] at ends ⊢
    split
    · next holds =>
      simp only [holds, ↓reduceIte, List.mem_singleton, forall_eq] at ends
      simp only [List.flatMap_cons, List.flatMap_nil, List.append_nil]
      exact ends.of_walk_eq (by simp [entry, Branch.cons, State.walk, holds]) rfl
    · next holds => exact .stuck (by simp [entry, Branch.cons, State.walk, holds])
  | seq p q ihp ihq =>
    obtain ⟨later, earlier⟩ := Forks.Holds.append holds
    rw [length_branches] at earlier
    simp only [Pattern.ends, List.flatMap_assoc] at ends ⊢
    refine ihp earlier fun t ht => ihq later fun u hu => ends u ?_
    exact List.mem_flatMap.mpr ⟨t, ht, hu⟩
  | alt p q ihp ihq =>
    have own := Forks.Holds.last holds
    rw [List.length_append, length_branches, length_branches, ← Nat.add_assoc] at own
    obtain ⟨first, second⟩ := Forks.Holds.append (Forks.Holds.append holds).1
    rw [length_branches] at second
    simp only [Pattern.ends] at ends ⊢
    cases ht : s.pass? (n + p.forks + q.forks) with
    | none => exact .goto_passed ht
    | some t =>
      rw [ht] at ends
      simp only [List.flatMap_append]
      exact .fork rfl rfl ht own
        (ihp first fun u hu => ends u (List.mem_append_left _ hu))
        (ihq second fun u hu => ends u (List.mem_append_right _ hu))
  | star greedy p ih =>
    have own := Forks.Holds.last holds
    rw [length_branches] at own
    exact explores_loop own (fun _ _ => reaches_of_mem_ends)
      (fun _ _ => ih (Forks.Holds.append holds).1) s ends
  | plus greedy p ih =>
    have own := Forks.Holds.last holds
    rw [length_branches] at own
    simp only [Pattern.ends, List.flatMap_assoc] at ends ⊢
    refine ih (Forks.Holds.append holds).1 fun t ht => ?_
    exact explores_loop own (fun _ _ => reaches_of_mem_ends)
      (fun _ _ => ih (Forks.Holds.append holds).1) t
      fun u hu => ends u (List.mem_flatMap.mpr ⟨t, ht, hu⟩)
  | group index p ih =>
    simp only [Pattern.ends, List.flatMap_map, List.mem_map, forall_exists_index, and_imp,
      forall_apply_eq_imp_iff₂] at ends ⊢
    exact (ih holds fun t ht => (ends t ht).of_walk_eq rfl rfl).of_walk_eq rfl rfl

end Pattern

end Polyglot
