import Polyglot.Pattern.Scan

/-!
Matching without forks. A loop whose body ends in a character consumes one in every iteration, so
the forks that a match has passed never stop it. For patterns with such loops only, `Pattern.ways`
lists the matches at a place by plain recursion, and a place is a `Cursor`: it knows the words
matched so far, where a `State` counts characters.

`matchAt_eq_ways` says that the preferred match is the first of these.
-/

namespace Polyglot

/-- A place in a text during a match. -/
structure Cursor where
  before : Option Char
  rest : List Char
  /-- What was matched since the innermost open group began, or since the match began. -/
  taken : List Char
  /-- The groups completed so far, the latest first. -/
  groups : List (Nat × List Char)
  deriving DecidableEq, Repr

namespace Cursor

def start (before : Option Char) (rest : List Char) : Cursor :=
  ⟨before, rest, [], []⟩

/-- The place behind a word that the rest of the text begins with. -/
def past (c : Cursor) (w : List Char) : Cursor :=
  ⟨w.getLast?.or c.before, c.rest.drop w.length, c.taken ++ w, c.groups⟩

/-- The same place, at the beginning of a group. -/
def enter (c : Cursor) : Cursor :=
  { c with taken := [] }

/-- The place `d`, at the end of a group that began at `c`. -/
def leave (c : Cursor) (index : Nat) (d : Cursor) : Cursor :=
  { d with taken := c.taken ++ d.taken, groups := (index, d.taken) :: d.groups }

/-- The place behind a word that is a group. -/
def noting (c : Cursor) (index : Nat) (w : List Char) : Cursor :=
  { c.past w with groups := (index, w) :: c.groups }

def toMatch (c : Cursor) : Match :=
  ⟨c.taken, c.groups⟩

@[simp] theorem past_nil (c : Cursor) : c.past [] = c := by
  simp [past]

theorem past_past (c : Cursor) (v w : List Char) : (c.past v).past w = c.past (v ++ w) := by
  simp [past, List.getLast?_append, Option.or_assoc]

theorem rest_past {c : Cursor} {w r : List Char} (h : c.rest = w ++ r) : (c.past w).rest = r := by
  simp [past, h]

theorem rest_past_cons {c : Cursor} {d : Char} {r : List Char} (h : c.rest = d :: r) :
    (c.past [d]).rest = r :=
  rest_past (w := [d]) h

@[simp] theorem taken_past (c : Cursor) (w : List Char) : (c.past w).taken = c.taken ++ w := rfl

@[simp] theorem groups_past (c : Cursor) (w : List Char) : (c.past w).groups = c.groups := rfl

@[simp] theorem before_start (before : Option Char) (rest : List Char) :
    (start before rest).before = before := rfl

@[simp] theorem rest_start (before : Option Char) (rest : List Char) :
    (start before rest).rest = rest := rfl

theorem rest_noting {c : Cursor} {w r : List Char} (index : Nat) (h : c.rest = w ++ r) :
    (c.noting index w).rest = r :=
  rest_past h

theorem leave_past_enter (c : Cursor) (index : Nat) (w : List Char) :
    c.leave index (c.enter.past w) = c.noting index w := rfl

end Cursor

namespace Pattern

/-- Whether every match ends in a character that the pattern asks for. -/
def endsInChar : Pattern → Bool
  | char _ => true
  | seq _ q => endsInChar q
  | alt p q => endsInChar p && endsInChar q
  | group _ p => endsInChar p
  | _ => false

/-- Whether the body of every loop ends in a character. -/
def isTame : Pattern → Bool
  | empty => true
  | char _ => true
  | look _ => true
  | seq p q => isTame p && isTame q
  | alt p q => isTame p && isTame q
  | star _ p => endsInChar p && isTame p
  | plus _ p => endsInChar p && isTame p
  | group _ p => isTame p

/-- The ways out of a loop before its next iteration. The fuel bounds the iterations. -/
def laps (greedy : Bool) (step : Cursor → List Cursor) : Nat → Cursor → List Cursor
  | 0, c => [c]
  | fuel + 1, c =>
    let further := (step c).flatMap (laps greedy step fuel)
    if greedy then further ++ [c] else c :: further

/-- All places where a match from `c` may end, the preferred first. -/
def ways : Pattern → Cursor → List Cursor
  | empty, c => [c]
  | char set, c =>
    match c.rest with
    | [] => []
    | d :: _ => if set.has d then [c.past [d]] else []
  | look test, c => if test.holds c.before c.rest then [c] else []
  | seq p q, c => (ways p c).flatMap (ways q)
  | alt p q, c => ways p c ++ ways q c
  | star greedy p, c => laps greedy (ways p) c.rest.length c
  | plus greedy p, c => (ways p c).flatMap fun d => laps greedy (ways p) d.rest.length d
  | group index p, c => (ways p c.enter).map (c.leave index)

theorem ways_char_of_nil {c : Cursor} (set : CharSet) (h : c.rest = []) :
    (char set).ways c = [] := by
  obtain ⟨before, rest, taken, groups⟩ := c
  obtain rfl : rest = [] := h
  rfl

theorem ways_char_of_cons {c : Cursor} {d : Char} {r : List Char} (set : CharSet)
    (h : c.rest = d :: r) : (char set).ways c = if set.has d then [c.past [d]] else [] := by
  obtain ⟨before, rest, taken, groups⟩ := c
  obtain rfl : rest = d :: r := h
  rfl

theorem ways_look (test : Look) (c : Cursor) :
    (look test).ways c = if test.holds c.before c.rest then [c] else [] := rfl

theorem ways_group (index : Nat) (p : Pattern) (c : Cursor) :
    (group index p).ways c = (p.ways c.enter).map (c.leave index) := rfl

theorem ways_star (greedy : Bool) (p : Pattern) (c : Cursor) :
    (star greedy p).ways c = laps greedy p.ways c.rest.length c := rfl

theorem ways_plus (greedy : Bool) (p : Pattern) (c : Cursor) :
    (plus greedy p).ways c = (p.ways c).flatMap (star greedy p).ways := rfl

/-! ### Agreement with the matches that note their forks -/

/-- What a match passes behind its last character are its own forks, and before its first
character those that were passed already. -/
theorem passed_of_mem_rounds {greedy : Bool} {fork m n : Nat} {step : State → List State}
    (h : ∀ s t, t ∈ step s → ∀ f ∈ t.passed, f ∈ s.passed ∨ m ≤ f ∧ f < n) (low : m ≤ fork)
    (high : fork < n) {fuel : Nat} {s t : State} (mem : t ∈ rounds greedy fork step fuel s) :
    ∀ f ∈ t.passed, f ∈ s.passed ∨ m ≤ f ∧ f < n := by
  induction fuel generalizing s with
  | zero => cases mem
  | succ fuel ih =>
    unfold rounds at mem
    split at mem
    · cases mem
    · next u hu =>
      have here : ∀ f ∈ u.passed, f ∈ s.passed ∨ m ≤ f ∧ f < n := by
        intro f hf
        rw [(State.pass?_eq_some.mp hu).2] at hf
        rcases List.mem_cons.mp hf with rfl | old
        · exact .inr ⟨low, high⟩
        · exact .inl old
      have cases : t = u ∨ ∃ v ∈ step u, t ∈ rounds greedy fork step fuel v := by
        cases greedy <;> simp at mem <;> grind
      rcases cases with rfl | ⟨v, hv, hvt⟩
      · exact here
      · intro f hf
        rcases ih hvt f hf with old | new
        · rcases h u v hv f old with old | new
          · exact here f old
          · exact .inr new
        · exact .inr new

theorem passed_of_mem_ends {n : Nat} {p : Pattern} {s t : State} (mem : t ∈ p.ends n s) :
    ∀ f ∈ t.passed, f ∈ s.passed ∨ n ≤ f ∧ f < n + p.forks := by
  induction p generalizing n s t with
  | empty =>
    rw [List.mem_singleton.mp mem]
    exact fun f hf => .inl hf
  | char set =>
    simp only [ends] at mem
    split at mem
    · cases mem
    · split at mem
      · rw [List.mem_singleton.mp mem]
        intro f hf
        cases hf
      · cases mem
  | look test =>
    simp only [ends] at mem
    split at mem
    · rw [List.mem_singleton.mp mem]
      exact fun f hf => .inl hf
    · cases mem
  | seq p q ihp ihq =>
    obtain ⟨u, hu, hut⟩ := List.mem_flatMap.mp mem
    intro f hf
    simp only [forks]
    rcases ihq hut f hf with old | new
    · rcases ihp hu f old with old | new
      · exact .inl old
      · exact .inr ⟨by omega, by omega⟩
    · exact .inr ⟨by omega, by omega⟩
  | alt p q ihp ihq =>
    simp only [ends] at mem
    split at mem
    · cases mem
    · next u hu =>
      intro f hf
      simp only [forks]
      have here : f ∈ u.passed → f ∈ s.passed ∨ n ≤ f ∧ f < n + (p.forks + q.forks + 1) := by
        rw [(State.pass?_eq_some.mp hu).2]
        intro hf
        rcases List.mem_cons.mp hf with rfl | old
        · exact .inr ⟨by omega, by omega⟩
        · exact .inl old
      rcases List.mem_append.mp mem with first | second
      · rcases ihp first f hf with old | new
        · exact here old
        · exact .inr ⟨by omega, by omega⟩
      · rcases ihq second f hf with old | new
        · exact here old
        · exact .inr ⟨by omega, by omega⟩
  | star greedy p ih =>
    refine passed_of_mem_rounds (fun s t hst f hf => ?_) (Nat.le_add_right _ _)
      (by simp [forks]) mem
    exact (ih hst f hf).imp_right fun new => ⟨new.1, by simp only [forks]; omega⟩
  | plus greedy p ih =>
    obtain ⟨u, hu, hut⟩ := List.mem_flatMap.mp mem
    have step (s t : State) (hst : t ∈ p.ends n s) (f : Nat) (hf : f ∈ t.passed) :
        f ∈ s.passed ∨ n ≤ f ∧ f < n + (plus greedy p).forks :=
      (ih hst f hf).imp_right fun new => ⟨new.1, by simp only [forks]; omega⟩
    intro f hf
    rcases passed_of_mem_rounds step (Nat.le_add_right _ _) (by simp [forks]) hut f
      hf with old | new
    · exact step s u hu f old
    · exact .inr new
  | group index p ih =>
    obtain ⟨u, hu, rfl⟩ := List.mem_map.mp mem
    intro f hf
    have same : (u.leave index).passed = u.passed := by
      unfold State.leave
      split <;> rfl
    rw [same] at hf
    exact ih hu f hf

/-- A match that ends in a character has consumed one, and has passed no fork since. -/
theorem passed_eq_nil_of_endsInChar {n : Nat} {p : Pattern} {s t : State}
    (last : p.endsInChar = true) (mem : t ∈ p.ends n s) :
    t.passed = [] ∧ t.rest.length < s.rest.length := by
  induction p generalizing n s t with
  | char set =>
    simp only [ends] at mem
    split at mem
    · cases mem
    · next c rest hrest =>
      split at mem
      · rw [List.mem_singleton.mp mem, hrest]
        exact ⟨rfl, Nat.lt_succ_self _⟩
      · cases mem
  | seq p q ihp ihq =>
    obtain ⟨u, hu, hut⟩ := List.mem_flatMap.mp mem
    obtain ⟨none, shorter⟩ := ihq last hut
    exact ⟨none, Nat.lt_of_lt_of_le shorter (reaches_of_mem_ends hu).length_le⟩
  | alt p q ihp ihq =>
    simp only [endsInChar, Bool.and_eq_true] at last
    simp only [ends] at mem
    split at mem
    · cases mem
    · next u hu =>
      have same : u.rest = s.rest := by rw [(State.pass?_eq_some.mp hu).2]
      rw [← same]
      rcases List.mem_append.mp mem with first | second
      · exact ihp last.1 first
      · exact ihq last.2 second
  | group index p ih =>
    obtain ⟨u, hu, rfl⟩ := List.mem_map.mp mem
    obtain ⟨none, shorter⟩ := ih last hu
    have same : (u.leave index).passed = u.passed := by
      unfold State.leave
      split <;> rfl
    exact ⟨same.trans none, by rw [State.leave_rest]; exact shorter⟩
  | empty => cases last
  | look test => cases last
  | star greedy p ih => cases last
  | plus greedy p ih => cases last

end Pattern

namespace State

/-- The state lies behind a beginning of the text `origin`, which starts behind `count`
characters. -/
def Placed (origin : List Char) (count : Nat) (s : State) : Prop :=
  ∃ w, origin = w ++ s.rest ∧ s.count = count + w.length

/-- A state as a cursor, for a group that began with the text `origin` behind `count` characters. -/
def view (origin : List Char) (count : Nat) (s : State) : Cursor :=
  ⟨s.before, s.rest, origin.take (s.count - count), s.groups.map fun g => (g.1, g.2.text)⟩

theorem Placed.of_reaches {origin : List Char} {count : Nat} {s t : State}
    (placed : Placed origin count s) (h : s.Reaches t) : Placed origin count t := by
  obtain ⟨v, hv, hcount⟩ := placed
  obtain ⟨w, hw, hcount', _⟩ := h
  refine ⟨v ++ w, by rw [hv, hw, List.append_assoc], ?_⟩
  rw [hcount', hcount, List.length_append, Nat.add_assoc]

theorem Placed.self (s : State) : Placed s.rest s.count s :=
  ⟨[], rfl, rfl⟩

theorem view_next {origin : List Char} {count : Nat} {s : State} {c : Char} {rest : List Char}
    (placed : Placed origin count s) (h : s.rest = c :: rest) :
    view origin count (s.next c rest) = (view origin count s).past [c] := by
  obtain ⟨w, rfl, hcount⟩ := placed
  have here : s.count - count = w.length := by omega
  have further : s.count + 1 - count = w.length + 1 := by omega
  have taken : (w ++ s.rest).take (w.length + 1) = w ++ [c] := by
    rw [h, List.take_length_add_append, List.take_succ_cons, List.take_zero]
  simp [view, State.next, Cursor.past, h, here, further, ← taken]

theorem view_leave {origin : List Char} {count : Nat} {s t : State} (index : Nat)
    (placed : Placed origin count s) (h : s.enter.Reaches t) :
    view origin count (t.leave index) =
      (view origin count s).leave index (view s.rest s.count t) := by
  obtain ⟨v, hv, hcount⟩ := placed
  obtain ⟨w, hw, hcount', hopened, _⟩ := h
  have opened : t.opened = (s.rest, s.count) :: s.opened := hopened
  have rest : s.rest = w ++ t.rest := hw
  have total : t.count = s.count + w.length := hcount'
  have outer : s.count - count = v.length := by omega
  have inner : t.count - s.count = w.length := by omega
  have both : t.count - count = (v ++ w).length := by rw [List.length_append]; omega
  unfold State.leave
  rw [opened]
  simp only [view, Cursor.leave, outer, inner, both, hv, rest, Capture.text, List.map_cons]
  simp only [← List.append_assoc, List.take_left]
  simp [List.append_assoc]

end State

namespace Pattern

/-- Neither the forks nor the fuel matter for a loop whose body ends in a character. -/
theorem view_rounds {greedy : Bool} {fork : Nat} {step : State → List State}
    {walk : Cursor → List Cursor} {origin : List Char} {count : Nat}
    (agree : ∀ s, State.Placed origin count s → (∀ f ∈ s.passed, fork ≤ f) →
      (step s).map (State.view origin count) = walk (State.view origin count s))
    (reach : ∀ s t, t ∈ step s → s.Reaches t)
    (clean : ∀ s t, t ∈ step s → t.passed = [] ∧ t.rest.length < s.rest.length)
    {fuel enough : Nat} {s : State} (placed : State.Placed origin count s)
    (fresh : ∀ f ∈ s.passed, fork < f) (big : s.rest.length < fuel)
    (long : s.rest.length ≤ enough) :
    (rounds greedy fork step fuel s).map (State.view origin count) =
      laps greedy walk enough (State.view origin count s) := by
  induction enough generalizing fuel s with
  | zero =>
    obtain ⟨fuel, rfl⟩ : ∃ k, fuel = k + 1 := ⟨fuel - 1, by omega⟩
    have pass : s.pass? fork = some { s with passed := fork :: s.passed } :=
      State.pass?_eq_some.mpr ⟨fun mem => Nat.lt_irrefl _ (fresh fork mem), rfl⟩
    -- Nothing is left to consume, so the body cannot match.
    have stuck : step { s with passed := fork :: s.passed } = [] := by
      refine List.eq_nil_iff_forall_not_mem.mpr fun t ht => ?_
      have : t.rest.length < s.rest.length := (clean _ t ht).2
      omega
    simp only [rounds, pass, stuck, List.flatMap_nil, laps]
    cases greedy <;> simp [State.view]
  | succ enough ih =>
    obtain ⟨fuel, rfl⟩ : ∃ k, fuel = k + 1 := ⟨fuel - 1, by omega⟩
    have pass : s.pass? fork = some { s with passed := fork :: s.passed } :=
      State.pass?_eq_some.mpr ⟨fun mem => Nat.lt_irrefl _ (fresh fork mem), rfl⟩
    have further : ((step { s with passed := fork :: s.passed }).flatMap
          (rounds greedy fork step fuel)).map (State.view origin count) =
        (walk (State.view origin count s)).flatMap (laps greedy walk enough) := by
      have body := agree { s with passed := fork :: s.passed } placed (by
        intro f hf
        rcases List.mem_cons.mp hf with rfl | old
        · exact Nat.le_refl _
        · exact Nat.le_of_lt (fresh f old))
      change _ = walk (State.view origin count s) at body
      rw [← body, List.map_flatMap, List.flatMap_map]
      refine flatMap_eq_of_forall fun t ht => ?_
      obtain ⟨none, shorter⟩ := clean _ t ht
      have shorter : t.rest.length < s.rest.length := shorter
      refine ih (State.Placed.of_reaches (s := { s with passed := fork :: s.passed }) placed
        (reach _ t ht)) ?_ (by omega) (by omega)
      rw [none]
      intro f hf
      cases hf
    simp only [rounds, pass, laps]
    cases greedy
    · simp only [Bool.false_eq_true, ↓reduceIte, List.map_cons, further]
      rfl
    · simp only [↓reduceIte, List.map_append, further]
      rfl

/-- The ways are the ends, as long as no fork of the pattern has been passed at the place. -/
theorem view_ends {p : Pattern} (tame : p.isTame = true) {n : Nat}
    {origin : List Char} {count : Nat} {s : State} (placed : State.Placed origin count s)
    (fresh : ∀ f ∈ s.passed, n + p.forks ≤ f) :
    (p.ends n s).map (State.view origin count) = p.ways (State.view origin count s) := by
  induction p generalizing n origin count s with
  | empty => rfl
  | char set =>
    simp only [ends, ways]
    cases hrest : s.rest with
    | nil => simp [State.view, hrest]
    | cons c rest =>
      have same : (State.view origin count s).rest = c :: rest := hrest
      rw [same]
      by_cases has : set.has c = true
      · simp [has, State.view_next placed hrest]
      · simp [has]
  | look test =>
    simp only [ends, ways]
    change _ = if test.holds s.before s.rest = true then _ else _
    split <;> rfl
  | seq p q ihp ihq =>
    simp only [isTame, Bool.and_eq_true] at tame
    simp only [forks] at fresh
    simp only [ends, ways]
    rw [← ihp (n := n + q.forks) tame.1 placed fun f hf => by have := fresh f hf; omega,
      List.map_flatMap, List.flatMap_map]
    refine flatMap_eq_of_forall fun t ht => ?_
    refine ihq tame.2 (placed.of_reaches (reaches_of_mem_ends ht)) fun f hf => ?_
    rcases passed_of_mem_ends ht f hf with old | new
    · have := fresh f old
      omega
    · exact new.1
  | alt p q ihp ihq =>
    simp only [isTame, Bool.and_eq_true] at tame
    simp only [forks] at fresh
    have pass : s.pass? (n + p.forks + q.forks) =
        some { s with passed := (n + p.forks + q.forks) :: s.passed } :=
      State.pass?_eq_some.mpr ⟨fun mem => by have := fresh _ mem; omega, rfl⟩
    have later (f : Nat) (hf : f ∈ (n + p.forks + q.forks) :: s.passed) :
        n + p.forks + q.forks ≤ f := by
      rcases List.mem_cons.mp hf with rfl | old
      · exact Nat.le_refl _
      · have := fresh f old
        omega
    simp only [ends, pass, ways, List.map_append]
    congr 1
    · exact ihp tame.1 (s := { s with passed := _ :: s.passed }) placed fun f hf => by
        have := later f hf
        omega
    · exact ihq tame.2 (s := { s with passed := _ :: s.passed }) placed fun f hf => later f hf
  | star greedy p ih =>
    simp only [isTame, Bool.and_eq_true] at tame
    simp only [forks] at fresh
    simp only [ends, ways, loop]
    refine view_rounds (fun t placed fresh => ih tame.2 placed fresh)
      (fun s t => reaches_of_mem_ends) (fun s t => passed_eq_nil_of_endsInChar tame.1) placed
      (fun f hf => by have := fresh f hf; omega) (Nat.lt_succ_self _) (Nat.le_refl _)
  | plus greedy p ih =>
    simp only [isTame, Bool.and_eq_true] at tame
    simp only [forks] at fresh
    simp only [ends, ways]
    rw [← ih (n := n) tame.2 placed fun f hf => by have := fresh f hf; omega, List.map_flatMap,
      List.flatMap_map]
    refine flatMap_eq_of_forall fun t ht => ?_
    obtain ⟨none, _⟩ := passed_eq_nil_of_endsInChar tame.1 ht
    refine view_rounds (fun t placed fresh => ih tame.2 placed fresh)
      (fun s t => reaches_of_mem_ends) (fun s t => passed_eq_nil_of_endsInChar tame.1)
      (placed.of_reaches (reaches_of_mem_ends ht)) ?_ (Nat.lt_succ_self _) (Nat.le_refl _)
    rw [none]
    intro f hf
    cases hf
  | group index p ih =>
    simp only [ends, ways, List.map_map]
    have inner := ih tame (State.Placed.self s.enter) fresh
    have same : State.view s.enter.rest s.enter.count s.enter =
        (State.view origin count s).enter := by
      simp [State.view, Cursor.enter, State.enter]
    rw [same] at inner
    rw [← inner, List.map_map]
    refine List.map_congr_left fun t ht => ?_
    exact State.view_leave index placed (reaches_of_mem_ends ht)

/-- The preferred match at a place is the first way. -/
theorem matchAt_eq_ways {p : Pattern} (tame : p.isTame = true) (before : Option Char)
    (rest : List Char) :
    p.matchAt before rest = (p.ways (.start before rest)).head?.map Cursor.toMatch := by
  have agree := view_ends tame (n := 0) (State.Placed.self (.start before rest))
    fun f (hf : f ∈ []) => by cases hf
  have origin : State.view rest 0 (.start before rest) = .start before rest := rfl
  change (p.ends 0 _).map (State.view rest 0) =
    p.ways (State.view rest 0 (.start before rest)) at agree
  rw [origin] at agree
  rw [← agree, List.head?_map, matchAt, Option.map_map]
  rfl

theorem isSome_matchAt_iff {p : Pattern} (tame : p.isTame = true) {before : Option Char}
    {s : List Char} : (p.matchAt before s).isSome = true ↔ ∃ e, e ∈ p.ways (.start before s) := by
  rw [matchAt_eq_ways tame]
  cases p.ways (.start before s) with
  | nil => simp
  | cons e es => simp

end Pattern

end Polyglot
