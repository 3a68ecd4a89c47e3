import Polyglot.Proofs.Ways

/-!
The ways of the parts that patterns are made of: a word, one character of a set, and a run of
characters of a set. For each of them there is a lemma that says which cursors are ways, and for the
runs there are lemmas that say which way comes first when a pattern goes on behind the run.
-/

namespace Polyglot.Pattern

/-! ### Sequences and words -/

theorem ways_seqAll_cons (p : Pattern) (ps : List Pattern) (c : Cursor) :
    (seqAll (p :: ps)).ways c = (p.ways c).flatMap (seqAll ps).ways := by
  cases ps with
  | nil => exact (List.flatMap_singleton' _).symm
  | cons q qs => rfl

theorem ways_seqAll_append (ps qs : List Pattern) (c : Cursor) :
    (seqAll (ps ++ qs)).ways c = ((seqAll ps).ways c).flatMap (seqAll qs).ways := by
  induction ps generalizing c with
  | nil => exact (List.flatMap_singleton _ _).symm
  | cons p ps ih =>
    rw [List.cons_append, ways_seqAll_cons, ways_seqAll_cons, List.flatMap_assoc]
    exact flatMap_eq_of_forall fun d _ => ih d

theorem ways_look_cons (test : Look) (qs : List Pattern) (c : Cursor) :
    (seqAll (look test :: qs)).ways c =
      if test.holds c.before c.rest then (seqAll qs).ways c else [] := by
  rw [ways_seqAll_cons, ways_look]
  split
  · rw [List.flatMap_singleton]
  · rfl

theorem ways_alt_cons (p q : Pattern) (qs : List Pattern) (c : Cursor) :
    (seqAll (alt p q :: qs)).ways c = (seqAll (p :: qs)).ways c ++ (seqAll (q :: qs)).ways c := by
  rw [ways_seqAll_cons, ways_seqAll_cons, ways_seqAll_cons]
  exact List.flatMap_append

theorem ways_char {set : CharSet} {c : Cursor} {d : Char} {r : List Char} (h : c.rest = d :: r)
    (has : set.has d = true) : (char set).ways c = [c.past [d]] := by
  rw [ways_char_of_cons set h, if_pos has]

theorem ways_char_eq_nil {set : CharSet} {c : Cursor} (h : c.rest.head?.any set.has = false) :
    (char set).ways c = [] := by
  cases hrest : c.rest with
  | nil => exact ways_char_of_nil set hrest
  | cons d r =>
    rw [hrest] at h
    have stop : set.has d = false := h
    simp [ways_char_of_cons set hrest, stop]

theorem mem_ways_char {set : CharSet} {c e : Cursor} :
    e ∈ (char set).ways c ↔ ∃ d r, c.rest = d :: r ∧ set.has d = true ∧ e = c.past [d] := by
  constructor
  · intro mem
    cases hrest : c.rest with
    | nil => simp [ways_char_of_nil set hrest] at mem
    | cons d r =>
      by_cases has : set.has d = true
      · rw [ways_char hrest has] at mem
        exact ⟨d, r, rfl, has, List.mem_singleton.mp mem⟩
      · simp [ways_char_of_cons set hrest, has] at mem
  · rintro ⟨d, r, hrest, has, rfl⟩
    simp [ways_char hrest has]

theorem ways_chars {c : Cursor} {w r : List Char} (h : c.rest = w ++ r) :
    (seqAll (chars w)).ways c = [c.past w] := by
  induction w generalizing c with
  | nil =>
    rw [Cursor.past_nil]
    rfl
  | cons d w ih =>
    have behind : (c.past [d]).rest = w ++ r := Cursor.rest_past h
    have further := ih behind
    rw [Cursor.past_past] at further
    rw [chars, List.map_cons, ways_seqAll_cons, ways_char h (by simp), List.flatMap_singleton]
    exact further

theorem ways_chars_eq_nil {c : Cursor} {w : List Char} (h : ¬ w <+: c.rest) :
    (seqAll (chars w)).ways c = [] := by
  induction w generalizing c with
  | nil => exact absurd List.nil_prefix h
  | cons d w ih =>
    rw [chars, List.map_cons, ways_seqAll_cons, List.flatMap_eq_nil_iff]
    intro e mem
    obtain ⟨d', r, hrest, has, rfl⟩ := mem_ways_char.mp mem
    obtain rfl : d' = d := by simpa using has
    refine ih fun begins => h ?_
    rw [Cursor.rest_past (w := [d']) hrest] at begins
    rw [hrest]
    exact List.cons_prefix_cons.mpr ⟨rfl, begins⟩

theorem mem_ways_chars {c d : Cursor} {w : List Char} :
    d ∈ (seqAll (chars w)).ways c ↔ ∃ r, c.rest = w ++ r ∧ d = c.past w := by
  constructor
  · intro mem
    by_cases begins : w <+: c.rest
    · obtain ⟨r, hr⟩ := begins
      rw [ways_chars hr.symm] at mem
      exact ⟨r, hr.symm, List.mem_singleton.mp mem⟩
    · rw [ways_chars_eq_nil begins] at mem
      cases mem
  · rintro ⟨r, hr, rfl⟩
    simp [ways_chars hr]

/-! ### Runs -/

section Runs

variable {set : CharSet}

theorem ways_star_char_cons (greedy : Bool) {c : Cursor} {d : Char} {r : List Char}
    (h : c.rest = d :: r) (has : set.has d = true) :
    (star greedy (char set)).ways c =
      if greedy then (star greedy (char set)).ways (c.past [d]) ++ [c]
      else c :: (star greedy (char set)).ways (c.past [d]) := by
  have behind : (c.past [d]).rest = r := Cursor.rest_past h
  have length : c.rest.length = (c.past [d]).rest.length + 1 := by rw [h, behind, List.length_cons]
  rw [ways_star, ways_star, length, laps, ways_char h has, List.flatMap_singleton]

theorem ways_star_char_stop (greedy : Bool) {c : Cursor} (h : c.rest.head?.any set.has = false) :
    (star greedy (char set)).ways c = [c] := by
  rw [ways_star]
  cases c.rest.length with
  | zero => rfl
  | succ fuel =>
    rw [laps, ways_char_eq_nil h]
    cases greedy <;> rfl

theorem ways_plus_char_cons (greedy : Bool) {c : Cursor} {d : Char} {r : List Char}
    (h : c.rest = d :: r) (has : set.has d = true) :
    (plus greedy (char set)).ways c = (star greedy (char set)).ways (c.past [d]) := by
  rw [ways_plus, ways_char h has, List.flatMap_singleton]

/-- The characters of a set at the beginning of a text belong to the run that the text begins
with. -/
theorem prefix_of_run {w r u s : List Char} (same : w ++ r = u ++ s)
    (all : ∀ d ∈ u, set.has d = true) (stop : r.head?.any set.has = false) : u <+: w := by
  induction w generalizing u with
  | nil =>
    cases u with
    | nil => exact List.nil_prefix
    | cons d u =>
      rw [List.nil_append] at same
      rw [same] at stop
      have := all d List.mem_cons_self
      simp [this] at stop
  | cons c w ih =>
    cases u with
    | nil => exact List.nil_prefix
    | cons d u =>
      simp only [List.cons_append, List.cons.injEq] at same
      obtain ⟨rfl, same⟩ := same
      exact List.cons_prefix_cons.mpr
        ⟨rfl, ih same fun e he => all e (List.mem_cons_of_mem _ he)⟩

theorem mem_ways_star_char {greedy : Bool} {c d : Cursor} :
    d ∈ (star greedy (char set)).ways c ↔
      ∃ w r, c.rest = w ++ r ∧ (∀ e ∈ w, set.has e = true) ∧ d = c.past w := by
  generalize hlen : c.rest.length = length
  induction length generalizing c with
  | zero =>
    have empty : c.rest = [] := List.eq_nil_of_length_eq_zero hlen
    rw [ways_star_char_stop greedy (by simp [empty]), List.mem_singleton]
    constructor
    · rintro rfl
      exact ⟨[], d.rest, rfl, by simp, by simp⟩
    · rintro ⟨w, r, hrest, -, rfl⟩
      rw [empty] at hrest
      obtain ⟨rfl, -⟩ := List.append_eq_nil_iff.mp hrest.symm
      simp
  | succ length ih =>
    obtain ⟨e, rest, hrest⟩ := List.exists_cons_of_length_eq_add_one hlen
    by_cases has : set.has e = true
    · have behind : (c.past [e]).rest = rest := Cursor.rest_past hrest
      have split : d ∈ (star greedy (char set)).ways c ↔
          d = c ∨ d ∈ (star greedy (char set)).ways (c.past [e]) := by
        rw [ways_star_char_cons greedy hrest has]
        cases greedy <;> simp [or_comm]
      rw [split, ih (by rw [behind]; simpa [hrest] using hlen)]
      constructor
      · rintro (rfl | ⟨w, r, hw, all, rfl⟩)
        · exact ⟨[], d.rest, rfl, by simp, by simp⟩
        · rw [behind] at hw
          refine ⟨e :: w, r, by rw [hrest, hw, List.cons_append], ?_, by rw [Cursor.past_past]; rfl⟩
          intro x hx
          rcases List.mem_cons.mp hx with rfl | later
          · exact has
          · exact all x later
      · rintro ⟨w, r, hw, all, rfl⟩
        cases w with
        | nil => exact .inl (by simp)
        | cons x w =>
          rw [hrest, List.cons_append, List.cons.injEq] at hw
          obtain ⟨rfl, hw⟩ := hw
          refine .inr ⟨w, r, by rw [behind, hw], fun y hy => all y (List.mem_cons_of_mem _ hy), ?_⟩
          rw [Cursor.past_past]
          rfl
    · have stop : c.rest.head?.any set.has = false := by simpa [hrest] using has
      rw [ways_star_char_stop greedy stop, List.mem_singleton]
      constructor
      · rintro rfl
        exact ⟨[], d.rest, rfl, by simp, by simp⟩
      · rintro ⟨w, r, hw, all, rfl⟩
        obtain rfl : w = [] := List.prefix_nil.mp
          (prefix_of_run (w := []) (r := c.rest) hw all stop)
        simp

theorem mem_ways_plus_char {greedy : Bool} {c d : Cursor} :
    d ∈ (plus greedy (char set)).ways c ↔
      ∃ w r, w ≠ [] ∧ c.rest = w ++ r ∧ (∀ e ∈ w, set.has e = true) ∧ d = c.past w := by
  constructor
  · intro mem
    obtain ⟨e, he, further⟩ := List.mem_flatMap.mp mem
    obtain ⟨x, r, hrest, has, rfl⟩ := mem_ways_char.mp he
    obtain ⟨w, r', hw, all, rfl⟩ := mem_ways_star_char.mp further
    rw [Cursor.rest_past (w := [x]) hrest] at hw
    refine ⟨x :: w, r', List.cons_ne_nil _ _, by rw [hrest, hw, List.cons_append], ?_,
      by rw [Cursor.past_past]; rfl⟩
    intro y hy
    rcases List.mem_cons.mp hy with rfl | later
    · exact has
    · exact all y later
  · rintro ⟨w, r, full, hw, all, rfl⟩
    obtain ⟨x, w, rfl⟩ := List.exists_cons_of_ne_nil full
    have hrest : c.rest = x :: (w ++ r) := hw
    rw [ways_plus_char_cons greedy hrest (all x List.mem_cons_self)]
    refine mem_ways_star_char.mpr ⟨w, r, Cursor.rest_past (w := [x]) hrest,
      fun y hy => all y (List.mem_cons_of_mem _ hy), ?_⟩
    rw [Cursor.past_past]
    rfl

variable {β : Type} {k : Cursor → List β}

/-- A greedy run gives characters back until the pattern behind it matches. -/
theorem flatMap_ways_star_greedy {c : Cursor} {w v r : List Char} (h : c.rest = w ++ v ++ r)
    (all : ∀ d ∈ w ++ v, set.has d = true) (stop : r.head?.any set.has = false)
    (fails : ∀ u, u ≠ [] → u <+: v → k (c.past (w ++ u)) = []) :
    ∃ more, ((star true (char set)).ways c).flatMap k = k (c.past w) ++ more := by
  induction w generalizing c with
  | nil =>
    rw [Cursor.past_nil]
    rw [List.nil_append] at h
    cases v with
    | nil =>
      refine ⟨[], ?_⟩
      rw [ways_star_char_stop true (by rw [h]; exact stop), List.flatMap_singleton, List.append_nil]
    | cons d v =>
      have has : set.has d = true := all d List.mem_cons_self
      have hrest : c.rest = d :: (v ++ r) := h
      have nothing : ((star true (char set)).ways (c.past [d])).flatMap k = [] := by
        refine List.flatMap_eq_nil_iff.mpr fun e he => ?_
        obtain ⟨u, s, hu, allu, rfl⟩ := mem_ways_star_char.mp he
        rw [Cursor.rest_past (w := [d]) hrest] at hu
        rw [Cursor.past_past]
        exact fails (d :: u) (List.cons_ne_nil _ _)
          (List.cons_prefix_cons.mpr ⟨rfl, prefix_of_run hu allu stop⟩)
      refine ⟨[], ?_⟩
      rw [ways_star_char_cons true hrest has, if_pos rfl, List.flatMap_append, nothing,
        List.flatMap_singleton, List.nil_append, List.append_nil]
  | cons d w ih =>
    have hrest : c.rest = d :: (w ++ v ++ r) := h
    have further := ih (c := c.past [d]) (Cursor.rest_past (w := [d]) hrest)
      (fun e he => all e (List.mem_cons_of_mem _ he))
      (fun u full begins => by
        rw [Cursor.past_past]
        exact fails u full begins)
    obtain ⟨more, hmore⟩ := further
    rw [Cursor.past_past] at hmore
    refine ⟨more ++ k c, ?_⟩
    rw [ways_star_char_cons true hrest (all d List.mem_cons_self), if_pos rfl, List.flatMap_append,
      hmore, List.flatMap_singleton, List.append_assoc]
    rfl

/-- A greedy run is taken whole if the pattern behind it cannot begin inside of it. -/
theorem flatMap_ways_star_whole {c : Cursor} {w r : List Char} (h : c.rest = w ++ r)
    (all : ∀ d ∈ w, set.has d = true) (stop : r.head?.any set.has = false)
    (fails : ∀ d, d.rest.head?.any set.has = true → k d = []) :
    ((star true (char set)).ways c).flatMap k = k (c.past w) := by
  induction w generalizing c with
  | nil => rw [ways_star_char_stop true (by rw [h]; exact stop),
    List.flatMap_singleton, Cursor.past_nil]
  | cons d w ih =>
    have has : set.has d = true := all d List.mem_cons_self
    have hrest : c.rest = d :: (w ++ r) := h
    have further := ih (c := c.past [d]) (Cursor.rest_past (w := [d]) hrest)
      fun e he => all e (List.mem_cons_of_mem _ he)
    rw [ways_star_char_cons true hrest has, if_pos rfl, List.flatMap_append, further,
      List.flatMap_singleton, fails c (by rw [hrest]; exact has), List.append_nil, Cursor.past_past]
    rfl

theorem flatMap_ways_plus_whole {c : Cursor} {w r : List Char} (full : w ≠ []) (h : c.rest = w ++ r)
    (all : ∀ d ∈ w, set.has d = true) (stop : r.head?.any set.has = false)
    (fails : ∀ d, d.rest.head?.any set.has = true → k d = []) :
    ((plus true (char set)).ways c).flatMap k = k (c.past w) := by
  obtain ⟨d, w, rfl⟩ := List.exists_cons_of_ne_nil full
  have hrest : c.rest = d :: (w ++ r) := h
  rw [ways_plus_char_cons true hrest (all d List.mem_cons_self),
    flatMap_ways_star_whole (Cursor.rest_past (w := [d]) hrest)
      (fun e he => all e (List.mem_cons_of_mem _ he)) stop fails, Cursor.past_past]
  rfl

/-- A lazy run grows until the pattern behind it matches. -/
theorem flatMap_ways_star_lazy {c : Cursor} {w r : List Char} (h : c.rest = w ++ r)
    (all : ∀ d ∈ w, set.has d = true)
    (fails : ∀ u, u <+: w → u ≠ w → k (c.past u) = []) :
    ∃ more, ((star false (char set)).ways c).flatMap k = k (c.past w) ++ more := by
  induction w generalizing c with
  | nil =>
    rw [Cursor.past_nil]
    cases hrest : c.rest with
    | nil =>
      refine ⟨[], ?_⟩
      rw [ways_star_char_stop false (by simp [hrest]), List.flatMap_singleton, List.append_nil]
    | cons d r =>
      by_cases has : set.has d = true
      · rw [ways_star_char_cons false hrest has, if_neg (by simp), List.flatMap_cons]
        exact ⟨_, rfl⟩
      · refine ⟨[], ?_⟩
        rw [ways_star_char_stop false (by simpa [hrest] using has), List.flatMap_singleton,
          List.append_nil]
  | cons d w ih =>
    have hrest : c.rest = d :: (w ++ r) := h
    have here : k c = [] := by simpa using fails [] List.nil_prefix (by simp)
    obtain ⟨more, hmore⟩ := ih (c := c.past [d]) (Cursor.rest_past (w := [d]) hrest)
      (fun e he => all e (List.mem_cons_of_mem _ he))
      (fun u begins short => by
        rw [Cursor.past_past]
        exact fails (d :: u) (List.cons_prefix_cons.mpr ⟨rfl, begins⟩) (by simpa using short))
    rw [Cursor.past_past] at hmore
    refine ⟨more, ?_⟩
    rw [ways_star_char_cons false hrest (all d List.mem_cons_self), if_neg (by simp),
      List.flatMap_cons, here, List.nil_append, hmore]
    rfl

end Runs

/-! ### Sequences that go on behind a run

A run is taken whole if what follows it bars the set of the run: if it cannot begin with a character
of the set. -/

/-- No match of the sequence begins with a character of the set. -/
def Bars (qs : List Pattern) (set : CharSet) : Prop :=
  ∀ d : Cursor, d.rest.head?.any set.has = true → (seqAll qs).ways d = []

section Bars

variable {set other : CharSet} {qs : List Pattern}

theorem bars_chars {x : Char} (w : List Char) (h : set.has x = false) :
    Bars (chars (x :: w) ++ qs) set := by
  intro d hd
  rw [ways_seqAll_append, ways_chars_eq_nil]
  · rfl
  · intro begins
    obtain ⟨r, hr⟩ := begins
    rw [← hr] at hd
    simp [h] at hd

theorem bars_char (h : ∀ x, set.has x = true → other.has x = false) :
    Bars (char other :: qs) set := by
  intro d hd
  rw [ways_seqAll_cons, ways_char_eq_nil]
  · rfl
  · cases hrest : d.rest with
    | nil => rfl
    | cons x r =>
      rw [hrest] at hd
      exact h x hd

theorem bars_word {x : Char} (w : List Char) (h : set.has x = false) :
    Bars (seqAll (chars (x :: w)) :: qs) set := by
  intro d hd
  have none : (seqAll (chars (x :: w) ++ [])).ways d = [] := bars_chars w h d hd
  rw [List.append_nil] at none
  rw [ways_seqAll_cons, none]
  rfl

theorem bars_single {x : Char} (h : set.has x = false) : Bars (char (.single x) :: qs) set :=
  bars_chars [] h

theorem bars_plus (greedy : Bool) (h : ∀ x, set.has x = true → other.has x = false) :
    Bars (plus greedy (char other) :: qs) set := by
  intro d hd
  have none : (char other).ways d = [] := by
    cases hrest : d.rest with
    | nil => exact ways_char_eq_nil (by rw [hrest]; rfl)
    | cons x r =>
      rw [hrest] at hd
      exact ways_char_eq_nil (by rw [hrest]; exact h x hd)
  rw [ways_seqAll_cons, ways_plus, none]
  rfl

/-- A run that may be empty bars a set if its own characters are others and what follows it bars the
set. -/
theorem Bars.star (greedy : Bool) (bars : Bars qs set)
    (h : ∀ x, set.has x = true → other.has x = false) :
    Bars (star greedy (char other) :: qs) set := by
  intro d hd
  have stop : d.rest.head?.any other.has = false := by
    cases hrest : d.rest with
    | nil => rfl
    | cons x r =>
      rw [hrest] at hd
      exact h x hd
  rw [ways_seqAll_cons, ways_star_char_stop greedy stop, List.flatMap_singleton]
  exact bars d hd

theorem Bars.alt {p q : Pattern} (hp : Bars (p :: qs) set) (hq : Bars (q :: qs) set) :
    Bars (alt p q :: qs) set := by
  intro d hd
  rw [ways_alt_cons, hp d hd, hq d hd]
  rfl

theorem Bars.group {p : Pattern} (index : Nat) (h : Bars [p] set) :
    Bars (group index p :: qs) set := by
  intro d hd
  have none : p.ways d.enter = [] := h d.enter hd
  rw [ways_seqAll_cons, ways_group, none]
  rfl

theorem ways_chars_append {c : Cursor} {w r : List Char} (h : c.rest = w ++ r) :
    (seqAll (chars w ++ qs)).ways c = (seqAll qs).ways (c.past w) := by
  rw [ways_seqAll_append, ways_chars h, List.flatMap_singleton]

/-- A word in brackets. -/
theorem ways_word_cons {c : Cursor} {w r : List Char} (h : c.rest = w ++ r) :
    (seqAll (seqAll (chars w) :: qs)).ways c = (seqAll qs).ways (c.past w) := by
  rw [ways_seqAll_cons, ways_chars h, List.flatMap_singleton]

theorem ways_word_cons_eq_nil {c : Cursor} {w : List Char} (h : ¬ w <+: c.rest) :
    (seqAll (seqAll (chars w) :: qs)).ways c = [] := by
  rw [ways_seqAll_cons, ways_chars_eq_nil h, List.flatMap_nil]

theorem ways_char_cons {c : Cursor} {d : Char} {r : List Char} (h : c.rest = d :: r)
    (has : set.has d = true) :
    (seqAll (char set :: qs)).ways c = (seqAll qs).ways (c.past [d]) := by
  rw [ways_seqAll_cons, ways_char h has, List.flatMap_singleton]

theorem ways_star_cons (set : CharSet) {c : Cursor} {w r : List Char} (bars : Bars qs set)
    (h : c.rest = w ++ r) (all : ∀ d ∈ w, set.has d = true) (stop : r.head?.any set.has = false) :
    (seqAll (star true (char set) :: qs)).ways c = (seqAll qs).ways (c.past w) := by
  rw [ways_seqAll_cons]
  exact flatMap_ways_star_whole h all stop bars

theorem ways_plus_cons (set : CharSet) {c : Cursor} {w r : List Char}
    (bars : Bars qs set) (full : w ≠ []) (h : c.rest = w ++ r) (all : ∀ d ∈ w, set.has d = true)
    (stop : r.head?.any set.has = false) :
    (seqAll (plus true (char set) :: qs)).ways c = (seqAll qs).ways (c.past w) := by
  rw [ways_seqAll_cons]
  exact flatMap_ways_plus_whole full h all stop bars

theorem ways_group_cons (index : Nat) (p : Pattern) (c : Cursor) :
    (seqAll (group index p :: qs)).ways c =
      (p.ways c.enter).flatMap fun d => (seqAll qs).ways (c.leave index d) := by
  rw [ways_seqAll_cons, ways_group, List.flatMap_map]

/-- A group that is the start of the text, or else one character. -/
theorem ways_edge_cons (index : Nat) (set : CharSet) (qs : List Pattern) (c : Cursor) :
    (seqAll (group index (alt (look .textStart) (char set)) :: qs)).ways c =
      (if c.before = none then (seqAll qs).ways (c.noting index []) else []) ++
        ((char set).ways c.enter).flatMap fun d => (seqAll qs).ways (c.leave index d) := by
  have start :
      (look .textStart).ways c.enter = if c.before = none then [c.enter.past []] else [] := by
    rw [ways_look, Cursor.past_nil]
    change (if c.before.isNone = true then [c.enter] else []) = _
    simp only [Option.isNone_iff_eq_none]
  rw [ways_group_cons]
  change ((look .textStart).ways c.enter ++ (char set).ways c.enter).flatMap _ = _
  rw [List.flatMap_append, start]
  split
  · rw [List.flatMap_singleton, Cursor.leave_past_enter]
  · rfl

theorem ways_group_star_cons {c : Cursor} {w r : List Char} (index : Nat) (bars : Bars qs set)
    (h : c.rest = w ++ r) (all : ∀ d ∈ w, set.has d = true) (stop : r.head?.any set.has = false) :
    (seqAll (group index (star true (char set)) :: qs)).ways c =
      (seqAll qs).ways (c.noting index w) := by
  rw [ways_group_cons, ← Cursor.leave_past_enter]
  exact flatMap_ways_star_whole h all stop fun d hd => bars (c.leave index d) hd

theorem ways_group_plus_cons {c : Cursor} {w r : List Char} (index : Nat) (bars : Bars qs set)
    (full : w ≠ []) (h : c.rest = w ++ r) (all : ∀ d ∈ w, set.has d = true)
    (stop : r.head?.any set.has = false) :
    (seqAll (group index (plus true (char set)) :: qs)).ways c =
      (seqAll qs).ways (c.noting index w) := by
  rw [ways_group_cons, ← Cursor.leave_past_enter]
  exact flatMap_ways_plus_whole full h all stop fun d hd => bars (c.leave index d) hd

/-- A group of two runs of different characters is taken whole too. -/
theorem ways_group_plus_star_cons {c : Cursor} {w v r : List Char} (index : Nat)
    (bars : Bars qs set) (barsOther : Bars qs other)
    (apart : ∀ x, set.has x = true → other.has x = false) (full : w ≠ [])
    (h : c.rest = w ++ (v ++ r)) (all : ∀ d ∈ w, set.has d = true)
    (others : ∀ d ∈ v, other.has d = true)
    (stop : (v ++ r).head?.any set.has = false) (stopOther : r.head?.any other.has = false) :
    (seqAll (group index (seqAll [plus true (char set), star true (char other)]) :: qs)).ways c =
      (seqAll qs).ways (c.noting index (w ++ v)) := by
  have entered : c.enter.rest = w ++ (v ++ r) := h
  rw [ways_group_cons, ways_seqAll_cons, List.flatMap_assoc,
    flatMap_ways_plus_whole full entered all stop]
  · rw [← Cursor.leave_past_enter, ← Cursor.past_past]
    exact flatMap_ways_star_whole (Cursor.rest_past entered) others stopOther fun d hd =>
      barsOther (c.leave index d) hd
  · intro d hd
    refine List.flatMap_eq_nil_iff.mpr fun e he => ?_
    have stopped : d.rest.head?.any other.has = false := by
      cases hrest : d.rest with
      | nil => rfl
      | cons x s =>
        rw [hrest] at hd
        exact apart x hd
    obtain rfl : e = d := by
      rw [show (seqAll [star true (char other)]).ways d = [d] from
        ways_star_char_stop true stopped] at he
      exact List.mem_singleton.mp he
    exact bars (c.leave index e) hd

/-- A greedy group gives characters back until what follows it matches. -/
theorem ways_group_plus_greedy_cons {c : Cursor} {w v r : List Char} (index : Nat) (full : w ≠ [])
    (h : c.rest = w ++ v ++ r) (all : ∀ d ∈ w ++ v, set.has d = true)
    (stop : r.head?.any set.has = false)
    (fails : ∀ u, u ≠ [] → u <+: v → (seqAll qs).ways (c.noting index (w ++ u)) = []) :
    ∃ more, (seqAll (group index (plus true (char set)) :: qs)).ways c =
      (seqAll qs).ways (c.noting index w) ++ more := by
  obtain ⟨d, w, rfl⟩ := List.exists_cons_of_ne_nil full
  have hrest : c.enter.rest = d :: (w ++ v ++ r) := h
  rw [ways_group_cons, ways_plus_char_cons true hrest (all d List.mem_cons_self)]
  have shrunk := flatMap_ways_star_greedy (k := fun e => (seqAll qs).ways (c.leave index e))
    (Cursor.rest_past (w := [d]) hrest) (fun e he => all e (List.mem_cons_of_mem _ he)) stop
    fun u some begins => by
      rw [Cursor.past_past, Cursor.leave_past_enter]
      exact fails u some begins
  rwa [Cursor.past_past, Cursor.leave_past_enter] at shrunk

/-- A lazy group grows until what follows it matches. -/
theorem ways_group_plus_lazy_cons {c : Cursor} {w r : List Char} (index : Nat) (full : w ≠ [])
    (h : c.rest = w ++ r) (all : ∀ d ∈ w, set.has d = true)
    (fails : ∀ u, u ≠ [] → u <+: w → u ≠ w → (seqAll qs).ways (c.noting index u) = []) :
    ∃ more, (seqAll (group index (plus false (char set)) :: qs)).ways c =
      (seqAll qs).ways (c.noting index w) ++ more := by
  obtain ⟨d, w, rfl⟩ := List.exists_cons_of_ne_nil full
  have hrest : c.enter.rest = d :: (w ++ r) := h
  rw [ways_group_cons, ways_plus_char_cons false hrest (all d List.mem_cons_self)]
  have grown := flatMap_ways_star_lazy (k := fun e => (seqAll qs).ways (c.leave index e))
    (Cursor.rest_past (w := [d]) hrest) (fun e he => all e (List.mem_cons_of_mem _ he))
    fun u begins short => by
      rw [Cursor.past_past, Cursor.leave_past_enter]
      exact fails (d :: u) (List.cons_ne_nil _ _) (List.cons_prefix_cons.mpr ⟨rfl, begins⟩)
        (by simpa using short)
  rwa [Cursor.past_past, Cursor.leave_past_enter] at grown

theorem ways_group_chars_cons {c : Cursor} {w r : List Char} (index : Nat) (h : c.rest = w ++ r) :
    (seqAll (group index (seqAll (chars w)) :: qs)).ways c =
    (seqAll qs).ways (c.noting index w) := by
  rw [ways_group_cons, ways_chars (c := c.enter) h, List.flatMap_singleton, Cursor.leave_past_enter]

end Bars

/-! ### What a sequence has read -/

section Reading

variable {set : CharSet} {qs : List Pattern} {c e : Cursor}

theorem mem_ways_chars_append {w : List Char} (mem : e ∈ (seqAll (chars w ++ qs)).ways c) :
    ∃ r, c.rest = w ++ r ∧ (c.past w).rest = r ∧ e ∈ (seqAll qs).ways (c.past w) := by
  rw [ways_seqAll_append] at mem
  obtain ⟨d, hd, further⟩ := List.mem_flatMap.mp mem
  obtain ⟨r, hr, rfl⟩ := mem_ways_chars.mp hd
  exact ⟨r, hr, Cursor.rest_past hr, further⟩

theorem mem_ways_char_cons (mem : e ∈ (seqAll (char set :: qs)).ways c) :
    ∃ d r, c.rest = d :: r ∧ (c.past [d]).rest = r ∧ set.has d = true ∧
      e ∈ (seqAll qs).ways (c.past [d]) := by
  rw [ways_seqAll_cons] at mem
  obtain ⟨d, hd, further⟩ := List.mem_flatMap.mp mem
  obtain ⟨x, r, hr, has, rfl⟩ := mem_ways_char.mp hd
  exact ⟨x, r, hr, Cursor.rest_past (w := [x]) hr, has, further⟩

theorem mem_ways_star_cons {greedy : Bool}
    (mem : e ∈ (seqAll (star greedy (char set) :: qs)).ways c) :
    ∃ w r, c.rest = w ++ r ∧ (c.past w).rest = r ∧ (∀ x ∈ w, set.has x = true) ∧
      e ∈ (seqAll qs).ways (c.past w) := by
  rw [ways_seqAll_cons] at mem
  obtain ⟨d, hd, further⟩ := List.mem_flatMap.mp mem
  obtain ⟨w, r, hr, all, rfl⟩ := mem_ways_star_char.mp hd
  exact ⟨w, r, hr, Cursor.rest_past hr, all, further⟩

theorem mem_ways_plus_cons {greedy : Bool}
    (mem : e ∈ (seqAll (plus greedy (char set) :: qs)).ways c) :
    ∃ w r, w ≠ [] ∧ c.rest = w ++ r ∧ (c.past w).rest = r ∧ (∀ x ∈ w, set.has x = true) ∧
      e ∈ (seqAll qs).ways (c.past w) := by
  rw [ways_seqAll_cons] at mem
  obtain ⟨d, hd, further⟩ := List.mem_flatMap.mp mem
  obtain ⟨w, r, full, hr, all, rfl⟩ := mem_ways_plus_char.mp hd
  exact ⟨w, r, full, hr, Cursor.rest_past hr, all, further⟩

theorem mem_ways_group_star_cons {greedy : Bool} {index : Nat}
    (mem : e ∈ (seqAll (group index (star greedy (char set)) :: qs)).ways c) :
    ∃ w r, c.rest = w ++ r ∧ (c.noting index w).rest = r ∧ (∀ x ∈ w, set.has x = true) ∧
      e ∈ (seqAll qs).ways (c.noting index w) := by
  rw [ways_group_cons] at mem
  obtain ⟨d, hd, further⟩ := List.mem_flatMap.mp mem
  obtain ⟨w, r, hr, all, rfl⟩ := mem_ways_star_char.mp hd
  exact ⟨w, r, hr, Cursor.rest_noting index hr, all, further⟩

theorem mem_ways_group_plus_cons {greedy : Bool} {index : Nat}
    (mem : e ∈ (seqAll (group index (plus greedy (char set)) :: qs)).ways c) :
    ∃ w r, w ≠ [] ∧ c.rest = w ++ r ∧ (c.noting index w).rest = r ∧ (∀ x ∈ w, set.has x = true) ∧
      e ∈ (seqAll qs).ways (c.noting index w) := by
  rw [ways_group_cons] at mem
  obtain ⟨d, hd, further⟩ := List.mem_flatMap.mp mem
  obtain ⟨w, r, full, hr, all, rfl⟩ := mem_ways_plus_char.mp hd
  exact ⟨w, r, full, hr, Cursor.rest_noting index hr, all, further⟩

theorem mem_ways_group_chars_cons {index : Nat} {w : List Char}
    (mem : e ∈ (seqAll (group index (seqAll (chars w)) :: qs)).ways c) :
    ∃ r, c.rest = w ++ r ∧ (c.noting index w).rest = r ∧
      e ∈ (seqAll qs).ways (c.noting index w) := by
  rw [ways_group_cons] at mem
  obtain ⟨d, hd, further⟩ := List.mem_flatMap.mp mem
  obtain ⟨r, hr, rfl⟩ := mem_ways_chars.mp hd
  exact ⟨r, hr, Cursor.rest_noting index hr, further⟩

end Reading

end Polyglot.Pattern
