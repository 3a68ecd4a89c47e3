import Mathlib.Data.Nat.Find
import Polyglot.Proofs.Keywords
import Polyglot.Proofs.Replacement
import Polyglot.Ruleset.Php

/-!
Exception names that are put into a namespace. The rule looks for a listed name behind a blank and
before any character that is not blank. Of the places where it could begin it takes the first, from
there on it goes as far as no small letter stands in between, and of the names that fit there it
takes the longest (`apply_of_taken`).

Nothing asks for the end of a word behind the name. So names are changed as a whole exactly if no
name that is taken is followed by a letter, a digit or an underscore (`errorNamesRule_wraps`).
-/

namespace Polyglot

open Pattern Text

namespace Pattern

theorem ways_altAll {ps : List Pattern} (full : ps ≠ []) (c : Cursor) :
    (altAll ps).ways c = ps.flatMap (·.ways c) := by
  induction ps with
  | nil => exact absurd rfl full
  | cons p ps ih =>
    cases ps with
    | nil => simp [altAll]
    | cons q ps =>
      change p.ways c ++ (altAll (q :: ps)).ways c = _
      rw [ih (List.cons_ne_nil q ps)]
      rfl

theorem isTame_altAll (ps : List Pattern) : (altAll ps).isTame = ps.all isTame := by
  induction ps with
  | nil => rfl
  | cons p ps ih =>
    cases ps with
    | nil => simp [altAll]
    | cons q ps =>
      change (p.isTame && (altAll (q :: ps)).isTame) = _
      rw [ih]
      rfl

theorem looks_altAll (ps : List Pattern) : (altAll ps).looks = ps.any looks := by
  induction ps with
  | nil => rfl
  | cons p ps ih =>
    cases ps with
    | nil => simp [altAll]
    | cons q ps =>
      change (p.looks || (altAll (q :: ps)).looks) = _
      rw [ih]
      rfl

end Pattern

namespace Ruleset

/-! ### Places of names -/

/-- A listed name stands in a text behind a blank that no small letter precedes, and before a
character that is not blank. -/
structure Site (names : List String) (s u : List Char) (name : String) (c : Char) (r : List Char) :
    Prop where
  whole : s = u ++ (name.toList ++ c :: r)
  listed : name ∈ names
  lead : ∃ w x, u = w ++ [x, ' '] ∧ x.isLower = false
  solid : isBlank c = false

/-- The site that the rule takes: the longest name there, at the last of the sites that no small
letter divides from the first one. -/
structure Taken (names : List String) (s u : List Char) (name : String) (c : Char) (r : List Char) :
    Prop extends Site names s u name c r where
  longest : ∀ name' c' r', Site names s u name' c' r' → name'.toList.length ≤ name.toList.length
  joined : ∀ u' m name' c' r', Site names s u' name' c' r' → u = u' ++ m →
    ∀ d ∈ m, d.isLower = false
  last : ∀ u' m name' c' r', Site names s u' name' c' r' → u' = u ++ m → m ≠ [] →
    ∃ d ∈ m, d.isLower = true

/-- A number with a property is the greatest one, if the property has a bound. -/
theorem exists_greatest {P : Nat → Prop} (bound : Nat) (some : ∃ n, P n)
    (below : ∀ n, P n → n ≤ bound) : ∃ n, P n ∧ ∀ m, P m → m ≤ n := by
  classical
  obtain ⟨n, hn⟩ := some
  exact ⟨Nat.findGreatest P bound, Nat.findGreatest_spec (below n hn) hn,
    fun m hm => Nat.le_findGreatest (below m hm) hm⟩

/-- If a name stands in a text, one of them is taken. -/
theorem exists_taken {names : List String} {s u : List Char} {name : String}
    {c : Char} {r : List Char} (h : Site names s u name c r) :
    ∃ u name c r, Taken names s u name c r := by
  classical
  -- the first site
  have some : ∃ n u name c r, Site names s u name c r ∧ u.length = n := ⟨_, u, name, c, r, h, rfl⟩
  obtain ⟨u₀, name₀, c₀, r₀, site₀, length₀⟩ := Nat.find_spec some
  -- the last one that no small letter divides from it
  obtain ⟨_, ⟨u₁, m₁, name₁, c₁, r₁, site₁, rfl, high, rfl⟩, greatest⟩ :=
    exists_greatest (P := fun n => ∃ u m name c r, Site names s u name c r ∧ u = u₀ ++ m ∧
      (∀ d ∈ m, d.isLower = false) ∧ u.length = n) s.length
      ⟨_, u₀, [], name₀, c₀, r₀, site₀, (List.append_nil u₀).symm, List.forall_mem_nil _, rfl⟩
      (by
        rintro n ⟨u, m, name, c, r, site, -, -, rfl⟩
        rw [site.whole, List.length_append]
        omega)
  -- the longest name there
  obtain ⟨_, ⟨name₂, c₂, r₂, site₂, rfl⟩, longest⟩ :=
    exists_greatest (P := fun n => ∃ name c r, Site names s (u₀ ++ m₁) name c r ∧
      name.toList.length = n) s.length ⟨_, name₁, c₁, r₁, site₁, rfl⟩
      (by
        rintro n ⟨name, c, r, site, rfl⟩
        rw [site.whole]
        simp only [List.length_append]
        omega)
  refine ⟨u₀ ++ m₁, name₂, c₂, r₂, site₂, fun name c r site => longest _ ⟨name, c, r,
    site, rfl⟩, ?_, ?_⟩
  · intro u m name c r site same d hd
    have later : u₀.length ≤ u.length := length₀ ▸ Nat.find_min' some ⟨u, name, c, r, site, rfl⟩
    obtain ⟨m', rfl⟩ : u₀ <+: u := List.prefix_of_prefix_length_le ⟨m₁, rfl⟩ ⟨m, same.symm⟩ later
    rw [List.append_assoc, List.append_cancel_left_eq] at same
    exact high d (same ▸ List.mem_append_right m' hd)
  · intro u m name c r site same full
    refine Classical.byContradiction fun none => ?_
    have all : ∀ d ∈ m₁ ++ m, d.isLower = false := by
      intro d hd
      rcases List.mem_append.mp hd with front | behind
      · exact high d front
      · exact Bool.eq_false_iff.mpr fun lower => none ⟨d, behind, lower⟩
    have short :=
      greatest _ ⟨u, m₁ ++ m, name, c, r, site, by rw [same, List.append_assoc], all, rfl⟩
    rw [same, List.length_append] at short
    exact full (List.length_eq_zero_iff.mp (by omega))

/-! ### What the rule finds -/

/-- Every character but small letters. -/
def besideSmall : CharSet :=
  .compl (.ofItems [.range 'a' 'z'])

theorem has_besideSmall (c : Char) : besideSmall.has c = !c.isLower := by
  delta Char.isLower
  simp [besideSmall, CharSet.ofItems, CharSet.has, Char.le_def]

/-- What follows the run of characters before a name. -/
def nameParts (names : List String) : List Pattern :=
  chars [' '] ++
    [group 2 (altAll ((sortBy nameLe names).map fun name => seqAll (chars name.toList))),
    group 3 (char (.compl .blank))]

/-- The ways past one name and the character behind it. -/
def nameWays (c : Cursor) (name : String) : List Cursor :=
  ((seqAll (chars name.toList)).ways c.enter).flatMap fun e =>
    (seqAll [group 3 (char (.compl .blank))]).ways (c.leave 2 e)

theorem pattern_errorNamesRule (names : List String) : (errorNamesRule names).matcher.pattern =
    seqAll (group 1 (plus true (char besideSmall)) :: nameParts names) := rfl

/-- A text begins with a site, with the characters before it. -/
structure Fits (names : List String) (v w : List Char) (name : String) (c : Char) (r : List Char) :
    Prop where
  whole : v = w ++ ' ' :: (name.toList ++ c :: r)
  full : w ≠ []
  high : ∀ d ∈ w, d.isLower = false
  listed : name ∈ names
  solid : isBlank c = false

theorem Fits.site {names : List String} {v w : List Char} {name : String} {c : Char} {r : List Char}
    (h : Fits names v w name c r) (a : List Char) :
    Site names (a ++ v) (a ++ (w ++ [' '])) name c r := by
  refine ⟨by rw [h.whole]; simp, h.listed, ?_, h.solid⟩
  obtain ⟨w', x, rfl⟩ := (List.eq_nil_or_concat w).resolve_left h.full
  exact ⟨a ++ w', x, by simp, h.high x (by simp)⟩

/-- Of two beginnings of one text the one with fewer characters has fewer bytes. -/
theorem eq_of_utf8ByteSize_le {a b : String} {t : List Char} (ha : a.toList <+: t)
    (hb : b.toList <+: t) (short : a.toList.length ≤ b.toList.length)
    (size : b.utf8ByteSize ≤ a.utf8ByteSize) : a = b := by
  obtain ⟨q, hq⟩ := List.prefix_of_prefix_length_le ha hb short
  have whole : b = a ++ String.ofList q := by
    rw [← String.ofList_toList (s := b), ← hq, String.ofList_append, String.ofList_toList]
  have none : String.ofList q = "" := by
    rw [← String.utf8ByteSize_eq_zero_iff]
    rw [whole, String.utf8ByteSize_append] at size
    omega
  rw [whole, none, String.append_empty]

theorem pairwise_nameLe (names : List String) :
    (sortBy nameLe names).Pairwise fun a b => b.utf8ByteSize ≤ a.utf8ByteSize := by
  refine pairwise_sortBy (R := fun a b => b.utf8ByteSize ≤ a.utf8ByteSize) (fun a b before => ?_)
    (fun a b behind => ?_) (fun a b c hab hbc => Nat.le_trans hbc hab) names
  · simp only [nameLe, Bool.or_eq_true, decide_eq_true_eq, Bool.and_eq_true, beq_iff_eq] at before
    omega
  · simp only [nameLe, Bool.or_eq_false_iff, decide_eq_false_iff_not] at behind
    omega

section Search

variable {names : List String}

theorem isTame_errorNamesRule : (errorNamesRule names).matcher.pattern.isTame = true := by
  rw [pattern_errorNamesRule, nameParts]
  simp [isTame, isTame_altAll, endsInChar]

theorem blind_errorNamesRule : (errorNamesRule names).matcher.pattern.looks = false := by
  rw [pattern_errorNamesRule, nameParts]
  simp [looks, looks_altAll]

theorem solid_errorNamesRule : (errorNamesRule names).matcher.pattern.nullable = false := by
  rw [pattern_errorNamesRule, nullable_seqAll]
  rfl

theorem rest_of_mem_nameWays {c e : Cursor} {name : String} (mem : e ∈ nameWays c name) :
    ∃ x r, c.rest = name.toList ++ x :: r ∧ isBlank x = false := by
  obtain ⟨d, hd, mem⟩ := List.mem_flatMap.mp mem
  obtain ⟨r, hr, rfl⟩ := mem_ways_chars.mp hd
  have rest : c.rest = name.toList ++ r := hr
  rw [Cursor.leave_past_enter, ways_group_cons] at mem
  obtain ⟨d, hd, -⟩ := List.mem_flatMap.mp mem
  obtain ⟨x, r', hr', has, -⟩ := mem_ways_char.mp hd
  have behind : r = x :: r' := (Cursor.rest_noting 2 rest).symm.trans hr'
  have solid : CharSet.blank.has x = false := by simpa using has
  exact ⟨x, r', behind ▸ rest, solid⟩

theorem nameWays_of_rest {c : Cursor} {name : String} {x : Char} {r : List Char}
    (h : c.rest = name.toList ++ x :: r) (solid : isBlank x = false) :
    nameWays c name = [(c.noting 2 name.toList).noting 3 [x]] := by
  have has : (CharSet.compl .blank).has x = true := by
    rw [CharSet.has_compl, show CharSet.blank.has x = false from solid]
    rfl
  rw [nameWays, ways_chars (c := c.enter) h, List.flatMap_singleton,
    Cursor.leave_past_enter, ways_group_cons, ways_char (c := (c.noting 2 name.toList).enter)
    (Cursor.rest_noting 2 h) has, List.flatMap_singleton]
  rfl

variable (some : names ≠ [])
include some

/-- The names are tried one after the other, the longest first. -/
theorem ways_names (c : Cursor) :
    (seqAll [group 2 (altAll ((sortBy nameLe names).map fun name => seqAll (chars name.toList))),
      group 3 (char (.compl .blank))]).ways c = (sortBy nameLe names).flatMap (nameWays c) := by
  have full : (sortBy nameLe names).map (fun name => seqAll (chars name.toList)) ≠ [] := by
    simpa [← List.length_eq_zero_iff, length_sortBy] using some
  rw [ways_group_cons, ways_altAll full, List.flatMap_assoc, List.flatMap_map]
  rfl

theorem mem_ways_nameParts {c e : Cursor} (mem : e ∈ (seqAll (nameParts names)).ways c) :
    ∃ (name : String) (x : Char) (r : List Char), name ∈ names ∧ c.rest =
      ' ' :: (name.toList ++ x :: r) ∧ isBlank x = false := by
  obtain ⟨r, hr, rest, mem⟩ := mem_ways_chars_append mem
  rw [ways_names some] at mem
  obtain ⟨name, hname, mem⟩ := List.mem_flatMap.mp mem
  obtain ⟨x, r', there, solid⟩ := rest_of_mem_nameWays mem
  exact ⟨name, x, r', mem_sortBy.mp hname, by rw [hr, ← rest, there]; rfl, solid⟩

theorem fits_of_mem_ways {b : Option Char} {v : List Char} {e : Cursor}
    (mem : e ∈ (errorNamesRule names).matcher.pattern.ways (.start b v)) :
    ∃ w name c r, Fits names v w name c r := by
  rw [pattern_errorNamesRule] at mem
  obtain ⟨w, r, full, hr, rest, all, mem⟩ := mem_ways_group_plus_cons mem
  obtain ⟨name, x, r', listed, hr', solid⟩ := mem_ways_nameParts some mem
  refine ⟨w, name, x, r',
    ⟨?_, full, fun d hd => by simpa [has_besideSmall] using all d hd, listed, solid⟩⟩
  rw [← Cursor.rest_start b v, hr, ← rest, hr']

/-- Of the names that fit the longest is found. -/
theorem ways_nameParts {c : Cursor} {name : String} {x : Char} {r : List Char}
    (listed : name ∈ names) (h : c.rest = ' ' :: (name.toList ++ x :: r))
    (solid : isBlank x = false)
    (longest : ∀ name' y r', name' ∈ names → c.rest = ' ' :: (name'.toList ++ y :: r') →
      isBlank y = false → name'.toList.length ≤ name.toList.length) :
    ∃ more, (seqAll (nameParts names)).ways c =
      (((c.past [' ']).noting 2 name.toList).noting 3 [x]) :: more := by
  have there := Cursor.rest_past_cons h
  have member : name ∈ sortBy nameLe names := mem_sortBy.mpr listed
  obtain ⟨before, behind, sorted, new⟩ := List.eq_append_cons_of_mem member
  -- a name before this one is not shorter, so it is this one if it fits
  have fails : ∀ name' ∈ before, nameWays (c.past [' ']) name' = [] := by
    intro name' hname
    refine List.eq_nil_iff_forall_not_mem.mpr fun e mem => ?_
    obtain ⟨y, r', rest, solid'⟩ := rest_of_mem_nameWays mem
    have listed' : name' ∈ names := mem_sortBy.mp (sorted ▸ List.mem_append_left _ hname)
    have size : name.utf8ByteSize ≤ name'.utf8ByteSize := by
      have pairwise := pairwise_nameLe names
      rw [sorted] at pairwise
      exact (List.pairwise_append.mp pairwise).2.2 name' hname name List.mem_cons_self
    have short := longest name' y r' listed' (by rw [h, ← there, rest]) solid'
    have same := eq_of_utf8ByteSize_le ⟨y :: r', rest.symm⟩ ⟨x :: r, there.symm⟩ short size
    exact new (same ▸ hname)
  rw [nameParts, ways_chars_append h, ways_names some, sorted, List.flatMap_append,
    List.flatMap_cons, List.flatMap_eq_nil_iff.mpr fails, nameWays_of_rest there solid]
  exact ⟨_, rfl⟩

theorem matchAt_of_fits {b : Option Char} {v w : List Char} {name : String}
    {c : Char} {r : List Char} (h : Fits names v w name c r)
    (best : ∀ w' name' c' r', Fits names v w' name' c' r' →
      w'.length < w.length ∨ w' = w ∧ name'.toList.length ≤ name.toList.length) :
    (errorNamesRule names).matcher.pattern.matchAt b v =
      Option.some ⟨w ++ ' ' :: (name.toList ++ [c]), [(3, [c]), (2, name.toList), (1, w)]⟩ := by
  let start := Cursor.start b v
  have here : start.rest = w ++ ' ' :: (name.toList ++ c :: r) := h.whole
  -- what follows the run in characters other than small letters is part of no longer run before a
  -- name
  obtain ⟨z, r', cut, high, stop⟩ := exists_run besideSmall.has (' ' :: (name.toList ++ c :: r))
  have fails :
      ∀ u, u ≠ [] → u <+: z → (seqAll (nameParts names)).ways (start.noting 1 (w ++ u)) = [] := by
    rintro u full ⟨z', rfl⟩
    refine List.eq_nil_iff_forall_not_mem.mpr fun e mem => ?_
    obtain ⟨name', x, r'', listed, rest, solid⟩ := mem_ways_nameParts some mem
    have there : start.rest = (w ++ u) ++ (z' ++ r') := by
      rw [here, cut]
      simp only [List.append_assoc]
    rw [Cursor.rest_noting 1 there] at rest
    have fits : Fits names v (w ++ u) name' x r'' := by
      have whole : v = (w ++ u) ++ ' ' :: (name'.toList ++ x :: r'') := by
        rw [← Cursor.rest_start b v, ← rest]
        exact there
      refine ⟨whole, by simp [full], ?_, listed, solid⟩
      intro d hd
      rcases List.mem_append.mp hd with front | behind
      · exact h.high d front
      · simpa [has_besideSmall] using high d (List.mem_append_left _ behind)
    rcases best _ _ _ _ fits with short | ⟨same, -⟩
    · rw [List.length_append] at short
      omega
    · exact full (List.append_right_eq_self.mp same)
  obtain ⟨more, first⟩ := ways_nameParts some h.listed (Cursor.rest_noting 1 here) h.solid
    fun name' y r'' listed rest solid => by
      rw [Cursor.rest_noting 1 here] at rest
      rcases best w name' y r'' ⟨by rw [← rest, h.whole], h.full, h.high, listed, solid⟩ with
        short | ⟨-, le⟩
      · exact absurd short (Nat.lt_irrefl _)
      · exact le
  have all : ∀ d ∈ w ++ z, besideSmall.has d = true :=
    List.forall_mem_append.mpr ⟨fun d hd => by rw [has_besideSmall, h.high d hd]; rfl, high⟩
  obtain ⟨others, ways⟩ :=
    ways_group_plus_greedy_cons 1 h.full (by rw [here, cut, List.append_assoc]) all stop fails
  rw [matchAt_eq_ways isTame_errorNamesRule, pattern_errorNamesRule, ways, first]
  simp [Cursor.toMatch, Cursor.noting, Cursor.past, start, Cursor.start]

/-! ### What the rule does -/

/-- The quote that opens a qualified name, and the namespace. -/
def qualifier : List Char :=
  "'\\\\ccxt\\\\".toList

/-- The name in its namespace, between quotes. -/
def qualified (name : String) : List Char :=
  qualifier ++ (name.toList ++ ['\''])

omit some in
theorem expand_errorNamesRule (w : List Char) (name : String) (c : Char) (t : List Char) :
    Template.expand [] (Template.parts (errorNamesRule names).template.toList)
      ⟨t, [(3, [c]), (2, name.toList), (1, w)]⟩ = w ++ ' ' :: (qualified name ++ [c]) := by
  have template : (errorNamesRule names).template = "${1} '\\\\ccxt\\\\${2}'${3}" := rfl
  have parts : Template.parts "${1} '\\\\ccxt\\\\${2}'${3}".toList =
      .group 1 :: ((' ' :: qualifier).map .char ++ [.group 2, .char '\'', .group 3]) := by
    decide +kernel
  have expand (opening : List Char) : Template.expand []
      (.group 1 :: ((' ' :: opening).map .char ++ [.group 2, .char '\'', .group 3]))
      ⟨t, [(3, [c]), (2, name.toList), (1, w)]⟩ =
        w ++ ' ' :: (opening ++ (name.toList ++ ['\'']) ++ [c]) := by
    simp [Template.expand, Template.Part.expand, Match.group, Match.group?, List.lookup_cons,
      List.flatMap_map]
  rw [template, parts]
  exact expand _

omit some in
/-- The characters before a site from the last small letter on. -/
theorem Site.exists_high {s u : List Char} {name : String} {c : Char} {r : List Char}
    (h : Site names s u name c r) :
    ∃ a w, u = a ++ (w ++ [' ']) ∧ w ≠ [] ∧ (∀ d ∈ w, d.isLower = false) ∧
      a.getLast?.all Char.isLower = true := by
  obtain ⟨w₀, x, rfl, high⟩ := h.lead
  obtain ⟨a, w, split, all, stop⟩ := exists_run_right (fun d => !d.isLower) (w₀ ++ [x])
  refine ⟨a, w, ?_, ?_, fun d hd => by simpa using all d hd, ?_⟩
  · rw [← List.append_assoc, ← split]
    simp
  · rintro rfl
    rw [List.append_nil] at split
    simp [← split, high] at stop
  · cases last : a.getLast? with
    | none => rfl
    | some l => simpa [last] using stop

omit some in
/-- The longest run before a site that is taken has the best site. -/
theorem Taken.best {a w : List Char} {name : String} {c : Char} {r v : List Char}
    (h : Taken names (a ++ v) (a ++ (w ++ [' '])) name c r)
    (hv : v = w ++ ' ' :: (name.toList ++ c :: r))
    {w' : List Char} {name' : String} {c' : Char} {r' : List Char}
    (fits : Fits names v w' name' c' r') :
    w'.length < w.length ∨ w' = w ∧ name'.toList.length ≤ name.toList.length := by
  have site := fits.site a
  have both : w' ++ ' ' :: (name'.toList ++ c' :: r') = w ++ ' ' :: (name.toList ++ c :: r) :=
    fits.whole ▸ hv
  rcases Nat.lt_trichotomy w'.length w.length with short | same | long
  · exact .inl short
  · obtain ⟨rfl, -⟩ := List.append_inj both same
    exact .inr ⟨rfl, h.longest _ _ _ site⟩
  · -- a longer run would lead to a site behind this one
    obtain ⟨m, rfl⟩ : w ++ [' '] <+: w' := by
      refine List.prefix_of_prefix_length_le ⟨name.toList ++ c :: r, ?_⟩ ⟨_, both⟩
        (by rw [List.length_append]; exact long)
      simp
    obtain ⟨d, hd, lower⟩ := h.last _ (m ++ [' ']) _ _ _ site (by simp) (by simp)
    rcases List.mem_append.mp hd with inside | blank
    · rw [fits.high d (List.mem_append_right _ inside)] at lower
      cases lower
    · rw [List.mem_singleton.mp blank] at lower
      cases lower

/-- Nothing is found before the run of characters that leads to a site that is taken. -/
theorem Taken.matchAt_eq_none {a w : List Char} {name : String} {c : Char} {r v : List Char}
    (h : Taken names (a ++ v) (a ++ (w ++ [' '])) name c r)
    (low : a.getLast?.all Char.isLower = true) {b : Option Char}
    {v' : List Char} (inside : v' <:+ a) (full : v' ≠ []) :
    (errorNamesRule names).matcher.pattern.matchAt b (v' ++ v) = none := by
  rw [matchAt_eq_ways isTame_errorNamesRule, Option.map_eq_none_iff, List.head?_eq_none_iff,
    List.eq_nil_iff_forall_not_mem]
  intro e mem
  obtain ⟨w', name', c', r', fits⟩ := fits_of_mem_ways some mem
  obtain ⟨a', rfl⟩ := inside
  obtain ⟨front, l, rfl⟩ : ∃ front l, v' = front ++ [l] := by
    simpa using (List.eq_nil_or_concat v').resolve_left full
  have lower : l.isLower = true := by simpa [← List.append_assoc] using low
  -- the run before the other site ends before the small letter, and so does the site
  have short : w'.length ≤ front.length := by
    refine Nat.le_of_not_lt fun long => ?_
    have reached : front ++ [l] <+: w' :=
      List.prefix_of_prefix_length_le ⟨v, rfl⟩ ⟨_, fits.whole.symm⟩
        (by rw [List.length_append]; exact long)
    have high := fits.high l (reached.subset (by simp))
    rw [lower] at high
    cases high
  obtain ⟨m, cut⟩ : w' ++ [' '] <+: front ++ [l] :=
    List.prefix_of_prefix_length_le ⟨_, by rw [List.append_assoc]; exact fits.whole.symm⟩ ⟨v, rfl⟩
      (by simpa using short)
  have inside : l ∈ m := by
    rcases List.eq_nil_or_concat m with rfl | ⟨m, x, rfl⟩
    · rw [List.append_nil] at cut
      obtain ⟨-, same⟩ := List.append_inj' cut rfl
      rw [← List.singleton_inj.mp same] at lower
      cases lower
    · rw [List.concat_eq_append, ← List.append_assoc] at cut
      obtain ⟨-, same⟩ := List.append_inj' cut rfl
      simp [List.singleton_inj.mp same]
  have site := fits.site a'
  rw [← List.append_assoc] at site
  have high := h.joined _ (m ++ (w ++ [' '])) _ _ _ site (by simp only [← cut, List.append_assoc]) l
    (List.mem_append_left _ inside)
  rw [lower] at high
  cases high

/-- The name that is taken is qualified, and the rule goes on behind the character that follows
it. -/
theorem apply_of_taken {s u : List Char} {name : String} {c : Char} {r : List Char}
    (h : Taken names s u name c r) :
    (errorNamesRule names).apply s =
    u ++ (qualified name ++ c :: (errorNamesRule names).apply r) := by
  obtain ⟨a, w, rfl, full, high, low⟩ := h.toSite.exists_high
  have whole : s = a ++ (w ++ ' ' :: (name.toList ++ c :: r)) := by
    rw [h.whole]
    simp
  subst whole
  have found := matchAt_of_fits some (b := none) ⟨rfl, full, high, h.listed, h.solid⟩
    fun _ _ _ _ fits => h.best rfl fits
  have copied (f : Match → List Char) :=
    replaceAll_copy (f := f) isTame_errorNamesRule blind_errorNamesRule
    fun v' inside nonempty => h.matchAt_eq_none some low inside nonempty
  let m : Match := ⟨w ++ ' ' :: (name.toList ++ [c]), [(3, [c]), (2, name.toList), (1, w)]⟩
  have text : w ++ ' ' :: (name.toList ++ c :: r) = m.text ++ r := by simp [m]
  rw [text] at found
  change (errorNamesRule names).matcher.pattern.replaceAll
    (Template.expand [] (Template.parts (errorNamesRule names).template.toList)) _ = _
  rw [copied, text,
    replaceAll_hit isTame_errorNamesRule blind_errorNamesRule solid_errorNamesRule found,
    expand_errorNamesRule]
  simp only [List.append_assoc, List.cons_append, List.nil_append]
  rfl

/-- Without a site nothing changes. -/
theorem apply_of_no_site {s : List Char} (none : ∀ u name c r, ¬ Site names s u name c r) :
    (errorNamesRule names).apply s = s := by
  refine Rule.apply_of_not_isMatch (Bool.eq_false_iff.mpr fun found => ?_)
  obtain ⟨a, v, rfl, here⟩ := isMatch_iff.mp found
  obtain ⟨e, mem⟩ := (isSome_matchAt_iff isTame_errorNamesRule).mp here
  obtain ⟨w, name, c, r, fits⟩ := fits_of_mem_ways some mem
  exact none _ _ _ _ (fits.site a)

end Search

/-! ### All names of a text -/

/-- A name that is taken, with what stands before it and the character behind it. -/
structure Cut where
  lead : List Char
  name : String
  next : Char

/-- The cuts of a text from left to right, and what is left behind the last of them. -/
inductive Cuts (names : List String) : List Char → List Cut → List Char → Prop where
  | none {s : List Char} (none : ∀ u name c r, ¬ Site names s u name c r) : Cuts names s [] s
  | cons {s u : List Char} {name : String} {c : Char} {r : List Char} {cuts : List Cut}
      {rest : List Char} (taken : Taken names s u name c r) (others : Cuts names r cuts rest) : Cuts
      names s (⟨u, name, c⟩ :: cuts) rest

/-- The text with the names of the cuts qualified. -/
def written (cuts : List Cut) (rest : List Char) : List Char :=
  cuts.foldr (fun cut t => cut.lead ++ (qualified cut.name ++ cut.next :: t)) rest

/-- The second text is the first one with some listed names qualified, each of them a whole word. -/
inductive WrapsWhole (names : List String) : Option Char → List Char → List Char → Prop where
  | nil {before : Option Char} : WrapsWhole names before [] []
  | keep {before : Option Char} {c : Char} {s t : List Char}
      (rest : WrapsWhole names (some c) s t) : WrapsWhole names before (c :: s) (c :: t)
  | wrap {before : Option Char} {name : String} {s t : List Char} (listed : name ∈ names)
      (left : before.any isAsciiWord = false) (right : s.head?.any isAsciiWord = false)
      (rest : WrapsWhole names name.toList.getLast? s t) :
      WrapsWhole names before (name.toList ++ s) (qualified name ++ t)

theorem exists_cuts {names : List String} (some : names ≠ []) (s : List Char) :
    ∃ cuts rest, Cuts names s cuts rest ∧ (errorNamesRule names).apply s = written cuts rest := by
  induction hlen : s.length using Nat.strongRecOn generalizing s with
  | ind n ih =>
    by_cases site : ∃ u name c r, Site names s u name c r
    · obtain ⟨u, name, c, r, site⟩ := site
      obtain ⟨u, name, c, r, taken⟩ := exists_taken site
      have short : r.length < n := by
        rw [← hlen, taken.whole]
        simp only [List.length_append, List.length_cons]
        omega
      obtain ⟨cuts, rest, others, same⟩ := ih r.length short r rfl
      refine ⟨⟨u, name, c⟩ :: cuts, rest, .cons taken others, ?_⟩
      rw [apply_of_taken some taken, same]
      rfl
    · have none : ∀ u name c r, ¬ Site names s u name c r :=
        fun u name c r h => site ⟨u, name, c, r, h⟩
      exact ⟨[], s, .none none, apply_of_no_site some none⟩

theorem WrapsWhole.self {names : List String} (before : Option Char) (s : List Char) :
    WrapsWhole names before s s := by
  induction s generalizing before with
  | nil => exact .nil
  | cons c s ih => exact .keep (ih _)

theorem WrapsWhole.inv {names : List String} {before : Option Char} {s t : List Char}
    (h : WrapsWhole names before s t) :
    (s = [] ∧ t = []) ∨ (∃ c s' t', s = c :: s' ∧ t = c :: t' ∧ WrapsWhole names (some c) s' t') ∨
      ∃ name s' t', name ∈ names ∧ s = name.toList ++ s' ∧ t = qualified name ++ t' ∧
        before.any isAsciiWord = false ∧ s'.head?.any isAsciiWord = false ∧
          WrapsWhole names name.toList.getLast? s' t' := by
  cases h with
  | nil => exact .inl ⟨rfl, rfl⟩
  | keep rest => exact .inr (.inl ⟨_, _, _, rfl, rfl, rest⟩)
  | wrap listed left right rest => exact .inr (.inr ⟨_, _, _, listed, rfl, rfl, left, right, rest⟩)

theorem exists_qualified (name : String) : ∃ w, qualified name = '\'' :: w :=
  ⟨_, rfl⟩

section Names

variable {names : List String} (words : ∀ name ∈ names, IsAsciiName name.toList)
include words

/-- No name begins with a quote, as a qualified name does. -/
theorem ne_of_qualified {name name' : String} (listed : name ∈ names) {c : Char}
    {s s' t t' : List Char} (hs : name.toList ++ s = c :: s')
    (ht : qualified name' ++ t = c :: t') : False := by
  obtain ⟨d, w, hw⟩ := List.exists_cons_of_ne_nil (words name listed).full
  obtain ⟨q, hq⟩ := exists_qualified name'
  rw [hw] at hs
  rw [hq] at ht
  have word := (words name listed).word d (hw ▸ List.mem_cons_self)
  rw [(List.cons.inj hs).1, ← (List.cons.inj ht).1] at word
  cases word

theorem quote_not_mem {name : String} (listed : name ∈ names) : '\'' ∉ name.toList := by
  intro mem
  cases (words name listed).word _ mem

theorem WrapsWhole.keep_iff {before : Option Char} {c : Char} {s t : List Char} :
    WrapsWhole names before (c :: s) (c :: t) ↔ WrapsWhole names (some c) s t := by
  refine ⟨fun h => ?_, .keep⟩
  rcases h.inv with ⟨empty, -⟩ | ⟨d, s', t', hs, ht, rest⟩ | ⟨name, s', t', listed, hs, ht, -⟩
  · cases empty
  · obtain ⟨rfl, rfl⟩ := List.cons.inj hs
    obtain ⟨-, rfl⟩ := List.cons.inj ht
    exact rest
  · exact (ne_of_qualified words listed hs.symm ht.symm).elim

theorem WrapsWhole.keep_append_iff {before : Option Char} {w s t : List Char} :
    WrapsWhole names before (w ++ s) (w ++ t) ↔ WrapsWhole names (w.getLast?.or before) s t := by
  induction w generalizing before with
  | nil => rfl
  | cons c w ih => rw [List.cons_append, List.cons_append, keep_iff words, ih, getLast?_cons_or]

theorem WrapsWhole.wrap_iff {before : Option Char} {name : String} {s t : List Char}
    (listed : name ∈ names) : WrapsWhole names before (name.toList ++ s) (qualified name ++ t) ↔
      before.any isAsciiWord = false ∧ s.head?.any isAsciiWord = false ∧
        WrapsWhole names name.toList.getLast? s t := by
  refine ⟨fun h => ?_, fun h => .wrap listed h.1 h.2.1 h.2.2⟩
  rcases h.inv with ⟨empty, -⟩ | ⟨c, s', t', hs, ht, -⟩ |
    ⟨name', s', t', listed', hs, ht, left, right, rest⟩
  · exact absurd (List.append_eq_nil_iff.mp empty).1 (words name listed).full
  · exact (ne_of_qualified words listed hs ht).elim
  · have quoted : name.toList ++ '\'' :: t = name'.toList ++ '\'' :: t' := by
      simpa [qualified, List.append_assoc] using ht
    obtain ⟨same, rfl⟩ :=
      split_unique (quote_not_mem words listed) (quote_not_mem words listed') quoted
    rw [same, List.append_cancel_left_eq] at hs
    rw [same, hs]
    exact ⟨left, right, rest⟩

/-- What is written changes whole words exactly if no name is followed by a character of a word. -/
theorem wrapsWhole_written_iff {s rest : List Char} {cuts : List Cut} (h : Cuts names s cuts rest)
    (before : Option Char) :
    WrapsWhole names before s (written cuts rest) ↔ ∀ cut ∈ cuts, isAsciiWord cut.next = false := by
  induction h generalizing before with
  | none _ => exact iff_of_true (.self _ _) (List.forall_mem_nil _)
  | @cons s u name c r cuts rest taken others ih =>
    have blank : u.getLast? = some ' ' := by
      obtain ⟨w, x, rfl, -⟩ := taken.lead
      simp
    have opened :
        written (⟨u, name, c⟩ :: cuts) rest = u ++ (qualified name ++ c :: written cuts rest) := rfl
    rw [taken.whole, opened, WrapsWhole.keep_append_iff words,
      WrapsWhole.wrap_iff words taken.listed, WrapsWhole.keep_iff words, ih, blank,
      List.forall_mem_cons]
    exact and_iff_right rfl

end Names

/-- The rule qualifies the names that it takes, and changes nothing else. All of them are whole
words exactly if none is followed by a character of a word. -/
theorem errorNamesRule_wraps {names : List String} (some : names ≠ [])
    (words : ∀ name ∈ names, IsAsciiName name.toList) (s : List Char) :
    ∃ cuts rest, Cuts names s cuts rest ∧ (errorNamesRule names).apply s = written cuts rest ∧
      (WrapsWhole names none s ((errorNamesRule names).apply s) ↔ ∀ cut ∈ cuts,
        isAsciiWord cut.next = false) := by
  obtain ⟨cuts, rest, cut, same⟩ := exists_cuts some s
  exact ⟨cuts, rest, cut, same, same ▸ wrapsWhole_written_iff words cut none⟩

/-! ### A word that begins with a name -/

/-- The value is no listed name, but begins with one. -/
def pluralText : List Char :=
  "'code': InvalidOrders,".toList

theorem words_builtin :
    ∀ name ∈ Hierarchy.builtin.names, IsAsciiName name.toList := by decide +kernel

theorem apply_pluralText : (errorNamesRule Hierarchy.builtin.names).apply pluralText =
    "'code': '\\\\ccxt\\\\InvalidOrder's,".toList := by decide +kernel

theorem not_wrapsWhole_pluralText : ¬ WrapsWhole Hierarchy.builtin.names none pluralText
    "'code': '\\\\ccxt\\\\InvalidOrder's,".toList := by
  have before : pluralText = "'code': ".toList ++ ("InvalidOrder".toList ++ ['s', ',']) := by
    decide +kernel
  have behind : "'code': '\\\\ccxt\\\\InvalidOrder's,".toList =
      "'code': ".toList ++ (qualified "InvalidOrder" ++ ['s', ',']) := by decide +kernel
  rw [before, behind, WrapsWhole.keep_append_iff words_builtin,
    WrapsWhole.wrap_iff words_builtin (by decide +kernel)]
  rintro ⟨-, right, -⟩
  cases right

theorem errorNamesRule_wraps_pluralText :
    Hierarchy.builtin.names ≠ [] ∧ (∀ name ∈ Hierarchy.builtin.names, IsAsciiName name.toList) ∧
      ∃ cuts rest, Cuts Hierarchy.builtin.names pluralText cuts rest ∧
        (errorNamesRule Hierarchy.builtin.names).apply pluralText = written cuts rest ∧
        ¬ ∀ cut ∈ cuts, isAsciiWord cut.next = false := by
  have some : Hierarchy.builtin.names ≠ [] := by decide
  obtain ⟨cuts, rest, cut, same, iff⟩ := errorNamesRule_wraps some words_builtin pluralText
  rw [apply_pluralText] at iff
  exact ⟨some, words_builtin, cuts, rest, cut, same,
    fun free => not_wrapsWhole_pluralText (iff.mpr free)⟩

/-- A word that is no listed name is cut in two. -/
theorem errorNamesRule_cuts_word :
    (errorNamesRule Hierarchy.builtin.names).apply "'code': InvalidOrders,".toList =
        "'code': '\\\\ccxt\\\\InvalidOrder's,".toList ∧
      "InvalidOrders" ∉ Hierarchy.builtin.names ∧
      ¬ WrapsWhole Hierarchy.builtin.names none "'code': InvalidOrders,".toList
        "'code': '\\\\ccxt\\\\InvalidOrder's,".toList :=
  ⟨apply_pluralText, by decide +kernel, not_wrapsWhole_pluralText⟩

end Ruleset

end Polyglot
