import Mathlib.Data.List.Induction
import Polyglot.Proofs.Placeholders

/-!
Arrows behind variables. `arrowAll` turns a dot into an arrow where what is written before it ends
with a name that bears a mark. One rule after another does the same, since no mark and no name is
changed by an arrow (`suffix_arrowAll_iff`). The rules for sigils leave a name before a dot alone
only behind a character that is a mark or that the rule for arrows does not allow either
(`isMarked_insertAll`), and the marks are two: the sigil, and a slash.
-/

namespace Polyglot

open Text Sigil

namespace Ruleset

/-- Whether a text ends with one of the names, and with one of the marks before it. -/
def bears (marks : List Char) (names : List String) (out : List Char) : Bool :=
  names.any fun n => marks.any fun c => (c :: n.toList).isSuffixOf out

/-- One character more behind what is written. -/
def arrowStep (marks : List Char) (names : List String) (out : List Char) (c : Char) : List Char :=
  out ++ if c = '.' ∧ bears marks names out = true then ['-', '>'] else [c]

/-- Each dot that is written behind a name with a mark becomes an arrow, and nothing else
changes. -/
def arrowAll (marks : List Char) (names : List String) (s : List Char) : List Char :=
  s.foldl (arrowStep marks names) []

theorem bears_iff {marks : List Char} {names : List String} {out : List Char} :
    bears marks names out = true ↔ ∃ n ∈ names, ∃ c ∈ marks, c :: n.toList <:+ out := by
  simp only [bears, List.any_eq_true, List.isSuffixOf_iff_suffix]

section Steps

variable {marks : List Char} {names : List String}

theorem arrowAll_concat (s : List Char) (c : Char) :
    arrowAll marks names (s ++ [c]) = arrowStep marks names (arrowAll marks names s) c := by
  rw [arrowAll, List.foldl_append]
  rfl

/-- A text without dots is copied. -/
theorem arrowAll_append {w : List Char} (plain : '.' ∉ w) (s : List Char) :
    arrowAll marks names (s ++ w) = arrowAll marks names s ++ w := by
  induction w using List.reverseRecOn with
  | nil => simp
  | append_singleton w c ih =>
    have other : c ≠ '.' := fun same => plain (same ▸ List.mem_concat_self)
    rw [← List.append_assoc, arrowAll_concat, ih fun mem => plain (List.mem_append_left _ mem),
      arrowStep, if_neg fun h => other h.1, List.append_assoc]

theorem prefix_arrowAll (s t : List Char) :
    arrowAll marks names s <+: arrowAll marks names (s ++ t) := by
  induction t using List.reverseRecOn with
  | nil => simp
  | append_singleton t c ih =>
    rw [← List.append_assoc, arrowAll_concat]
    exact ih.trans (List.prefix_append _ _)

theorem arrowAll_nil_names (s : List Char) : arrowAll marks [] s = s := by
  induction s using List.reverseRecOn with
  | nil => rfl
  | append_singleton s c ih =>
    rw [arrowAll_concat, ih, arrowStep, if_neg fun h => Bool.false_ne_true h.2]

/-- An arrow does not change what ends without a dot, and makes no new such end. -/
theorem suffix_arrowAll_iff {w : List Char} (dot : '.' ∉ w) (tip : '>' ∉ w) {s : List Char} :
    w <:+ arrowAll marks names s ↔ w <:+ s := by
  induction s using List.reverseRecOn generalizing w with
  | nil => rfl
  | append_singleton s c ih =>
    have ends {y : List Char} {d : Char} (hd : d ∉ w) : w <:+ y ++ [d] ↔ w = [] := by
      rw [List.suffix_concat_iff, or_iff_left]
      rintro ⟨t, rfl, -⟩
      exact hd List.mem_concat_self
    rw [arrowAll_concat, arrowStep]
    split
    · next here => rw [here.1, List.append_cons, ends tip, ends dot]
    · rw [List.suffix_concat_iff, List.suffix_concat_iff]
      refine or_congr_right (exists_congr fun t => and_congr_right ?_)
      rintro rfl
      exact ih (fun mem => dot (List.mem_append_left _ mem)) fun mem =>
        tip (List.mem_append_left _ mem)

theorem eq_of_arrowAll {s : List Char} (tip : '>' ∉ arrowAll marks names s) :
    arrowAll marks names s = s := by
  induction s using List.reverseRecOn with
  | nil => rfl
  | append_singleton s c ih =>
    rw [arrowAll_concat, arrowStep] at tip ⊢
    split at tip
    · exact absurd (by simp) tip
    · next never => rw [if_neg never, ih fun mem => tip (List.mem_append_left _ mem)]

theorem suffix_of_suffix_concat {v y : List Char} {d : Char} (h : v ++ ['.'] <:+ y ++ [d]) :
    '.' = d ∧ v <:+ y := by
  rw [List.suffix_concat_iff] at h
  simpa using h

theorem infix_of_infix_concat {v y : List Char} {d : Char} (other : d ≠ '.')
    (h : v ++ ['.'] <:+: y ++ [d]) : v ++ ['.'] <:+: y := by
  rcases List.infix_concat_iff.mp h with ending | inside
  · exact absurd (suffix_of_suffix_concat ending).1.symm other
  · exact inside

/-- A dot that is written has been read there. -/
theorem infix_of_arrowAll {v s : List Char} (dot : '.' ∉ v) (tip : '>' ∉ v)
    (h : v ++ ['.'] <:+: arrowAll marks names s) : v ++ ['.'] <:+: s := by
  induction s using List.reverseRecOn with
  | nil => exact h
  | append_singleton s c ih =>
    have earlier (inside : v ++ ['.'] <:+: arrowAll marks names s) : v ++ ['.'] <:+: s ++ [c] :=
      (ih inside).trans (List.prefix_append _ _).isInfix
    rw [arrowAll_concat, arrowStep] at h
    split at h
    · rw [List.append_cons (arrowAll marks names s)] at h
      exact earlier (infix_of_infix_concat (by decide) (infix_of_infix_concat (by decide) h))
    · rcases List.infix_concat_iff.mp h with ending | inside
      · obtain ⟨rfl, inside⟩ := suffix_of_suffix_concat ending
        obtain ⟨u, rfl⟩ := (suffix_arrowAll_iff dot tip).mp inside
        exact ⟨u, [], by simp⟩
      · exact earlier inside

theorem prefix_of_arrowAll {v s : List Char} (tip : '>' ∉ v)
    (h : v ++ ['.'] <+: arrowAll marks names s) : v ++ ['.'] <+: s := by
  induction s using List.reverseRecOn with
  | nil => exact h
  | append_singleton s c ih =>
    have earlier (inside : v ++ ['.'] <+: arrowAll marks names s) : v ++ ['.'] <+: s ++ [c] :=
      (ih inside).trans (List.prefix_append _ _)
    have last {y : List Char} {d : Char} (other : d ≠ '.') (within : v ++ ['.'] <+: y ++ [d]) :
        v ++ ['.'] <+: y := by
      rcases List.prefix_concat_iff.mp within with whole | inside
      · exact absurd (List.singleton_inj.mp (List.append_inj' whole rfl).2).symm other
      · exact inside
    rw [arrowAll_concat, arrowStep] at h
    split at h
    · rw [List.append_cons (arrowAll marks names s)] at h
      exact earlier (last (by decide) (last (by decide) h))
    · rcases List.prefix_concat_iff.mp h with whole | inside
      · obtain ⟨rfl, same⟩ := List.append_inj' whole rfl
        exact ⟨[], by rw [List.append_nil, same, eq_of_arrowAll tip]⟩
      · exact earlier inside

end Steps

/-! ### One rule after another -/

/-- Neither a dot nor the tip of an arrow stands in a name or right before it. -/
theorem plain_of_near {l : Char} (hl : near l = true) {name : List Char}
    (isName : IsAsciiName name) : '.' ∉ l :: name ∧ '>' ∉ l :: name := by
  have outside {c : Char} (hc : isAsciiWord c = false) : c ∉ name := fun mem => by
    rw [isName.word c mem] at hc
    cases hc
  simp only [near, Bool.and_eq_true, Bool.not_eq_true', List.contains_eq_mem,
    decide_eq_false_iff_not] at hl
  rw [List.mem_cons, List.mem_cons, not_or, not_or]
  exact ⟨⟨fun same => hl.2 (by simp [← same]), outside rfl⟩,
    fun same => hl.2 (by simp [← same]), outside rfl⟩

section Compose

variable {marks : List Char} {names names' : List String} (allowed : ∀ c ∈ marks, near c = true)
include allowed

theorem bears_arrowAll (isName : ∀ n ∈ names, IsAsciiName n.toList) (marks' : List Char)
    (names' : List String) (s : List Char) :
    bears marks names (arrowAll marks' names' s) = bears marks names s := by
  rw [Bool.eq_iff_iff, bears_iff, bears_iff]
  refine exists_congr fun n => and_congr_right fun hn => exists_congr fun c =>
    and_congr_right fun hc => ?_
  obtain ⟨dot, tip⟩ := plain_of_near (allowed c hc) (isName n hn)
  exact suffix_arrowAll_iff dot tip

theorem arrowAll_arrowAll (isName : ∀ n ∈ names, IsAsciiName n.toList) (s : List Char) :
    arrowAll marks names' (arrowAll marks names s) = arrowAll marks (names ++ names') s := by
  induction s using List.reverseRecOn with
  | nil => rfl
  | append_singleton s c ih =>
    have either (out : List Char) :
        bears marks (names ++ names') out = (bears marks names out || bears marks names' out) :=
        List.any_append
    have same : bears marks names (arrowAll marks (names ++ names') s) =
        bears marks names (arrowAll marks names s) := by
      rw [bears_arrowAll allowed isName, bears_arrowAll allowed isName]
    rw [arrowAll_concat, arrowAll_concat, arrowStep]
    by_cases arrow : c = '.' ∧ bears marks names (arrowAll marks names s) = true
    · have again :
          c = '.' ∧ bears marks (names ++ names') (arrowAll marks (names ++ names') s) = true := by
        rw [either, same, arrow.2]
        exact ⟨arrow.1, rfl⟩
      rw [if_pos arrow, arrowAll_append (by decide), ih, arrowStep, if_pos again]
    · have later : (c = '.' ∧ bears marks names' (arrowAll marks (names ++ names') s) = true) =
          (c = '.' ∧ bears marks (names ++ names')
            (arrowAll marks (names ++ names') s) = true) := by
        refine propext (and_congr_right fun dot => ?_)
        rw [either, same, Bool.eq_false_iff.mpr fun first => arrow ⟨dot, first⟩, Bool.false_or]
      rw [if_neg arrow, arrowAll_concat, ih, arrowStep, arrowStep]
      simp only [later]

end Compose

/-- Before a dot a name stands behind a mark, or behind a character that the rule for arrows does
not allow. -/
structure IsMarked (marks name s : List Char) : Prop where
  start : ¬ name ++ ['.'] <+: s
  behind : ∀ l, near l = true → l :: (name ++ ['.']) <:+: s → l ∈ marks

theorem IsMarked.arrowAll {marks name s : List Char} (isName : IsAsciiName name)
    (h : IsMarked marks name s) (marks' : List Char) (names : List String) :
    IsMarked marks name (arrowAll marks' names s) := by
  constructor
  · intro begins
    have tip : '>' ∉ name := fun mem => absurd (isName.word _ mem) (by decide)
    exact h.start (prefix_of_arrowAll tip begins)
  · intro l hl occurs
    obtain ⟨dot, tip⟩ := plain_of_near hl isName
    exact h.behind l hl (infix_of_arrowAll dot tip occurs)

/-- A match of the rule for arrows begins before `s` and ends in it. -/
def Straddles (name p s : List Char) : Prop :=
  ∃ l v w r, near l = true ∧ l :: v <:+ p ∧ name = v ++ w ∧ s = w ++ '.' :: r

section Rule

variable {marks : List Char} {name : String} (isName : IsAsciiName name.toList)
  (allowed : ∀ c ∈ marks, near c = true)
include isName

theorem not_straddles_dot (p s : List Char) : ¬ Straddles name.toList (p ++ ['.']) s := by
  rintro ⟨l, v, w, r, hl, ends, split, -⟩
  obtain ⟨dot, -⟩ := plain_of_near hl isName
  rcases List.suffix_concat_iff.mp ends with none | ⟨t, whole, -⟩
  · cases none
  · have mem : '.' ∈ l :: v := whole ▸ List.mem_concat_self
    exact dot (split ▸ List.mem_append_left w mem)

omit isName in
theorem Straddles.of_concat {p s : List Char} {c : Char} (h : Straddles name.toList (p ++ [c]) s)
    (miss : ¬ (near c = true ∧ ∃ r, s = name.toList ++ '.' :: r)) :
    Straddles name.toList p (c :: s) := by
  obtain ⟨l, v, w, r, hl, ends, split, rfl⟩ := h
  rcases List.suffix_concat_iff.mp ends with none | ⟨t, whole, inside⟩
  · cases none
  · cases t with
    | nil =>
      obtain ⟨rfl, rfl⟩ := List.cons.inj whole
      exact absurd ⟨hl, r, by rw [split]; rfl⟩ miss
    | cons l' t =>
      obtain ⟨rfl, rfl⟩ := List.cons.inj whole
      exact ⟨l, t, c :: w, r, hl, inside, split.trans (List.append_assoc t [c] w), rfl⟩

include allowed

/-- The rule of a name, from the place in the text that it has come to. The induction is on the
length of the text that is left, since a match takes several characters of it. -/
theorem arrowAll_append_arrowed {p s : List Char} (marked : IsMarked marks name.toList (p ++ s))
    (closed : ¬ Straddles name.toList p s) :
    arrowAll marks [name] p ++ arrowed name p.getLast? s = arrowAll marks [name] (p ++ s) := by
  induction hlen : s.length using Nat.strongRecOn generalizing p s with
  | ind k ih =>
    cases s with
    | nil => rw [arrowed_nil, List.append_nil, List.append_nil]
    | cons c s =>
      by_cases hit : near c = true ∧ ∃ r, s = name.toList ++ '.' :: r
      · obtain ⟨hc, r, rfl⟩ := hit
        have regroup : p ++ c :: (name.toList ++ '.' :: r) =
          (p ++ c :: name.toList ++ ['.']) ++ r := by simp
        have mark : c ∈ marks := marked.behind c hc ⟨p, r, by simp⟩
        have written : arrowAll marks [name] (p ++ c :: name.toList) =
            arrowAll marks [name] p ++ c :: name.toList :=
          arrowAll_append (plain_of_near hc isName).1 p
        have bearing : bears marks [name] (arrowAll marks [name] p ++ c :: name.toList) = true :=
          bears_iff.mpr ⟨name, List.mem_singleton_self _, c, mark, List.suffix_append _ _⟩
        rw [regroup] at marked
        -- The match takes the dot, so no later match can reach back behind it.
        have rest := ih r.length (by simp [← hlen]; omega) marked (not_straddles_dot isName _ _) rfl
        rw [arrowAll_concat, written, arrowStep, if_pos ⟨rfl, bearing⟩,
          List.getLast?_concat] at rest
        rw [arrowed_behind isName hc, regroup, ← rest]
        simp
      · have still : ¬ (c = '.' ∧ bears marks [name] (arrowAll marks [name] p) = true) := by
          rintro ⟨rfl, bearing⟩
          rw [bears_arrowAll allowed (List.forall_mem_singleton.mpr isName), bears_iff] at bearing
          obtain ⟨n, hn, l, hl, ends⟩ := bearing
          rw [List.mem_singleton.mp hn] at ends
          exact closed ⟨l, name.toList, [], s, allowed l hl, ends, (List.append_nil _).symm, rfl⟩
        have start : p.getLast? = none → ∀ r, c :: s ≠ name.toList ++ '.' :: r := by
          intro first r same
          rw [List.getLast?_eq_none_iff.mp first] at marked
          exact marked.start ⟨r, by rw [List.append_assoc]; exact same.symm⟩
        rw [List.append_cons] at marked
        have rest :=
          ih s.length (by simp [← hlen]) marked (fun open' => closed (open'.of_concat hit)) rfl
        rw [arrowAll_concat, arrowStep, if_neg still, List.getLast?_concat] at rest
        rw [arrowed_cons start fun hc r same => hit ⟨hc, r, same⟩, List.append_cons, rest,
          ← List.append_cons]

theorem apply_propertyRule {s : List Char} (marked : IsMarked marks name.toList s) :
    (propertyRule name).apply s = arrowAll marks [name] s := by
  have closed : ¬ Straddles name.toList [] s := by
    rintro ⟨l, v, w, r, -, ends, -⟩
    exact List.cons_ne_nil _ _ (List.suffix_nil.mp ends)
  rw [apply_propertyRule_eq]
  exact @arrowAll_append_arrowed marks name isName allowed [] s marked closed

end Rule

/-- The rules of all names. -/
theorem foldl_propertyRule {marks : List Char} (allowed : ∀ c ∈ marks, near c = true)
    {names names' : List String} (isName : ∀ n ∈ names ++ names', IsAsciiName n.toList)
    {s : List Char}
    (marked : ∀ n ∈ names', IsMarked marks n.toList s) :
    (names'.map propertyRule).foldl (fun s rule => rule.apply s) (arrowAll marks names s) =
      arrowAll marks (names ++ names') s := by
  induction names' generalizing names with
  | nil => rw [List.append_nil]; rfl
  | cons n names' ih =>
    obtain ⟨here, others⟩ := List.forall_mem_cons.mp marked
    obtain ⟨before, later⟩ := List.forall_mem_append.mp isName
    have hn := later n List.mem_cons_self
    rw [List.append_cons] at isName ⊢
    rw [List.map_cons, List.foldl_cons,
      apply_propertyRule hn allowed (here.arrowAll hn marks names),
      arrowAll_arrowAll allowed before, ih isName others]

/-! ### Behind the sigils -/

section Names

variable {names : List String} (isName : ∀ n ∈ names, IsAsciiName n.toList)
include isName

theorem insertAll_insertAll (s : List Char) :
    insertAll names none (insertAll names none s) = insertAll names none s := by
  have again := (applyChars_sigils isName (insertAll names none s)).1
  have third := (applyChars_sigils isName s).2
  rw [applyChars, (first_sigils names).1] at third
  rw [applyChars, (first_sigils names).2, List.foldl_append, third, third] at again
  exact again.symm

omit isName in
theorem length_insertAll (before : Option Char) (s : List Char) :
    s.length ≤ (insertAll names before s).length := by
  induction s generalizing before with
  | nil => exact Nat.le_refl _
  | cons c s ih =>
    have := ih (some c)
    simp only [insertAll, List.length_append, List.length_cons]
    omega

omit isName in
theorem insertAll_cons_eq {before : Option Char} {c : Char} {s : List Char}
    (same : insertAll names before (c :: s) = c :: s) :
    stands names before (c :: s) = false ∧ insertAll names (some c) s = s := by
  rw [insertAll] at same
  cases standing : stands names before (c :: s) with
  | false =>
    rw [standing] at same
    exact ⟨rfl, (List.cons.inj same).2⟩
  | true =>
    have long := @length_insertAll names (some c) s
    have length := congrArg List.length same
    simp only [standing, if_true, List.length_append, List.length_cons] at length
    omega

omit isName in
/-- Where no sigil is put in, no name stands alone. -/
theorem stands_of_insertAll_eq {before : Option Char} {u : List Char} {c : Char} {v : List Char}
    (same : insertAll names before (u ++ c :: v) = u ++ c :: v) :
    stands names (u.getLast?.or before) (c :: v) = false := by
  induction u generalizing before with
  | nil => exact (insertAll_cons_eq same).1
  | cons d u ih =>
    rw [Pattern.getLast?_cons_or]
    exact ih (insertAll_cons_eq same).2

omit isName in
theorem mem_marks_of_near {l : Char} (hl : near l = true) (shut : opens l = false) :
    l ∈ ['$', '/'] := by
  grind [near, opens]

/-- The marks that the rules for sigils leave before a name. -/
theorem isMarked_insertAll (s : List Char) :
    ∀ n ∈ names, IsMarked ['$', '/'] n.toList (insertAll names none s) := by
  intro n hn
  have alone {u r : List Char} (split : insertAll names none s = u ++ (n.toList ++ '.' :: r)) :
      u.getLast?.all opens = false := by
    obtain ⟨c, w, spelled⟩ := List.exists_cons_of_ne_nil (isName n hn).full
    have same := insertAll_insertAll isName s
    rw [split, spelled, List.cons_append] at same
    have never := stands_of_insertAll_eq same
    rw [← List.cons_append, ← spelled, ← Bool.not_eq_true, stands_iff, Option.or_none] at never
    exact Bool.eq_false_iff.mpr fun allowed => never ⟨allowed, n, hn, '.', r, rfl, by decide⟩
  constructor
  · rintro ⟨r, split⟩
    have never := @alone [] r (by rw [← split, List.append_assoc]; rfl)
    cases never
  · rintro l hl ⟨u, r, split⟩
    have never := @alone (u ++ [l]) r (by rw [← split]; simp)
    rw [List.getLast?_concat] at never
    exact mem_marks_of_near hl never

end Names

/-- All rules for variables, in two passes over the text. -/
theorem applyChars_sigils_eq {names : List String} (isName : ∀ n ∈ names, IsAsciiName n.toList)
    (s : List Char) :
    (sigils names).applyChars s = arrowAll ['$', '/'] names (insertAll names none s) := by
  have allowed : ∀ c ∈ ['$', '/'], near c = true :=
    List.forall_mem_cons.mpr ⟨by decide, List.forall_mem_singleton.mpr (by decide)⟩
  have twice := (applyChars_sigils isName s).1
  rw [applyChars, (first_sigils names).2] at twice
  have arrows := @foldl_propertyRule _ allowed [] names isName _ (isMarked_insertAll isName s)
  rw [arrowAll_nil_names, List.nil_append] at arrows
  rw [applyChars, sigils, List.foldl_append, twice, arrows]

/-! ### Slashes -/

section Marks

variable {marks : List Char} {names : List String}

/-- The mark of a name at the end of a text is the only one. -/
theorem mark_unique {c d : Char} (hc : isAsciiWord c = false) (hd : isAsciiWord d = false)
    {v w y : List Char} (hv : IsAsciiName v) (hw : IsAsciiName w) (h : c :: v <:+ y)
    (h' : d :: w <:+ y) : c = d := by
  have first {c d : Char} (hc : isAsciiWord c = false) {v w : List Char} (hw : IsAsciiName w)
      (within : c :: v <:+ d :: w) : c = d := by
    rcases List.suffix_cons_iff.mp within with same | inside
    · exact (List.cons.inj same).1
    · rw [hw.word c (inside.subset List.mem_cons_self)] at hc
      cases hc
  rcases List.suffix_or_suffix_of_suffix h h' with within | within
  · exact first hc hw within
  · exact (first hd hv within).symm

/-- No dot is written behind a name with a mark. -/
theorem not_infix_arrowAll {c : Char} (hc : c ∈ marks) {n : String} (hn : n ∈ names)
    (s : List Char) : ¬ c :: n.toList ++ ['.'] <:+: arrowAll marks names s := by
  induction s using List.reverseRecOn with
  | nil => simp [arrowAll]
  | append_singleton s d ih =>
    intro occurs
    rw [arrowAll_concat, arrowStep] at occurs
    split at occurs
    · rw [List.append_cons (arrowAll marks names s)] at occurs
      exact ih (infix_of_infix_concat (by decide) (infix_of_infix_concat (by decide) occurs))
    · next never =>
      rcases List.infix_concat_iff.mp occurs with ending | inside
      · obtain ⟨rfl, ends⟩ := suffix_of_suffix_concat ending
        exact never ⟨rfl, bears_iff.mpr ⟨n, hn, c, hc, ends⟩⟩
      · exact ih inside

/-- A dot behind a name with another mark stays. -/
theorem infix_arrowAll {c : Char} (unmarked : c ∉ marks)
    (hc : isAsciiWord c = false) (dot : c ≠ '.') (outside : ∀ d ∈ marks, isAsciiWord d = false)
    (isName : ∀ n ∈ names, IsAsciiName n.toList) {w : List Char}
    (hw : IsAsciiName w) {s : List Char} (h : c :: w ++ ['.'] <:+: s) :
    c :: w ++ ['.'] <:+: arrowAll marks names s := by
  obtain ⟨u, r, rfl⟩ := h
  have plain : '.' ∉ c :: w := by
    rw [List.mem_cons, not_or]
    exact ⟨dot.symm, fun mem => absurd (hw.word _ mem) (by decide)⟩
  have still : ¬ ('.' = '.' ∧ bears marks names (arrowAll marks names u ++ c :: w) = true) := by
    rintro ⟨-, bearing⟩
    obtain ⟨n, hn, d, hd, ends⟩ := bears_iff.mp bearing
    exact unmarked (mark_unique hc (outside d hd) hw (isName n hn)
      (List.suffix_append _ _) ends ▸ hd)
  have written : arrowAll marks names (u ++ (c :: w) ++ ['.']) = arrowAll marks names u ++
      (c :: w) ++ ['.'] := by
    rw [arrowAll_concat, arrowAll_append plain, arrowStep, if_neg still]
  have further := @prefix_arrowAll marks names (u ++ (c :: w) ++ ['.']) r
  rw [written] at further
  rw [← List.append_assoc]
  exact List.IsInfix.trans ⟨arrowAll marks names u, [], by simp⟩ further.isInfix

/-- One mark more makes a difference exactly if it stands before a name with a dot behind it. -/
theorem arrowAll_concat_marks_iff {c : Char} (unmarked : c ∉ marks) (hc : near c = true)
    (outside : ∀ d ∈ marks, isAsciiWord d = false) (isName : ∀ n ∈ names, IsAsciiName n.toList)
    {s : List Char} :
    arrowAll (marks ++ [c]) names s = arrowAll marks names s ↔
      ¬ ∃ n ∈ names, c :: n.toList ++ ['.'] <:+: s := by
  constructor
  · rintro same ⟨n, hn, occurs⟩
    have shut : isAsciiWord c = false := by
      simp only [near, Bool.and_eq_true, Bool.not_eq_true'] at hc
      exact hc.1
    have dot : c ≠ '.' := by
      rintro rfl
      cases hc
    -- Without the mark the dot is still there, and with it no such dot is.
    have kept := infix_arrowAll unmarked shut dot outside isName (isName n hn) occurs
    rw [← same] at kept
    exact not_infix_arrowAll (List.mem_append_right marks (List.mem_singleton_self c)) hn s kept
  · intro never
    induction s using List.reverseRecOn with
    | nil => rfl
    | append_singleton s d ih =>
      have same : arrowAll (marks ++ [c]) names s = arrowAll marks names s := by
        refine ih ?_
        rintro ⟨n, hn, within⟩
        exact never ⟨n, hn, within.trans (List.prefix_append s [d]).isInfix⟩
      have alike : d = '.' → (bears (marks ++ [c]) names (arrowAll marks names s) = true ↔
          bears marks names (arrowAll marks names s) = true) := by
        rintro rfl
        rw [bears_iff, bears_iff]
        refine exists_congr fun n => and_congr_right fun hn => ⟨?_, ?_⟩
        · rintro ⟨e, he, ends⟩
          rcases List.mem_append.mp he with before | added
          · exact ⟨e, before, ends⟩
          · rw [List.mem_singleton.mp added] at ends
            obtain ⟨dot, tip⟩ := plain_of_near hc (isName n hn)
            obtain ⟨u, rfl⟩ := (suffix_arrowAll_iff dot tip).mp ends
            exact absurd ⟨n, hn, u, [], by simp⟩ never
        · rintro ⟨e, he, ends⟩
          exact ⟨e, List.mem_append_left _ he, ends⟩
      rw [arrowAll_concat, arrowAll_concat, same, arrowStep, arrowStep]
      simp only [and_congr_right alike]

end Marks

/-- A text without sigils is where it was before they were put in. -/
theorem infix_of_edited {w s r : List Char} (plain : '$' ∉ w)
    (edited : Edited true false s r) (h : w <:+: r) : w <:+: s := by
  have start {w s r : List Char} (plain : '$' ∉ w) (edited : Edited true false s r)
      (begins : w <+: r) : w <+: s := by
    induction edited generalizing w with
    | nil => exact begins
    | keep c _ ih =>
      rcases List.prefix_cons_iff.mp begins with rfl | ⟨t, rfl, rest⟩
      · exact List.nil_prefix
      · exact (List.prefix_cons_inj c).mpr (ih (fun mem => plain (List.mem_cons_of_mem c mem)) rest)
    | sigil _ _ ih =>
      rcases List.prefix_cons_iff.mp begins with rfl | ⟨t, rfl, -⟩
      · exact List.nil_prefix
      · exact absurd List.mem_cons_self plain
    | arrow never => cases never
  induction edited with
  | nil => exact h
  | keep c edited ih =>
    rcases List.infix_cons_iff.mp h with begins | later
    · exact (start plain (.keep c edited) begins).isInfix
    · exact List.infix_cons (ih later)
  | sigil allowed edited ih =>
    rcases List.infix_cons_iff.mp h with begins | later
    · exact (start plain (.sigil allowed edited) begins).isInfix
    · exact ih later
  | arrow never => cases never

/-- Behind a slash no sigil is put in. -/
theorem infix_insertAll_iff {names : List String} (isName : ∀ n ∈ names, IsAsciiName n.toList)
    {w : List Char} (hw : IsAsciiName w) {s : List Char} :
    '/' :: w ++ ['.'] <:+: insertAll names none s ↔ '/' :: w ++ ['.'] <:+: s := by
  constructor
  · intro occurs
    obtain ⟨r, b, edited, whole⟩ := exists_insertAll_append names none s []
    have plain : '$' ∉ '/' :: w ++ ['.'] := by
      simp only [List.cons_append, List.mem_cons, List.mem_append, List.not_mem_nil,
        or_false, not_or]
      exact ⟨by decide, fun mem => absurd (hw.word _ mem) (by decide), by decide⟩
    rw [List.append_nil] at whole
    rw [whole, insertAll, List.append_nil] at occurs
    exact infix_of_edited plain edited occurs
  · rintro ⟨u, r, rfl⟩
    have regroup : u ++ ('/' :: w ++ ['.']) ++ r = u ++ (['/'] ++ (w ++ (['.'] ++ r))) := by simp
    have slash : ∀ c ∈ ['/'], isAsciiWord c = false := List.forall_mem_singleton.mpr (by decide)
    have dot : ∀ c ∈ ['.'], isAsciiWord c = false := List.forall_mem_singleton.mpr (by decide)
    have never : stands names (some '/') (w ++ (['.'] ++ r)) = false := by
      rw [stands, Option.all_some]
      exact Bool.false_and _
    obtain ⟨u', b, -, before⟩ := exists_insertAll_append names none u (['/'] ++ (w ++ (['.'] ++ r)))
    obtain ⟨b', word⟩ := @insertAll_name names w hw (some '/') (['.'] ++ r)
    rw [never, insertAll_between isName dot] at word
    rw [regroup, before, insertAll_between isName slash]
    change _ <:+: u' ++ (['/'] ++ insertAll names (some '/') (w ++ (['.'] ++ r)))
    rw [word]
    exact ⟨u', insertAll names (some '.') r, by simp⟩

/-- The rules for variables put in the sigils, and then turn each dot into an arrow that a name with
a sigil or a slash is written before. A sigil alone decides about the arrows exactly if no name
stands between a slash and a dot in the text. -/
theorem sigils_then_arrows (names : List String)
    (ids : ∀ n ∈ names, ClassDecl.isIdentifier n.toList = true)
    (s : List Char) :
    (sigils names).applyChars s = arrowAll ['$', '/'] names (insertAll names none s) ∧
    ((sigils names).applyChars s = arrowAll ['$'] names (insertAll names none s) ↔
      ¬ ∃ n ∈ names, '/' :: n.toList ++ ['.'] <:+: s) := by
  have isName : ∀ n ∈ names, IsAsciiName n.toList :=
    fun n hn => isAsciiName_of_isIdentifier (ids n hn)
  have passes := applyChars_sigils_eq isName s
  have slash := @arrowAll_concat_marks_iff ['$'] names '/' (by decide) (by decide)
    (List.forall_mem_singleton.mpr (by decide)) isName (insertAll names none s)
  refine ⟨passes, ?_⟩
  rw [passes]
  refine slash.trans (not_congr (exists_congr fun n => and_congr_right fun hn => ?_))
  exact infix_insertAll_iff isName (isName n hn)

/-- A member that is a name itself, a sigil that was there before, a quoted name and a path. -/
theorem sigils_then_arrows_path :
    (∀ n ∈ ["a", "id"], ClassDecl.isIdentifier n.toList = true) ∧
    (sigils ["a", "id"]).applyChars "a.id.x + $id.a + 'id.z' + /id.c".toList =
      "$a->id.x + $id->a + 'id.z' + /id->c".toList := by
  have ids : ∀ n ∈ ["a", "id"], ClassDecl.isIdentifier n.toList = true := by decide
  exact ⟨ids, (sigils_then_arrows ["a", "id"] ids _).1.trans (by decide +kernel)⟩

/-- The rules for sigils leave a path alone, and the rules for arrows do not. -/
theorem sigils_edit_path :
    insertAll ["id"] none "'/orders/id.json'".toList = "'/orders/id.json'".toList ∧
      (sigils ["id"]).applyChars "'/orders/id.json'".toList = "'/orders/id->json'".toList := by
  have isName : ∀ n ∈ ["id"], IsAsciiName n.toList := by decide
  exact ⟨by decide +kernel, (applyChars_sigils_eq isName _).trans (by decide +kernel)⟩

end Ruleset

end Polyglot
