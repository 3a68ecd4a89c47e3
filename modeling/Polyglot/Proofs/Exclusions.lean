import Polyglot.Settings.Basic
import Polyglot.Stale
import Polyglot.Proofs.TokenRuns

/-!
Exclusions are checked one by one and compiled as one pattern, each in parentheses of its own. What
the one pattern matches is what one of them does. That each of them is a pattern does not make the
whole one: two of them may name a group alike, and the parentheses and the bar between them count
for the nesting.
-/

namespace Polyglot

namespace Pattern

/-! ### Alternatives in parentheses -/

/-- A text in parentheses that remember nothing. -/
def grouped (s : List Char) : List Char :=
  '(' :: '?' :: ':' :: (s ++ [')'])

def groupTokens (s : List Char) : List Token :=
  .plain [] :: (tokensOf s ++ [.leave])

/-- The texts in parentheses, with bars between them. -/
def alternation (ss : List (List Char)) : List Char :=
  List.intercalate ['|'] (ss.map grouped)

def alternationTokens (ss : List (List Char)) : List Token :=
  List.intercalate [.bar] (ss.map groupTokens)

/-- A text that can be put in parentheses. -/
structure Encloses (s : List Char) : Prop extends Closes s where
  finished : endsInComment s = false

theorem alternation_cons_cons (s t : List Char) (ss : List (List Char)) :
    alternation (s :: t :: ss) = grouped s ++ '|' :: alternation (t :: ss) := by
  simp [alternation]

theorem alternationTokens_cons_cons (s t : List Char) (ss : List (List Char)) :
    alternationTokens (s :: t :: ss) = groupTokens s ++ .bar :: alternationTokens (t :: ss) := by
  simp [alternationTokens]

section Reading

variable {s : List Char} {ss : List (List Char)}

theorem reads_grouped (h : Encloses s) (r : List Char) :
    Reads {} (grouped s ++ r) (groupTokens s) {} r := by
  have inside := h.reads_enclosed h.finished {} [] r
  rw [grouped, List.cons_append, List.cons_append, List.cons_append, List.append_assoc]
  exact .token rfl rfl inside

theorem length_groupTokens_le (h : Closes s) : (groupTokens s).length ≤ (grouped s).length := by
  have short := h.length_tokensOf_le
  simp only [groupTokens, grouped, List.length_cons, List.length_append, List.length_nil]
  omega

theorem reads_bar (r : List Char) : Reads {} ('|' :: r) [.bar] {} r :=
  .token rfl rfl .stop

theorem reads_alternation (h : ∀ s ∈ ss, Encloses s) :
    Reads {} (alternation ss) (alternationTokens ss) {} [] ∧
      (alternationTokens ss).length ≤ (alternation ss).length := by
  induction ss with
  | nil => exact ⟨.stop, Nat.le_refl _⟩
  | cons s ss ih =>
    obtain ⟨first, others⟩ := List.forall_mem_cons.mp h
    have short := length_groupTokens_le first.toCloses
    cases ss with
    | nil =>
      have alone := reads_grouped first []
      simpa [alternation, alternationTokens] using And.intro alone short
    | cons t ss =>
      obtain ⟨reads, more⟩ := ih others
      rw [alternation_cons_cons, alternationTokens_cons_cons]
      refine ⟨(reads_grouped first _).trans ((reads_bar _).trans reads), ?_⟩
      simp only [List.length_append, List.length_cons]
      omega

theorem tokens_alternation (h : ∀ s ∈ ss, Encloses s) :
    tokens (alternation ss) = .ok (alternationTokens ss) := by
  obtain ⟨reads, short⟩ := reads_alternation h
  exact tokens_eq_ok reads rfl short

theorem not_mem_grouped (h : '\n' ∉ s) : '\n' ∉ grouped s := by
  simpa [grouped] using h

theorem not_mem_alternation (h : ∀ s ∈ ss, '\n' ∉ s) : '\n' ∉ alternation ss := by
  induction ss with
  | nil => exact List.not_mem_nil
  | cons s ss ih =>
    obtain ⟨first, others⟩ := List.forall_mem_cons.mp h
    cases ss with
    | nil => simpa [alternation] using not_mem_grouped first
    | cons t ss =>
      rw [alternation_cons_cons, List.mem_append, List.mem_cons, not_or, not_or]
      exact ⟨not_mem_grouped first, by decide, ih others⟩

/-- A text that ends in a comment leaves the group around it open, unless there is a line break
behind it. -/
theorem exists_reads_comment {before after : List (List Char)} (enclosed : ∀ t ∈ before, Encloses t)
    (closes : Closes s) (comment : endsInComment s = true) (unbroken : ∀ t ∈ after, '\n' ∉ t) :
    ∃ ts f rest, Reads {} (alternation (before ++ s :: after)) ts ⟨f, [{}]⟩ rest ∧
      f.skip rest = [] ∧ ts.length ≤ (alternation (before ++ s :: after)).length := by
  induction before with
  | nil =>
    obtain ⟨r, split, line⟩ : ∃ r, alternation (s :: after) = grouped s ++ r ∧ '\n' ∉ r := by
      cases after with
      | nil => exact ⟨[], by simp [alternation], List.not_mem_nil⟩
      | cons t after =>
        refine ⟨_, alternation_cons_cons s t after, ?_⟩
        rw [List.mem_cons, not_or]
        exact ⟨by decide, not_mem_alternation unbroken⟩
    obtain ⟨f, rest, reads, done⟩ := closes.reads_comment comment [{}] line
    refine ⟨.plain [] :: tokensOf s, f, rest, ?_, done, ?_⟩
    · rw [List.nil_append, split, grouped, List.cons_append, List.cons_append, List.cons_append,
        List.append_assoc]
      exact .token rfl rfl reads
    · have short := closes.length_tokensOf_le
      rw [List.nil_append, split]
      simp only [grouped, List.length_cons, List.length_append, List.length_nil]
      omega
  | cons t before ih =>
    obtain ⟨first, others⟩ := List.forall_mem_cons.mp enclosed
    obtain ⟨ts, f, rest, reads, done, short⟩ := ih others
    have split : alternation (t :: before ++ s :: after) =
        grouped t ++ '|' :: alternation (before ++ s :: after) := by
      cases before <;> exact alternation_cons_cons _ _ _
    have length := length_groupTokens_le first.toCloses
    rw [split]
    refine ⟨groupTokens t ++ .bar :: ts, f, rest, ?_, done, ?_⟩
    · exact (reads_grouped first _).trans ((reads_bar _).trans reads)
    · simp only [List.length_append, List.length_cons]
      omega

theorem ofSource_alternation_comment {before after : List (List Char)}
    (enclosed : ∀ t ∈ before, Encloses t) (closes : Closes s) (comment : endsInComment s = true)
    (unbroken : ∀ t ∈ after, '\n' ∉ t)
    (p : Pattern × List (List Char × Nat)) :
    ofSource (alternation (before ++ s :: after)) ≠ .ok p := by
  obtain ⟨ts, f, rest, reads, done, short⟩ := exists_reads_comment enclosed closes comment unbroken
  intro read
  obtain ⟨⟨same, drafted, closed⟩, -⟩ := ofSource_eq_ok_iff.mp read
  rw [tokens_eq_ok reads done short] at same
  obtain rfl := Except.ok.inj same
  obtain ⟨-, level⟩ := reads.under drafted rfl []
  rw [closed] at level
  cases level

end Reading

/-- The alternatives of the current group, the one under construction last. -/
def Draft.alternatives (d : Draft) : List Nested :=
  (d.items.toNested :: d.branches).reverse

/-- A form that stands for a text in parentheses. -/
structure Nested.Holds (s : List Char) (n : Nested) : Prop where
  takes : n.form.Takes = (draftOf s).body.form.Takes
  depth : n.depth = levels s + 1

theorem holds_enclosed (s : List Char) (k : Nat) :
    (Items.toNested [some ⟨(draftOf s).body.form.renumber k, levels s + 1⟩]).Holds s where
  takes := by
    change (Form.join [(draftOf s).body.form.renumber k]).Takes = _
    rw [Form.takes_join, Form.follow_singleton, Form.takes_renumber]
  depth := Nat.zero_max _

section Alternation

variable {base : Draft}

/-- What a bar does. -/
def Draft.next (d : Draft) : Draft :=
  { d with branches := d.items.toNested :: d.branches, items := [] }

theorem foldlM_groupTokens {s : List Char} (h : Closes s)
    (fresh : base.keys.Disjoint (groupNames s)) (us : List Token) :
    (groupTokens s ++ us).foldlM Draft.step base =
    us.foldlM Draft.step (base.enclose (draftOf s)) := by
  rw [groupTokens, List.cons_append, List.append_assoc]
  exact Draft.foldlM_enclosed h.drafted h.closed fresh us

theorem foldlM_groupTokens_error {s : List Char} (h : Closes s)
    (shared : ¬base.keys.Disjoint (groupNames s)) (us : List Token) :
    (groupTokens s ++ us).foldlM Draft.step base = .error .duplicateName := by
  rw [groupTokens, List.cons_append, List.append_assoc]
  exact Draft.foldlM_enclosed_error h.drafted shared us

/-- Texts with names of their own become one draft, with a form for each of them. -/
theorem exists_foldlM_alternationTokens {ss : List (List Char)} (full : ss ≠ [])
    (h : ∀ s ∈ ss, Closes s) (outer : base.outer = []) (items : base.items = [])
    (nodup : (base.keys ++ ss.flatMap groupNames).Nodup) :
    ∃ d ns, (alternationTokens ss).foldlM Draft.step base = .ok d ∧ d.outer = [] ∧
      d.alternatives = base.branches.reverse ++ ns ∧ List.Forall₂ Nested.Holds ss ns := by
  induction ss generalizing base with
  | nil => exact absurd rfl full
  | cons s ss ih =>
    have first := h s List.mem_cons_self
    rw [List.flatMap_cons, ← List.append_assoc] at nodup
    have fresh : base.keys.Disjoint (groupNames s) :=
      List.disjoint_of_nodup_append (List.nodup_append.mp nodup).1
    have holds := holds_enclosed s base.groups
    cases ss with
    | nil =>
      refine ⟨base.enclose (draftOf s), [_], ?_, outer, ?_, .cons holds .nil⟩
      · rw [alternationTokens, List.map_singleton, List.intercalate_singleton,
          ← List.append_nil (groupTokens s), foldlM_groupTokens first fresh]
        rfl
      · rw [Draft.alternatives, List.reverse_cons, Draft.enclose, items]
        rfl
    | cons t ss =>
      have outer' : (base.enclose (draftOf s)).next.outer = [] := outer
      have keys : (base.enclose (draftOf s)).next.keys = base.keys ++ groupNames s :=
        Draft.keys_enclose
      rw [← keys] at nodup
      obtain ⟨d, ns, run, closed, alternatives, others⟩ := ih (List.cons_ne_nil t ss)
        (fun u mem => h u (List.mem_cons_of_mem s mem)) outer' rfl nodup
      refine ⟨d, _ :: ns, ?_, closed, ?_, .cons holds others⟩
      · rw [alternationTokens, List.map_cons, List.map_cons, List.intercalate_cons_cons,
          List.append_assoc, foldlM_groupTokens first fresh]
        exact run
      · rw [alternatives, Draft.next, Draft.enclose, items, List.reverse_cons, List.append_assoc]
        rfl

theorem foldlM_alternationTokens_error {ss : List (List Char)} (h : ∀ s ∈ ss, Closes s)
    (before : base.keys.Nodup)
    (shared : ¬(base.keys ++ ss.flatMap groupNames).Nodup) :
    (alternationTokens ss).foldlM Draft.step base = .error .duplicateName := by
  induction ss generalizing base with
  | nil => exact absurd (by simpa using before) shared
  | cons s ss ih =>
    have first := h s List.mem_cons_self
    have own : (groupNames s).Nodup := Draft.nodup_keys_foldlM first.drafted List.nodup_nil
    rw [List.flatMap_cons, ← List.append_assoc] at shared
    by_cases fresh : base.keys.Disjoint (groupNames s)
    · have keys : (base.enclose (draftOf s)).next.keys = base.keys ++ groupNames s :=
        Draft.keys_enclose
      have nodup := before.append own fresh
      rw [← keys] at shared nodup
      cases ss with
      | nil => exact absurd (by simpa using nodup) shared
      | cons t ss =>
        rw [alternationTokens, List.map_cons, List.map_cons, List.intercalate_cons_cons,
          List.append_assoc, foldlM_groupTokens first fresh]
        exact ih (fun u mem => h u (List.mem_cons_of_mem s mem)) nodup shared
    · obtain ⟨us, split⟩ : ∃ us, alternationTokens (s :: ss) = groupTokens s ++ us := by
        cases ss with
        | nil => exact ⟨[], by simp [alternationTokens]⟩
        | cons t ss => exact ⟨_, by rw [alternationTokens, List.map_cons, List.map_cons,
            List.intercalate_cons_cons, List.append_assoc]⟩
      rw [split]
      exact foldlM_groupTokens_error first fresh us

end Alternation

section Joined

variable {ss : List (List Char)}

/-- Texts with names of their own are read together, each as one alternative. -/
theorem closes_alternation (full : ss ≠ []) (h : ∀ s ∈ ss, Encloses s)
    (nodup : (ss.flatMap groupNames).Nodup) :
    Closes (alternation ss) ∧
      List.Forall₂ Nested.Holds ss (draftOf (alternation ss)).alternatives := by
  have outer : ({} : Draft).outer = [] := rfl
  obtain ⟨d, ns, run, closed, alternatives, holds⟩ :=
    exists_foldlM_alternationTokens full (fun s mem => (h s mem).toCloses) outer rfl nodup
  have drafted : draft (alternation ss) = .ok d := by
    rw [draft, tokens_alternation h]
    exact run
  obtain ⟨read, drafted, rfl⟩ := draft_eq_ok drafted
  refine ⟨⟨read, drafted, closed⟩, ?_⟩
  rw [alternatives]
  exact holds

theorem draft_alternation_error (h : ∀ s ∈ ss, Encloses s)
    (shared : ¬(ss.flatMap groupNames).Nodup) : draft (alternation ss) = .error .duplicateName := by
  rw [draft, tokens_alternation h]
  exact foldlM_alternationTokens_error (fun s mem => (h s mem).toCloses) List.nodup_nil shared

theorem nodup_of_closes (h : ∀ s ∈ ss, Encloses s) (closes : Closes (alternation ss)) :
    (ss.flatMap groupNames).Nodup := by
  by_contra shared
  have failed := closes.draft
  rw [draft_alternation_error h shared] at failed
  cases failed

theorem exists_takes_iff {ns : List Nested} (holds : List.Forall₂ Nested.Holds ss ns) (s t : Site) :
    (∃ f ∈ ns.map Nested.form, f.Takes s t) ↔ ∃ u ∈ ss, (draftOf u).body.form.Takes s t := by
  induction holds with
  | nil => simp
  | cons first _ ih =>
    simp only [List.map_cons, List.mem_cons, exists_eq_or_imp, first.takes]
    exact or_congr Iff.rfl ih

theorem map_depth {ns : List Nested} (holds : List.Forall₂ Nested.Holds ss ns) :
    ns.map Nested.depth = ss.map (levels · + 1) := by
  induction holds with
  | nil => rfl
  | cons first _ ih => rw [List.map_cons, List.map_cons, first.depth, ih]

theorem takes_alternation
    (holds : List.Forall₂ Nested.Holds ss (draftOf (alternation ss)).alternatives)
    (s t : Site) :
    (draftOf (alternation ss)).body.form.Takes s t ↔ ∃ u ∈ ss, (draftOf u).body.form.Takes s t :=
  (Form.takes_choose _ _ s t).trans (exists_takes_iff holds s t)

theorem levels_alternation_le (full : ss ≠ [])
    (holds : List.Forall₂ Nested.Holds ss (draftOf (alternation ss)).alternatives) {bound : Nat} :
    levels (alternation ss) ≤ bound ↔ ∀ s ∈ ss, levels s +
      (if 1 < ss.length then 2 else 1) ≤ bound := by
  have level : levels (alternation ss) = levelOver (ss.map (levels · + 1)) := by
    rw [← map_depth holds]
    rfl
  rw [level, levelOver_le_iff (by simpa using full), List.length_map, List.forall_mem_map]
  refine forall₂_congr fun s _ => ?_
  split <;> split <;> omega

/-- Whether texts are a pattern together: none of them may name a group as another one does, and
with the parentheses around them and the bars between them they must not be nested too deep. -/
theorem ofSource_alternation (full : ss ≠ []) (h : ∀ s ∈ ss, Encloses s)
    (sized : ofSource (alternation ss) ≠ .error .tooLarge) :
    (∃ p, ofSource (alternation ss) = .ok p) ↔ (ss.flatMap groupNames).Nodup ∧
      ∀ s ∈ ss, levels s + (if 1 < ss.length then 2 else 1) ≤ Draft.maxDepth := by
  constructor
  · rintro ⟨⟨p, names⟩, read⟩
    obtain ⟨closes, shallow, -⟩ := ofSource_eq_ok_iff.mp read
    have nodup := nodup_of_closes h closes
    exact ⟨nodup, (levels_alternation_le full (closes_alternation full h nodup).2).mp shallow⟩
  · rintro ⟨nodup, shallow⟩
    obtain ⟨closes, holds⟩ := closes_alternation full h nodup
    have shallow := (levels_alternation_le full holds).mpr shallow
    by_cases fits : (draftOf (alternation ss)).body.form.fits = true
    · exact ⟨_, ofSource_eq_ok_iff.mpr ⟨closes, shallow, fits, rfl, rfl⟩⟩
    · refine absurd ?_ sized
      rw [ofSource_eq_bind, closes.draft]
      change ((draftOf (alternation ss)).finish >>= _) = _
      rw [Draft.finish_eq_tooLarge closes.closed shallow fits]
      rfl

/-- Texts that are a pattern together match what one of them does. -/
theorem isMatch_alternation (full : ss ≠ []) (h : ∀ s ∈ ss, Encloses s) {p : Pattern}
    {names : List (List Char × Nat)} (read : ofSource (alternation ss) = .ok (p, names))
    (w : List Char) :
    p.isMatch w = true ↔ ∃ s ∈ ss, (draftOf s).body.form.toPattern.isMatch w = true := by
  obtain ⟨closes, -, -, rfl, -⟩ := ofSource_eq_ok_iff.mp read
  have takes := takes_alternation (closes_alternation full h (nodup_of_closes h closes)).2
  simp only [isMatch_iff_takes]
  constructor
  · rintro ⟨u, v, t, whole, matched⟩
    obtain ⟨s, mem, matched⟩ := (takes _ t).mp matched
    exact ⟨s, mem, u, v, t, whole, matched⟩
  · rintro ⟨s, mem, u, v, t, whole, matched⟩
    exact ⟨u, v, t, whole, (takes _ t).mpr ⟨s, mem, matched⟩⟩

end Joined

end Pattern

/-! ### Exclusions -/

namespace Stale.Exclusions

open Pattern (ofSource groupNames levels alternation endsInComment Closes Encloses)

theorem toList_joined (sources : List String) :
    (joined sources).toList = alternation (sources.map String.toList) := by
  rw [joined, String.toList_intercalate, alternation, List.map_map, List.map_map]
  congr 1
  refine List.map_congr_left fun source _ => ?_
  simp [Pattern.grouped]

theorem isEmpty_joined_cons (source : String) (sources : List String) :
    (joined (source :: sources)).isEmpty = false := by
  rw [← Bool.not_eq_true, String.isEmpty_iff, ← String.toList_inj, toList_joined]
  cases sources with
  | nil => simp [alternation, Pattern.grouped]
  | cons other sources => simp [alternation, Pattern.grouped]

theorem ofSource_of_validate {choice : PruneChoice} (h : choice.validate = .ok ()) :
    ∀ source ∈ choice.exclusions, ∃ p names, ofSource source.toList = .ok (p, names) := by
  obtain ⟨enabled, exclusions⟩ := choice
  simp only [PruneChoice.validate] at h ⊢
  induction exclusions with
  | nil => simp
  | cons source sources ih =>
    rw [List.forM] at h
    obtain ⟨⟨⟩, first, others⟩ := exists_of_bind_ok h
    refine List.forall_mem_cons.mpr ⟨?_, ih others⟩
    split at first
    · next p read => exact ⟨p.1, p.2, read⟩
    · cases first

theorem ofTexts_eq_ok_iff {sources : List String} (full : sources ≠ []) {e : Exclusions} :
    ofTexts sources = .ok e ↔
      ∃ p names, ofSource (alternation (sources.map String.toList)) =
        .ok (p, names) ∧ e = ⟨some p⟩ := by
  obtain ⟨source, sources, rfl⟩ := List.exists_cons_of_ne_nil full
  rw [ofTexts, isEmpty_joined_cons, if_neg Bool.false_ne_true, toList_joined]
  constructor
  · intro h
    split at h
    · next p names read =>
      cases h
      exact ⟨p, names, read, rfl⟩
    · cases h
  · rintro ⟨p, names, read, rfl⟩
    rw [read]

section Patterns

variable {sources : List String}
  (patterns : ∀ source ∈ sources, ∃ p names, ofSource source.toList = .ok (p, names))

include patterns

theorem closes_of_patterns : ∀ s ∈ sources.map String.toList, Closes s := by
  rw [List.forall_mem_map]
  intro source mem
  obtain ⟨p, names, read⟩ := patterns source mem
  exact (Pattern.ofSource_eq_ok_iff.mp read).1

theorem encloses_of_patterns (finished : ∀ source ∈ sources, endsInComment source.toList = false) :
    ∀ s ∈ sources.map String.toList, Encloses s := by
  intro s mem
  refine ⟨closes_of_patterns patterns s mem, ?_⟩
  obtain ⟨source, among, rfl⟩ := List.mem_map.mp mem
  exact finished source among

/-- The first exclusion that ends in a comment takes in what follows it. -/
theorem finished_of_ofTexts
    (unbroken : sources.Pairwise fun source later =>
      endsInComment source.toList = true → '\n' ∉ later.toList)
    {e : Exclusions} (h : ofTexts sources = .ok e) :
    ∀ source ∈ sources, endsInComment source.toList = false := by
  cases found : sources.find? fun source => endsInComment source.toList with
  | none => exact fun source mem => Bool.eq_false_iff.mpr (List.find?_eq_none.mp found source mem)
  | some source =>
    exfalso
    obtain ⟨comment, before, after, rfl, first⟩ := List.find?_eq_some_iff_append.mp found
    have enclosed : ∀ s ∈ before.map String.toList, Encloses s :=
      encloses_of_patterns (fun source mem => patterns source (List.mem_append_left _ mem))
        fun source mem => by simpa using first source mem
    have closes : Closes source.toList :=
      closes_of_patterns patterns _ (List.mem_map_of_mem (by simp))
    have line : ∀ s ∈ after.map String.toList, '\n' ∉ s := by
      rw [List.forall_mem_map]
      intro later mem
      exact List.rel_of_pairwise_cons (List.pairwise_append.mp unbroken).2.1 mem comment
    obtain ⟨p, names, read, -⟩ := (ofTexts_eq_ok_iff (by simp)).mp h
    rw [List.map_append, List.map_cons] at read
    exact Pattern.ofSource_alternation_comment enclosed closes comment line _ read

theorem exists_ofTexts_iff (finished : ∀ source ∈ sources, endsInComment source.toList = false)
    (sized : ofSource (joined sources).toList ≠ .error .tooLarge) :
    (∃ e, ofTexts sources = .ok e) ↔
      (sources.flatMap fun source => groupNames source.toList).Nodup ∧
        ∀ source ∈ sources,
          levels source.toList + (if 1 < sources.length then 2 else 1) ≤
            Pattern.Draft.maxDepth := by
  by_cases empty : sources = []
  · subst empty
    exact ⟨fun _ => ⟨List.nodup_nil, by simp⟩, fun _ => ⟨⟨none⟩, rfl⟩⟩
  · have full : sources.map String.toList ≠ [] := by simpa using empty
    rw [toList_joined] at sized
    have together :=
      Pattern.ofSource_alternation full (encloses_of_patterns patterns finished) sized
    rw [List.flatMap_map, List.length_map, List.forall_mem_map] at together
    rw [← together]
    constructor
    · rintro ⟨e, h⟩
      obtain ⟨p, names, read, -⟩ := (ofTexts_eq_ok_iff empty).mp h
      exact ⟨(p, names), read⟩
    · rintro ⟨⟨p, names⟩, read⟩
      exact ⟨⟨some p⟩, (ofTexts_eq_ok_iff empty).mpr ⟨p, names, read, rfl⟩⟩

theorem isProtected_iff (finished : ∀ source ∈ sources, endsInComment source.toList = false)
    {e : Exclusions} (h : ofTexts sources = .ok e) (name : String) :
    e.isProtected name = true ↔
      ∃ source ∈ sources, ∃ m, Matcher.ofSource source = .ok m ∧ m.isMatch name = true := by
  have alone : ∀ source ∈ sources, ((∃ m, Matcher.ofSource source = .ok m ∧ m.isMatch name = true) ↔
      (Pattern.draftOf source.toList).body.form.toPattern.isMatch name.toList = true) := by
    intro source mem
    obtain ⟨p, names, read⟩ := patterns source mem
    have matcher : Matcher.ofSource source = .ok ⟨source, p, names⟩ := by
      rw [Matcher.ofSource, read]
      rfl
    obtain ⟨-, -, -, rfl, -⟩ := Pattern.ofSource_eq_ok_iff.mp read
    constructor
    · rintro ⟨m, hm, matched⟩
      rw [matcher] at hm
      cases hm
      exact matched
    · intro matched
      exact ⟨_, matcher, matched⟩
  by_cases empty : sources = []
  · subst empty
    cases h
    simp [isProtected]
  · have full : sources.map String.toList ≠ [] := by simpa using empty
    obtain ⟨p, names, read, rfl⟩ := (ofTexts_eq_ok_iff empty).mp h
    have matched :=
      Pattern.isMatch_alternation full (encloses_of_patterns patterns finished) read name.toList
    simp only [List.mem_map, exists_exists_and_eq_and] at matched
    change p.isMatch name.toList = true ↔ _
    rw [matched]
    constructor
    · rintro ⟨source, mem, matched⟩
      exact ⟨source, mem, (alone source mem).mpr matched⟩
    · rintro ⟨source, mem, matched⟩
      exact ⟨source, mem, (alone source mem).mp matched⟩

end Patterns

/-- Exclusions that were validated one by one are compiled together, as far as their size allows, if
none of them ends in a comment, none names a group as another one does and the whole is not nested
too deep. They then protect the names that one of them matches alone. A comment at the end of an
exclusion must not reach a line break in a later one: it would end there, and what is before the
break would be lost. -/
theorem ofTexts_of_validate {choice : PruneChoice} (valid : choice.validate = .ok ())
    (sized : ofSource (joined choice.exclusions).toList ≠ .error .tooLarge)
    (unbroken : choice.exclusions.Pairwise fun source later =>
      endsInComment source.toList = true → '\n' ∉ later.toList) :
    ((∃ e, ofTexts choice.exclusions = .ok e) ↔
      (∀ source ∈ choice.exclusions, endsInComment source.toList = false) ∧
      (choice.exclusions.flatMap fun source => groupNames source.toList).Nodup ∧
        ∀ source ∈ choice.exclusions,
          levels source.toList + (if 1 < choice.exclusions.length then 2 else 1) ≤
            Pattern.Draft.maxDepth) ∧
      ∀ e, ofTexts choice.exclusions = .ok e → ∀ name, e.isProtected name = true ↔
        ∃ source ∈ choice.exclusions, ∃ m, Matcher.ofSource source = .ok m ∧
          m.isMatch name = true := by
  have patterns := ofSource_of_validate valid
  refine ⟨⟨?_, ?_⟩, ?_⟩
  · rintro ⟨e, h⟩
    have finished := finished_of_ofTexts patterns unbroken h
    exact ⟨finished, (exists_ofTexts_iff patterns finished sized).mp ⟨e, h⟩⟩
  · rintro ⟨finished, apart⟩
    exact (exists_ofTexts_iff patterns finished sized).mpr apart
  · intro e h name
    exact isProtected_iff patterns (finished_of_ofTexts patterns unbroken h) h name

/-- Exclusions with flags, a comment, a named group, another group and anchors. -/
theorem ofTexts_of_validate_mixed :
    ∃ e, ofTexts ["(?i-u)^ab$", "(?x) (?P<kind>x|y)+ \\.py $ # either\n", r"(_)\p{Nd}{2}"] = .ok e ∧
      e.isProtected "xyx.py" = true ∧ e.isProtected "_1.py" = false := by
  have valid : PruneChoice.validate
      ⟨true, ["(?i-u)^ab$", "(?x) (?P<kind>x|y)+ \\.py $ # either\n", r"(_)\p{Nd}{2}"]⟩ = .ok () :=
    eq_ok_of_toOption (by decide +kernel)
  obtain ⟨compiled, protects⟩ := ofTexts_of_validate valid (by decide +kernel) (by decide +kernel)
  obtain ⟨e, he⟩ := compiled.mpr (by decide +kernel)
  refine ⟨e, he, ?_, Bool.eq_false_iff.mpr fun matched => ?_⟩
  · have found : ((Matcher.ofSource "(?x) (?P<kind>x|y)+ \\.py $ # either\n").toOption.any
        (·.isMatch "xyx.py")) = true := by
      decide +kernel
    obtain ⟨m, hm, matched⟩ := (Option.any_eq_true _ _).mp found
    exact (protects e he "xyx.py").mpr ⟨_, by simp, m, eq_ok_of_toOption hm, matched⟩
  · obtain ⟨source, mem, m, hm, matched⟩ := (protects e he "_1.py").mp matched
    have none : ∀ source ∈ ["(?i-u)^ab$", "(?x) (?P<kind>x|y)+ \\.py $ # either\n",
      r"(_)\p{Nd}{2}"],
        ((Matcher.ofSource source).toOption.any (·.isMatch "_1.py")) = false := by decide +kernel
    have failed := none source mem
    rw [hm, Except.toOption, Option.any_some, matched] at failed
    cases failed

-- The comment of the first ends at the line break of the second, of which only the last letter is
-- left.
example : (ofTexts ["(?x)a # note", "b\nc"]).toOption.map
    (fun e => (e.isProtected "ac", e.isProtected "b\nc")) = some (true, false) := by
  decide +kernel

/-- Two exclusions that name a group alike pass the check one by one and fail together. -/
theorem ofTexts_error_sharedName :
    PruneChoice.validate ⟨true, ["(?P<name>^a)", "(?P<name>^b)"]⟩ = .ok () ∧
      ofTexts ["(?P<name>^a)", "(?P<name>^b)"] = .error (.configuration
        "invalid prune exclusion pattern: duplicate capture group name"
          (some "prune_exclusions")) :=
  ⟨eq_ok_of_toOption (by decide +kernel), eq_error_of_match (by decide +kernel)⟩

end Stale.Exclusions

end Polyglot
