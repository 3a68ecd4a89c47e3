import Polyglot.Imports
import Polyglot.Proofs.Exclusions
import Polyglot.Proofs.RenamedCalls
import Polyglot.Proofs.Sigils

/-!
Patterns that are made of names. Rules with names in them are built as patterns, and next to each
stands the text that spells it, with the names quoted. Whatever the names are, that text is read
without a fault and matches as the rule does: a quoted name can neither open nor close anything
(`Matcher.IsSpelled`). Only a name that is too long for the size of a pattern is refused.

Where names stand side by side as alternatives, the form that is read of them depends on what they
begin with, and only what it matches is the same.
-/

namespace Polyglot

open Relation

namespace Pattern

/-! ### Quoted texts with bars between them -/

theorem reads_quotes {ws : List (List Char)} (full : ws ≠ []) :
    Reads {} (List.intercalate ['|'] (ws.map quoteChars))
      (List.intercalate [.bar] (ws.map literals)) {} [] ∧
      (List.intercalate [Token.bar] (ws.map literals)).length ≤
        (List.intercalate ['|'] (ws.map quoteChars)).length := by
  induction ws with
  | nil => exact absurd rfl full
  | cons w ws ih =>
    have short := length_le_length_quoteChars w
    have length : (literals w).length = w.length := List.length_map _
    cases ws with
    | nil =>
      have alone := reads_quote w [] []
      rw [List.append_nil] at alone
      refine ⟨by simpa using alone, by simpa [length] using short⟩
    | cons w' ws =>
      obtain ⟨reads, more⟩ := ih (List.cons_ne_nil w' ws)
      rw [List.map_cons, List.map_cons, List.map_cons, List.map_cons, List.intercalate_cons_cons,
        List.intercalate_cons_cons, List.append_assoc, List.append_assoc]
      refine ⟨(reads_quote w [] _).trans ((reads_bar _).trans reads), ?_⟩
      simp only [List.length_append, List.length_singleton, length]
      simp only [List.map_cons] at more
      omega

/-- Each text becomes an alternative of its own. -/
theorem foldlM_literals_bars {ws : List (List Char)} (full : ws ≠ []) (branches : List Nested) :
    ∃ d, (List.intercalate [.bar] (ws.map literals)).foldlM Draft.step { branches := branches } =
      .ok d ∧ d.outer = [] ∧ d.names = [] ∧ d.groups = 0 ∧
      d.alternatives = branches.reverse ++ ws.map fun w => (wordItems w).toNested := by
  induction ws generalizing branches with
  | nil => exact absurd rfl full
  | cons w ws ih =>
    cases ws with
    | nil =>
      refine ⟨{ branches := branches, items := wordItems w ++ [] }, ?_, rfl, rfl, rfl, ?_⟩
      · rw [List.map_singleton, List.intercalate_singleton, foldlM_literals]
      · rw [Draft.alternatives, List.append_nil, List.reverse_cons]
        rfl
    | cons w' ws =>
      obtain ⟨d, run, closed, unnamed, ungrouped, alternatives⟩ :=
        ih (List.cons_ne_nil w' ws) ((wordItems w ++ []).toNested :: branches)
      refine ⟨d, ?_, closed, unnamed, ungrouped, ?_⟩
      · rw [List.map_cons, List.map_cons, List.intercalate_cons_cons, List.append_assoc,
          List.foldlM_append, foldlM_literals]
        exact run
      · rw [alternatives, List.reverse_cons, List.append_assoc, List.append_nil]
        rfl

theorem follow_ofChars (w : List Char) :
    Form.Follow (Form.ofChars w) = (seqAll (chars w)).Takes := by
  induction w with
  | nil => rfl
  | cons c w ih =>
    rw [Form.ofChars, List.map_cons, Form.follow_cons]
    exact (congrArg (Comp _) ih).trans (takes_seqAll_cons (char (.single c)) (chars w)).symm

theorem takes_altAll {ps : List Pattern} (full : ps ≠ []) (s t : Site) :
    (altAll ps).Takes s t ↔ ∃ p ∈ ps, p.Takes s t := by
  induction ps with
  | nil => exact absurd rfl full
  | cons p ps ih =>
    cases ps with
    | nil => simp [altAll]
    | cons q ps =>
      change p.Takes s t ∨ (altAll (q :: ps)).Takes s t ↔ _
      rw [ih (List.cons_ne_nil q ps)]
      simp only [List.mem_cons, exists_eq_or_imp]

/-- Quoted texts with bars between them match what one of them does. -/
theorem closes_quotes {ws : List (List Char)} (full : ws ≠ []) :
    Encloses (List.intercalate ['|'] (ws.map quoteChars)) ∧
      groupNames (List.intercalate ['|'] (ws.map quoteChars)) = [] ∧
      (draftOf (List.intercalate ['|'] (ws.map quoteChars))).groups = 0 ∧
      levels (List.intercalate ['|'] (ws.map quoteChars)) ≤ 2 ∧
      (draftOf (List.intercalate ['|'] (ws.map quoteChars))).body.form.Takes =
        (altAll (ws.map fun w => seqAll (chars w))).Takes := by
  obtain ⟨d, run, closed, unnamed, ungrouped, alternatives⟩ := foldlM_literals_bars full []
  obtain ⟨reads, short⟩ := reads_quotes full
  have finished : endsInComment (List.intercalate ['|'] (ws.map quoteChars)) = false := by
    rw [endsInComment, readTokens_eq_ok_iff.mpr ⟨short, rfl, _, rfl, reads⟩]
    rfl
  have drafted : draft (List.intercalate ['|'] (ws.map quoteChars)) = .ok d := by
    rw [draft, tokens_eq_ok reads rfl short]
    exact run
  obtain ⟨read, run, same⟩ := draft_eq_ok drafted
  refine ⟨⟨⟨read, same ▸ run, same ▸ closed⟩, finished⟩,
    by rw [groupNames, same, Draft.keys, unnamed]; rfl, by rw [same, ungrouped], ?_, ?_⟩
  · change levelOver ((draftOf _).alternatives.map Nested.depth) ≤ 2
    rw [same, alternatives]
    refine levelOver_le fun n mem => ?_
    simp only [List.reverse_nil, List.nil_append, List.map_map, List.mem_map] at mem
    obtain ⟨w, -, rfl⟩ := mem
    refine levelOver_le fun n mem => ?_
    obtain ⟨item, among, rfl⟩ := List.mem_map.mp mem
    exact Nat.le_of_eq (depth_wordItems among)
  · funext s t
    rw [eq_iff_iff, takes_altAll (by simpa using full)]
    refine (Form.takes_choose _ ((draftOf _).alternatives.map Nested.form) s t).trans ?_
    rw [same, alternatives]
    simp only [List.reverse_nil, List.nil_append, List.map_map, List.mem_map,
      exists_exists_and_eq_and, Function.comp_apply]
    refine exists_congr fun w => and_congr_right fun _ => ?_
    rw [Items.toNested, Form.takes_join, ← follow_ofChars, ← forms_wordItems]
    rfl

/-- The form of quoted texts with bars between them, behind `k` groups. -/
def quotesForm (ws : List (List Char)) (k : Nat) : Form :=
  (draftOf (List.intercalate ['|'] (ws.map quoteChars))).body.form.renumber k

theorem takes_quotesForm {ws : List (List Char)} (full : ws ≠ []) (k : Nat) :
    (quotesForm ws k).Takes = (altAll (ws.map fun w => seqAll (chars w))).Takes := by
  obtain ⟨-, -, -, -, takes⟩ := closes_quotes full
  rw [quotesForm, Form.takes_renumber, takes]

theorem writes_quotes {ws : List (List Char)} (full : ws ≠ []) :
    ∃ depth ≤ 3, Writes ('(' :: (List.intercalate ['|'] (ws.map quoteChars) ++ [')'])) 1 depth
      fun k => [.group (k + 1) (quotesForm ws (k + 1))] := by
  obtain ⟨encloses, unnamed, ungrouped, shallow, -⟩ := closes_quotes full
  have plain : (List.intercalate ['|'] (ws.map quoteChars)).head? ≠ some '?' := by
    cases ws with
    | nil => decide
    | cons w ws =>
      cases ws with
      | nil => simpa using head?_quoteChars_append w (r := []) (by decide)
      | cons w' ws =>
        rw [List.map_cons, List.map_cons, List.intercalate_cons_cons, List.append_assoc]
        exact head?_quoteChars_append w fun same => absurd (Option.some.inj same) (by decide)
  have writes := writes_group encloses.toCloses encloses.finished unnamed plain
  rw [ungrouped] at writes
  exact ⟨_, Nat.succ_le_succ shallow, writes⟩

end Pattern

open Pattern

theorem Matcher.isSpelled_of_ofSource {source : String} {m : Matcher}
    (h : Matcher.ofSource source = .ok m) : m.IsSpelled := by
  obtain ⟨⟨p, names⟩, read, same⟩ := exists_of_bind_ok h
  cases same
  obtain ⟨-, -, fits, rfl, -⟩ := ofSource_eq_ok_iff.mp read
  exact ⟨_, fun _ => rfl, by rw [read, if_pos fits]⟩

/-! ### Variables -/

namespace Ruleset

theorem isSpelled_sigilRule (name : String) : (sigilRule name).matcher.IsSpelled :=
  Matcher.isSpelled_of_writes (writes_sigilRule name) (by decide) rfl
    (congrArg Pattern.Takes (patterns_sigilForms name))

/-- The characters that may not stand before a property. -/
def beforeProperty : CharSet :=
  .compl (.ofItems (letterOrDigit ++ [.single '.', .single '>', .single '\'', .single '_']))

theorem fixed_beforeProperty :
    Fixed r"^|[^a-zA-Z0-9.>'_]".toList (.alt (.look .textStart) (.set beforeProperty)) 3 where
  read := by decide +kernel
  flat _ := rfl
  finished := by decide +kernel
  plain := by decide

theorem isSpelled_propertyRule (name : String) : (propertyRule name).matcher.IsSpelled := by
  have written : (propertyRule name).matcher.source.toList =
      '(' :: (r"^|[^a-zA-Z0-9.>'_]".toList ++ [')']) ++
      (quoteChars name.toList ++ quoteChars ['.']) := by
    have left :
        r"(^|[^a-zA-Z0-9.>'_])".toList = '(' :: (r"^|[^a-zA-Z0-9.>'_]".toList ++ [')']) := by
      decide +kernel
    have right : r"\.".toList = quoteChars ['.'] := by decide +kernel
    rw [← left, ← right, ← toList_quote, ← String.toList_append, ← String.toList_append,
      ← String.append_assoc]
    rfl
  have writes :=
    fixed_beforeProperty.writes.append ((writes_quote name.toList).append (writes_quote ['.']))
  rw [← written] at writes
  refine Matcher.isSpelled_of_writes writes (by decide) rfl (congrArg Pattern.Takes ?_)
  rw [List.flatMap_append, List.flatMap_append, Form.patterns_ofChars, Form.patterns_ofChars]
  rfl

/-- The rules for a method's variables are spelled by their texts, whatever the names. -/
theorem isSpelled_of_mem_sigils {names : List String} {rule : Rule}
    (mem : rule ∈ (sigils names).rules) : rule.matcher.IsSpelled := by
  simp only [sigils, List.mem_append, List.mem_map] at mem
  rcases mem with (⟨name, -, rfl⟩ | ⟨name, -, rfl⟩) | ⟨name, -, rfl⟩
  · exact isSpelled_sigilRule name
  · exact isSpelled_sigilRule name
  · exact isSpelled_propertyRule name

/-! ### Exception classes -/

theorem fixed_capitals : Fixed r"[^a-z]+".toList
    (.rep 1 none true (.set (.compl (.ofItems [.range 'a' 'z'])))) 2 where
  read := by decide +kernel
  flat _ := rfl
  finished := by decide +kernel
  plain := by decide

theorem fixed_behindName : Fixed r"\S".toList (.set (.compl .blank)) 0 where
  read := by decide +kernel
  flat _ := rfl
  finished := by decide +kernel
  plain := by decide

theorem isSpelled_errorNamesRule {names : List String} (full : names ≠ []) :
    (errorNamesRule names).matcher.IsSpelled := by
  have sorted : sortBy nameLe names ≠ [] := by
    intro none
    have length := length_sortBy nameLe names
    rw [none] at length
    exact full (List.length_eq_zero_iff.mp length.symm)
  generalize same : (sortBy nameLe names).map String.toList = ws
  have some : ws ≠ [] := by
    rw [← same]
    simpa using sorted
  have written :
      (errorNamesRule names).matcher.source.toList = '(' :: (r"[^a-z]+".toList ++ [')']) ++
      (quoteChars [' '] ++ (('(' :: (List.intercalate ['|'] (ws.map quoteChars) ++ [')'])) ++
        '(' :: (r"\S".toList ++ [')']))) := by
    rw [← same]
    simp [errorNamesRule, toList_quote, String.toList_intercalate, quoteChars, isMeta,
      Function.comp_def]
  have pattern : (errorNamesRule names).matcher.pattern =
      seqAll (group 1 (plus true (noneOf [.range 'a' 'z'])) ::
        (chars [' '] ++ group 2 (altAll (ws.map fun w => seqAll (chars w))) ::
          [group 3 (char (.compl .blank))])) := by
    rw [← same, List.map_map]
    rfl
  obtain ⟨depth, shallow, quotes⟩ := writes_quotes some
  have writes :=
    fixed_capitals.writes.append
      ((writes_quote [' ']).append (quotes.append fixed_behindName.writes))
  rw [← written] at writes
  refine Matcher.isSpelled_of_writes writes ?_ rfl ?_
  · simp only [Draft.maxDepth]
    omega
  · have middle : (group 2 (quotesForm ws 2).toPattern).Takes =
        (group 2 (altAll (ws.map fun w => seqAll (chars w)))).Takes := takes_quotesForm some 2
    rw [pattern, takes_seqAll_cons, takes_seqAll_append, takes_seqAll_cons, ← middle,
      ← takes_seqAll_cons, ← takes_seqAll_append, ← takes_seqAll_cons]
    rfl

end Ruleset

/-! ### Calls -/

namespace Name

theorem Entry.isSpelled_callRule (e : Entry) : e.callRule.matcher.IsSpelled :=
  Matcher.isSpelled_of_writes e.writes_callRule (by decide) rfl
    (congrArg Pattern.Takes e.patterns_callForms)

theorem CallStyle.isSpelled_callMatcher (style : CallStyle) (method : String) :
    (style.callMatcher method).IsSpelled :=
  Matcher.isSpelled_of_writes (writes_callMatcher style method) (by decide) rfl
    (congrArg Pattern.Takes (patterns_callForms style method))

end Name

/-! ### Imports -/

namespace Imports

/-- A name as a whole word, with the text that spells it. -/
def wordMatcher (name : String) : Matcher :=
  ⟨"(^|[^'\"\\w])" ++ quote name ++ "([^'\"\\w]|$)", wordPattern name, []⟩

theorem fixed_beforeWord : Fixed "^|[^'\"\\w]".toList
    (.alt (.look .textStart) (.set (.compl (.ofItems quotesAndWords)))) 3 where
  read := by decide +kernel
  flat _ := rfl
  finished := by decide +kernel
  plain := by decide

theorem fixed_behindWord : Fixed "[^'\"\\w]|$".toList
    (.alt (.set (.compl (.ofItems quotesAndWords))) (.look .textEnd)) 3 where
  read := by decide +kernel
  flat _ := rfl
  finished := by decide +kernel
  plain := by decide

theorem isSpelled_wordMatcher (name : String) : (wordMatcher name).IsSpelled := by
  have written : (wordMatcher name).source.toList = '(' :: ("^|[^'\"\\w]".toList ++ [')']) ++
      (quoteChars name.toList ++ '(' :: ("[^'\"\\w]|$".toList ++ [')'])) := by
    simp [wordMatcher, toList_quote]
  have writes :=
    fixed_beforeWord.writes.append ((writes_quote name.toList).append fixed_behindWord.writes)
  rw [← written] at writes
  refine Matcher.isSpelled_of_writes writes (by decide) rfl (congrArg Pattern.Takes ?_)
  rw [List.flatMap_append, List.flatMap_append, Form.patterns_ofChars]
  rfl

end Imports

end Polyglot
