import Mathlib.Order.Bounds.Defs
import Polyglot.Proofs.Language
import Polyglot.Proofs.Results
import Polyglot.Ruleset.Basic

/-!
Rules that are pending on a text. A rule changes a text only where its pattern matches. Up to the
first change the rules of a ruleset see the text as it was given, so the first rule that changes it
matches the given text (`exists_isMatch_of_first`) and is pending. A rule further on may change the
text and not be pending: it may match only what a rule before it has made.
-/

namespace Polyglot.Ruleset

variable {rules : List Rule} {s : List Char} {n : Nat}

/-- The text that the first `n` rules make. -/
def textAfter (rules : List Rule) (n : Nat) (s : List Char) : List Char :=
  (rules.take n).foldl (fun text rule => rule.apply text) s

/-- The rule at place `n` changes what the rules before it have made. -/
def ChangesAt (rules : List Rule) (s : List Char) (n : Nat) : Prop :=
  textAfter rules (n + 1) s ≠ textAfter rules n s

instance (rules : List Rule) (s : List Char) (n : Nat) : Decidable (ChangesAt rules s n) :=
  inferInstanceAs (Decidable (textAfter rules (n + 1) s ≠ textAfter rules n s))

theorem textAfter_succ {rule : Rule} (here : rules[n]? = some rule) (s : List Char) :
    textAfter rules (n + 1) s = rule.apply (textAfter rules n s) := by
  rw [textAfter, List.take_add_one, here, List.foldl_append]
  rfl

/-- Behind the last rule nothing changes. -/
theorem exists_rule_of_changesAt (h : ChangesAt rules s n) :
    ∃ rule, rules[n]? = some rule ∧ rule.apply (textAfter rules n s) ≠ textAfter rules n s := by
  cases here : rules[n]? with
  | none =>
    have short : rules.length ≤ n := List.getElem?_eq_none_iff.mp here
    have same : textAfter rules (n + 1) s = textAfter rules n s := by
      rw [textAfter, textAfter, List.take_of_length_le short,
        List.take_of_length_le (Nat.le_succ_of_le short)]
    exact absurd same h
  | some rule =>
    rw [ChangesAt, textAfter_succ here] at h
    exact ⟨rule, rfl, h⟩

theorem textAfter_eq_self (h : ∀ m < n, ¬ ChangesAt rules s m) : textAfter rules n s = s := by
  induction n with
  | zero => rfl
  | succ n ih =>
    have step : textAfter rules (n + 1) s = textAfter rules n s :=
      not_not.mp (h n (Nat.lt_succ_self n))
    rw [step]
    apply ih
    intro m hm
    exact h m (Nat.lt_succ_of_lt hm)

/-- The first rule that changes a text matches the text as it was given. -/
theorem exists_isMatch_of_first (first : IsLeast {m | ChangesAt rules s m} n) :
    ∃ rule, rules[n]? = some rule ∧ rule.isMatch s = true := by
  obtain ⟨change, least⟩ := first
  obtain ⟨rule, here, changed⟩ := exists_rule_of_changesAt change
  have given : textAfter rules n s = s := by
    apply textAfter_eq_self
    intro m hm earlier
    exact absurd (least earlier) (Nat.not_le_of_lt hm)
  rw [given] at changed
  cases found : rule.isMatch s with
  | true => exact ⟨rule, here, found⟩
  | false => exact absurd (Rule.apply_of_not_isMatch found) changed

/-- The list of changes begins with the first of them. -/
theorem head?_changes_go (k : Nat) (first : IsLeast {m | ChangesAt rules s m} n) :
    (changes.go k rules s).head? = some (k + n) := by
  obtain ⟨change, least⟩ := first
  induction n generalizing rules s k with
  | zero =>
    cases rules with
    | nil => exact absurd rfl change
    | cons rule rules =>
      have changed : rule.apply s ≠ s := change
      rw [changes.go, if_neg changed]
      rfl
  | succ n ih =>
    cases rules with
    | nil => exact absurd rfl change
    | cons rule rules =>
      have unchanged : rule.apply s = s := by
        by_contra changed
        exact absurd (least (a := 0) changed) (Nat.not_succ_le_zero n)
      have later : (changes.go (k + 1) rules (rule.apply s)).head? = some (k + 1 + n) := by
        apply ih (k + 1) change
        intro m hm
        exact Nat.le_of_succ_le_succ (least (a := m + 1) hm)
      rw [changes.go, if_pos unchanged, later, Nat.add_right_comm, Nat.add_assoc]

theorem head?_changes {c : Ruleset} {s : String}
    (first : IsLeast {m | ChangesAt c.rules s.toList m} n) :
    (c.changes s).head? = some n := by
  rw [changes, head?_changes_go 0 first, Nat.zero_add]

/-! ### The rules that match -/

theorem mem_pending_iff {c : Ruleset} {s : String} :
    n ∈ c.pending s ↔ ∃ rule, c.rules[n]? = some rule ∧ rule.isMatch s.toList = true := by
  rw [pending, indices, List.mem_map]
  constructor
  · rintro ⟨⟨rule, m⟩, mem, rfl⟩
    obtain ⟨inside, found⟩ := List.mem_filter.mp mem
    exact ⟨rule, List.mem_zipIdx_iff_getElem?.mp inside, found⟩
  · rintro ⟨rule, here, found⟩
    exact ⟨(rule, n), List.mem_filter.mpr ⟨List.mem_zipIdx_iff_getElem?.mpr here, found⟩, rfl⟩

theorem pending_eq_nil_iff {c : Ruleset} {s : String} :
    c.pending s = [] ↔ ∀ rule ∈ c.rules, rule.isMatch s.toList = false := by
  rw [List.eq_nil_iff_forall_not_mem]
  constructor
  · intro none rule mem
    obtain ⟨n, here⟩ := List.mem_iff_getElem?.mp mem
    apply Bool.eq_false_iff.mpr
    intro found
    exact none n (mem_pending_iff.mpr ⟨rule, here, found⟩)
  · intro none n mem
    obtain ⟨rule, here, found⟩ := mem_pending_iff.mp mem
    rw [none rule (List.mem_of_getElem? here)] at found
    cases found

/-- A text that no rule matches stays. -/
theorem applyChars_of_not_isMatch {c : Ruleset} {s : List Char}
    (h : ∀ rule ∈ c.rules, rule.isMatch s = false) : c.applyChars s = s := by
  obtain ⟨title, rules⟩ := c
  change rules.foldl (fun text rule => rule.apply text) s = s
  induction rules with
  | nil => rfl
  | cons rule rules ih =>
    obtain ⟨here, others⟩ := List.forall_mem_cons.mp h
    rw [List.foldl_cons, Rule.apply_of_not_isMatch here]
    exact ih others

theorem apply_concat (name : String) (parts : List Ruleset) (s : String) :
    (concat name parts).apply s = parts.foldl (fun text part => part.apply text) s := by
  have onChars (text : String) : parts.foldl (fun text part => part.apply text) text =
      String.ofList (parts.foldl (fun text part => part.applyChars text) text.toList) := by
    induction parts generalizing text with
    | nil => exact String.ofList_toList.symm
    | cons part parts ih =>
      rw [List.foldl_cons, List.foldl_cons, ih, apply, String.toList_ofList]
  rw [onChars, apply, applyChars_concat]

/-- Applying a ruleset applies its rules one after another. The pending rules are those whose
pattern takes some part of the text. If applying the ruleset changes the text at all, then the first
rule that changes it is pending, so where none is pending the text stays. Concatenated rulesets are
applied one after another. -/
theorem pending_sound (c : Ruleset) (s : String) :
    c.apply s = String.ofList (textAfter c.rules c.rules.length s.toList) ∧
    (∀ n, n ∈ c.pending s ↔ ∃ rule, c.rules[n]? = some rule ∧
      ∃ u v t, s.toList = u ++ v ∧ rule.matcher.pattern.Takes ⟨u.getLast?, v⟩ t) ∧
    (∀ n, IsLeast {m | ChangesAt c.rules s.toList m} n →
      n ∈ c.pending s ∧ (c.changes s).head? = some n) ∧
    (c.pending s = [] → c.apply s = s) ∧
    ∀ (name : String) (parts : List Ruleset),
      (concat name parts).apply s = parts.foldl (fun text part => part.apply text) s := by
  refine ⟨?_, ?_, ?_, ?_, ?_⟩
  · rw [textAfter, List.take_length]
    rfl
  · intro n
    rw [mem_pending_iff]
    simp only [Rule.isMatch, Pattern.isMatch_iff_takes]
  · intro n first
    exact ⟨mem_pending_iff.mpr (exists_isMatch_of_first first), head?_changes first⟩
  · intro none
    rw [apply, applyChars_of_not_isMatch (pending_eq_nil_iff.mp none), String.ofList_toList]
  · intro name parts
    exact apply_concat name parts s

/-- The first rule matches and changes nothing, the second makes the first change, and the third
changes what the second has made without being pending. -/
theorem pending_sound_chain :
    ∃ c, ofTable "chain" [("x*", "${0}"), ("a", "b"), ("b", "c")] = .ok c ∧
      IsLeast {m | ChangesAt c.rules "ya".toList m} 1 ∧ 1 ∈ c.pending "ya" ∧
      ChangesAt c.rules "ya".toList 2 ∧ c.pending "ya" = [0, 1] := by
  have run : ((ofTable "chain" [("x*", "${0}"), ("a", "b"), ("b", "c")]).toOption.any fun c =>
      decide (¬ ChangesAt c.rules "ya".toList 0 ∧ ChangesAt c.rules "ya".toList 1 ∧
        ChangesAt c.rules "ya".toList 2 ∧ c.pending "ya" = [0, 1])) = true := by
    decide +kernel
  obtain ⟨c, read, run⟩ := (Option.any_eq_true _ _).mp run
  obtain ⟨unchanged, changed, further, pending⟩ := of_decide_eq_true run
  have first : IsLeast {m | ChangesAt c.rules "ya".toList m} 1 := by
    constructor
    · exact changed
    · intro m change
      cases m with
      | zero => exact absurd change unchanged
      | succ m => exact Nat.le_add_left 1 m
  exact ⟨c, eq_ok_of_toOption read, first, ((pending_sound c "ya").2.2.1 1 first).1,
    further, pending⟩

end Polyglot.Ruleset
