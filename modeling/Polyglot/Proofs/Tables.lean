import Polyglot.Proofs.Keywords
import Polyglot.Proofs.Pending
import Polyglot.Proofs.Sketches
import Polyglot.Ruleset.Basic

/-!
The way of a text through a table of rules. `Ruleset.Yields` says what the table makes of the text,
and it is shown row by row: a rule may find nothing in a sketch of the text, or look for a keyword
that the text does not have, or its pattern is known and so is what it does.
-/

namespace Polyglot

open Pattern Text
open Sketch (Shows)

/-- The pattern of a rule is what its text says. -/
theorem Rule.spelled_of_ofTexts {source : List Char} {template : String} {rule : Rule}
    (h : Rule.ofTexts (String.ofList source) template = .ok rule) :
    (Pattern.ofSource source).toOption = some (rule.matcher.pattern, rule.matcher.names) ∧
      rule.template = template := by
  rw [Rule.ofTexts, Matcher.ofSource, String.toList_ofList] at h
  cases read : Pattern.ofSource source with
  | error flaw =>
    rw [read] at h
    cases h
  | ok parsed =>
    rw [read] at h
    obtain rfl := Except.ok.inj h
    exact ⟨rfl, rfl⟩

namespace Ruleset

theorem exists_of_mapM_cons {row : String × String} {table : List (String × String)}
    {rules : List Rule}
    (read : ((row :: table).mapM fun row => Rule.ofTexts row.1 row.2) = .ok rules) :
    ∃ rule others, Rule.ofTexts row.1 row.2 = .ok rule ∧
      (table.mapM fun row => Rule.ofTexts row.1 row.2) = .ok others ∧ rules = rule :: others := by
  rw [List.mapM_cons] at read
  obtain ⟨rule, readRule, read⟩ := exists_of_bind_ok read
  obtain ⟨others, readOthers, read⟩ := exists_of_bind_ok read
  exact ⟨rule, others, readRule, readOthers, (Except.ok.inj read).symm⟩

/-- The rules of a table make one text of another, if none of them has anything against a name. -/
def Yields (name : List Char) (table : List (String × String)) (s t : List Char) : Prop :=
  ∀ rules, (table.mapM fun row => Rule.ofTexts row.1 row.2) = .ok rules →
    (∀ rule ∈ rules, rule.isMatch (alone name) = false) →
    rules.foldl (fun text rule => rule.apply text) s = t

/-- What the words of a text are: the name, some fixed words, and numbers. -/
def IsKnownWord (name : List Char) (fixed : List (List Char)) (w : List Char) : Prop :=
  w = name ∨ w ∈ fixed ∨ ∀ c ∈ w, isAsciiDigit c = true

namespace Yields

variable {name source s t u : List Char} {template : String} {table : List (String × String)}

theorem nil : Yields name [] s s := by
  intro rules read _
  obtain rfl := Except.ok.inj read
  rfl

theorem cons
    (step : ∀ rule, Rule.ofTexts (String.ofList source) template = .ok rule →
      rule.isMatch (alone name) = false → rule.apply s = u)
    (rest : Yields name table u t) :
    Yields name ((String.ofList source, template) :: table) s t := by
  intro rules read idle
  obtain ⟨rule, others, readRule, readOthers, rfl⟩ := exists_of_mapM_cons read
  rw [List.foldl_cons, step rule readRule (idle rule List.mem_cons_self)]
  exact rest others readOthers fun other mem => idle other (List.mem_cons_of_mem _ mem)

/-- A rule whose pattern is known. -/
theorem turn (p : Pattern) (spelled : (Pattern.ofSource source).toOption = some (p, []))
    (step : p.isMatch (alone name) = false →
      p.replaceAll (Template.expand [] (Template.parts template.toList)) s = u)
    (rest : Yields name table u t) :
    Yields name ((String.ofList source, template) :: table) s t := by
  refine .cons (fun rule read idle => ?_) rest
  obtain ⟨parsed, rfl⟩ := Rule.spelled_of_ofTexts read
  obtain ⟨same, names⟩ := Prod.mk.inj (Option.some.inj (spelled.symm.trans parsed))
  change rule.matcher.pattern.isMatch (alone name) = false at idle
  change rule.matcher.pattern.replaceAll (Template.expand rule.matcher.names _) s = u
  rw [← same] at idle
  rw [← same, ← names]
  exact step idle

/-- A rule whose effect on the text is computed. -/
theorem computed
    (step : ((Pattern.ofSource source).toOption.map fun p =>
      p.1.replaceAll (Template.expand p.2 (Template.parts template.toList)) s) = some u)
    (rest : Yields name table u t) :
    Yields name ((String.ofList source, template) :: table) s t := by
  refine .cons (fun rule read _ => ?_) rest
  obtain ⟨parsed, rfl⟩ := Rule.spelled_of_ofTexts read
  rw [parsed] at step
  exact Option.some.inj step

/-- A rule that finds nothing in a sketch of the text. -/
theorem past {i : Sketch} (h : Shows i s)
    (never : ((Pattern.ofSource source).toOption.all fun p => !p.1.mayMatch i) = true)
    (rest : Yields name table s t) :
    Yields name ((String.ofList source, template) :: table) s t := by
  refine .cons (fun rule read _ => Rule.apply_of_not_isMatch (isMatch_eq_false_of_sketch h ?_)) rest
  rw [(Rule.spelled_of_ofTexts read).1] at never
  simpa using never

/-- A rule that looks for a keyword. The keyword can only be in the name, and the rule has nothing
against the name. -/
theorem keyed (left : Option CharSet) (key : List Char) (right : List CharSet)
    {fixed : List (List Char)} (words : EachWord (IsKnownWord name fixed) s)
    (keyed : ((Pattern.ofSource source).toOption.all fun p => p.1.isKeyed left key right) = true)
    (apart : (fixed.all fun w => !occurs (keyRun none key []) w) = true)
    (lettered : (key.any fun c => !isAsciiDigit c) = true)
    (rest : Yields name table s t) :
    Yields name ((String.ofList source, template) :: table) s t := by
  refine .cons (fun rule read idle => Rule.apply_of_not_isMatch
    (Bool.eq_false_iff.mpr fun found => ?_)) rest
  rw [(Rule.spelled_of_ofTexts read).1] at keyed
  obtain ⟨w, hw, stands, inside, matched⟩ := exists_standsIn_of_isKeyed keyed found
  rcases words w hw stands with rfl | member | digits
  · exact Bool.false_ne_true (idle.symm.trans matched)
  · have outside := List.all_eq_true.mp apart w member
    obtain ⟨l, r, rfl⟩ := inside
    have here : occurs (keyRun none key []) (l ++ key ++ r) = true :=
      occurs_keyRun_iff.mpr ⟨l, r, List.append_assoc _ _ _, fun _ h => (nomatch h), rfl⟩
    rw [here] at outside
    cases outside
  · obtain ⟨c, hc, letter⟩ := List.any_eq_true.mp lettered
    rw [digits c (inside.mem hc)] at letter
    cases letter

theorem applyChars {title : String} {c : Ruleset} (h : Yields name table s t)
    (read : ofTable title table = .ok c)
    (idle : ∀ rule ∈ c.rules, rule.isMatch (alone name) = false) : c.applyChars s = t := by
  obtain ⟨rules, readRules, read⟩ := exists_of_bind_ok read
  obtain rfl := Except.ok.inj read
  exact h rules readRules idle

end Yields

/-- No rule of a table matches a text. -/
def Skips (table : List (String × String)) (s : List Char) : Prop :=
  ∀ rules, (table.mapM fun row => Rule.ofTexts row.1 row.2) = .ok rules →
    ∀ rule ∈ rules, rule.isMatch s = false

namespace Skips

variable {source s : List Char} {template : String} {table : List (String × String)}

theorem nil : Skips [] s := by
  intro rules read
  obtain rfl := Except.ok.inj read
  exact List.forall_mem_nil _

theorem cons
    (step : ∀ rule, Rule.ofTexts (String.ofList source) template = .ok rule →
      rule.isMatch s = false)
    (rest : Skips table s) : Skips ((String.ofList source, template) :: table) s := by
  intro rules read
  obtain ⟨rule, others, readRule, readOthers, rfl⟩ := exists_of_mapM_cons read
  exact List.forall_mem_cons.mpr ⟨step rule readRule, rest others readOthers⟩

/-- A rule that finds nothing in a sketch of the text. -/
theorem past {i : Sketch} (shown : Shows i s)
    (never : ((Pattern.ofSource source).toOption.all fun p => !p.1.mayMatch i) = true)
    (rest : Skips table s) : Skips ((String.ofList source, template) :: table) s := by
  refine .cons (fun rule read => isMatch_eq_false_of_sketch shown ?_) rest
  rw [(Rule.spelled_of_ofTexts read).1] at never
  simpa using never

/-- A rule that needs characters side by side which the text has not. -/
theorem lacking {run : List CharSet} (lacks : occurs run s = false)
    (needed : ((Pattern.ofSource source).toOption.all fun p =>
      (runs p.1.outline).contains run) = true)
    (rest : Skips table s) : Skips ((String.ofList source, template) :: table) s := by
  refine .cons (fun rule read => Bool.eq_false_iff.mpr fun found => ?_) rest
  rw [(Rule.spelled_of_ofTexts read).1, Option.all_some, List.contains_iff_mem] at needed
  exact Bool.false_ne_true (lacks.symm.trans (occurs_of_isMatch needed found))

theorem not_isMatch {title : String} {c : Ruleset} (h : Skips table s)
    (read : ofTable title table = .ok c) : ∀ rule ∈ c.rules, rule.isMatch s = false := by
  obtain ⟨rules, readRules, read⟩ := exists_of_bind_ok read
  obtain rfl := Except.ok.inj read
  exact h rules readRules

theorem applyChars {title : String} {c : Ruleset} (h : Skips table s)
    (read : ofTable title table = .ok c) : c.applyChars s = s :=
  applyChars_of_not_isMatch (h.not_isMatch read)

theorem applyChars_iterated {row : String × String} {title : String} {times : Nat} {c : Ruleset}
    (h : Skips [row] s) (read : iterated title row.1 row.2 times = .ok c) : c.applyChars s = s := by
  obtain ⟨rule, readRule, read⟩ := exists_of_bind_ok read
  obtain rfl := Except.ok.inj read
  have readRules : ([row].mapM fun row => Rule.ofTexts row.1 row.2) = .ok [rule] := by
    rw [List.mapM_cons, readRule]
    rfl
  refine applyChars_of_not_isMatch fun other mem => ?_
  rw [List.eq_of_mem_replicate mem]
  exact h _ readRules rule List.mem_cons_self

end Skips

end Ruleset

end Polyglot
