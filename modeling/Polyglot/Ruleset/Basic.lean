import Polyglot.Failure
import Polyglot.Pattern.Source

/-!
Rules and rulesets. A rule replaces every match of its pattern; a ruleset applies its rules
one after another, so that each rule sees what the rules before it made.
-/

namespace Polyglot

structure Rule where
  matcher : Matcher
  template : String
  deriving DecidableEq, Repr

namespace Rule

def ofTexts (pattern template : String) : Except Failure Rule :=
  match Matcher.ofSource pattern with
  | .ok matcher => .ok ⟨matcher, template⟩
  | .error flaw => .error (.rule flaw.message (some pattern))

def apply (r : Rule) (s : List Char) : List Char :=
  r.matcher.replaceAll (Template.parts r.template.toList) s

def isMatch (r : Rule) (s : List Char) : Bool :=
  r.matcher.pattern.isMatch s

/-- A rule that matches nowhere changes nothing. -/
theorem apply_of_not_isMatch {r : Rule} {s : List Char} (h : r.isMatch s = false) : r.apply s = s :=
  Pattern.replaceAll_of_not_isMatch h

end Rule

structure Ruleset where
  name : String
  rules : List Rule
  deriving DecidableEq, Repr

namespace Ruleset

/-- The rules of a table of patterns and templates, in its order. -/
def ofTable (name : String) (table : List (String × String)) : Except Failure Ruleset := do
  let rules ← table.mapM fun row => Rule.ofTexts row.1 row.2
  return ⟨name, rules⟩

/-- One rule several times over, to reach one more level of nesting each time. -/
def iterated (name pattern template : String) (times : Nat) : Except Failure Ruleset := do
  let rule ← Rule.ofTexts pattern template
  return ⟨name, List.replicate times rule⟩

/-- The rules of the parts in the order given, under a new name. -/
def concat (name : String) (parts : List Ruleset) : Ruleset :=
  ⟨name, parts.flatMap rules⟩

def push (c : Ruleset) (r : Rule) : Ruleset :=
  { c with rules := c.rules ++ [r] }

def applyChars (c : Ruleset) (s : List Char) : List Char :=
  c.rules.foldl (fun text rule => rule.apply text) s

def apply (c : Ruleset) (s : String) : String :=
  String.ofList (c.applyChars s.toList)

/-- The texts after each rule. -/
def steps (c : Ruleset) (s : List Char) : List (List Char) :=
  go c.rules s
where
  go : List Rule → List Char → List (List Char)
    | [], _ => []
    | r :: rules, s => let t := r.apply s; t :: go rules t

/-- The places in the ruleset of the rules that satisfy a test. -/
def indices (c : Ruleset) (test : Rule → Bool) : List Nat :=
  (c.rules.zipIdx.filter fun r => test r.1).map Prod.snd

/-- The places of the rules that match a text. Where there are none, applying the ruleset changes
nothing. -/
def pending (c : Ruleset) (s : String) : List Nat :=
  c.indices fun rule => rule.isMatch s.toList

/-- The places of the rules that change the text they see. -/
def changes (c : Ruleset) (s : String) : List Nat :=
  go 0 c.rules s.toList
where
  go : Nat → List Rule → List Char → List Nat
    | _, [], _ => []
    | i, r :: rules, s =>
      let t := r.apply s
      if t = s then go (i + 1) rules t else i :: go (i + 1) rules t

/-- Concatenated rulesets apply their parts one after another. -/
theorem applyChars_concat (name : String) (parts : List Ruleset) (s : List Char) :
    (concat name parts).applyChars s = parts.foldl (fun text part => part.applyChars text) s := by
  simp [concat, applyChars, List.foldl_flatMap]

end Ruleset

end Polyglot
