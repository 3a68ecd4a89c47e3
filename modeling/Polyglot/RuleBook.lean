import Polyglot.Ruleset.Php
import Polyglot.Ruleset.Python
import Polyglot.Log

/-!
All rulesets that a run needs, built once.
-/

namespace Polyglot

structure RuleBook where
  shared : Ruleset
  python3 : Ruleset
  python2 : Ruleset
  /-- Leaves placeholders hidden; `phpRestore` brings them back. -/
  php : Ruleset
  phpRestore : Ruleset
  /-- The three rules for collection literals, once each. -/
  collections : Ruleset
  /-- How many levels of nesting the rules for collection literals reach. -/
  passes : Nat
  deriving DecidableEq, Repr

namespace RuleBook

/-- The levels of nesting that are reached unless a configuration says otherwise. -/
def standardPasses : Nat := 20

def make (glossary : Name.Glossary) (hierarchy : Hierarchy) (passes : Nat) :
    Except Failure RuleBook := do
  if passes = 0 then
    .error (.configuration "nesting passes must be at least 1" (some "nesting_passes"))
  else
    let shared ← Ruleset.shared glossary
    return {
      shared := shared
      python3 := ← Ruleset.python3 shared
      python2 := ← Ruleset.python2
      php := ← Ruleset.php shared hierarchy passes
      phpRestore := ← Ruleset.phpRestore
      collections := ← Ruleset.ofTable "php-collections"
        [Ruleset.braceLine, Ruleset.braceBlock, Ruleset.bracket]
      passes := passes }

/-- What is logged when the rulesets are built. -/
def readyEntry (b : RuleBook) : Log.Entry :=
  let count (c : Ruleset) := toString c.rules.length
  ⟨.debug, "Rule library ready: common=" ++ count b.shared ++ " python3=" ++ count b.python3 ++
    " python2=" ++ count b.python2 ++ " php=" ++ count b.php ++ " rules"⟩

end RuleBook

end Polyglot
