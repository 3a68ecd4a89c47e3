import Polyglot.Name.Glossary

/-!
Rules that every target applies in the middle of its own.
-/

namespace Polyglot

namespace Ruleset

def sharedTable : List (String × String) :=
  [ (r"errorHierarchy", "error_hierarchy"),
    (r"'use strict';?\s+", "") ]

/-- The renamed call sites, then the clean-ups that all targets share. -/
def shared (glossary : Name.Glossary) : Except Failure Ruleset := do
  let tail ← ofTable "common-tail" sharedTable
  return concat "common" [glossary.callRules, tail]

end Ruleset

end Polyglot
