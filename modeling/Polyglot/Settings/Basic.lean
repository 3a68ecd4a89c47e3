import Polyglot.Failure
import Polyglot.RuleBook
import Polyglot.Target

/-!
The settings of a run: where sources and artifacts lie, which targets are rendered, what is pruned,
and which further files are made. Relative paths count from the root.
-/

namespace Polyglot

structure TargetChoice where
  python2 : Bool := true
  python3 : Bool := true
  php : Bool := true
  deriving DecidableEq, Repr

structure PruneChoice where
  enabled : Bool := true
  /-- Patterns of file names that are never deleted: base classes, error definitions, package files
  and hidden files. -/
  exclusions : List String := ["^Exchange", "errors", "__init__", r"^\."]
  deriving DecidableEq, Repr

structure AuxiliaryPaths where
  enabled : Bool := true
  errorHierarchySource : Path := ⟨"js/base/errorHierarchy.js"⟩
  pythonErrors : Path := ⟨"python/ccxt/base/errors.py"⟩
  phpErrors : Path := ⟨"php/base/errors.php"⟩
  fixtureDir : Path := ⟨"js/test/base/functions"⟩
  pythonTestDir : Path := ⟨"python/test"⟩
  phpTestDir : Path := ⟨"php/test"⟩
  asyncTestDriver : Path := ⟨"python/test/test_async.py"⟩
  syncTestDriver : Path := ⟨"python/test/test.py"⟩
  deriving DecidableEq, Repr

structure Settings where
  root : Path := ⟨"."⟩
  jsDir : Path := ⟨"js"⟩
  python2Dir : Path := ⟨"python/ccxt"⟩
  python3Dir : Path := ⟨"python/ccxt/async_support"⟩
  phpDir : Path := ⟨"php"⟩
  manifest : Path := ⟨"ccxt.d.ts"⟩
  inclusionList : Path := ⟨"exchanges.cfg"⟩
  /-- What the name of a source file must contain. -/
  pattern : String := ".js"
  nestingPasses : Nat := RuleBook.standardPasses
  strictNesting : Bool := false
  /-- A file that replaces the hierarchy of the exchange library. -/
  errorHierarchyJson : Option Path := none
  targets : TargetChoice := {}
  prune : PruneChoice := {}
  auxiliary : AuxiliaryPaths := {}
  deriving DecidableEq, Repr

/-- Whether two lists of paths agree place by place, as paths. -/
def samePaths (ps qs : List Path) : Bool :=
  ps.length = qs.length && (ps.zip qs).all fun pair => pair.1.same pair.2

/-- The paths in a fixed order. -/
def AuxiliaryPaths.paths (a : AuxiliaryPaths) : List Path :=
  [a.errorHierarchySource, a.pythonErrors, a.phpErrors, a.fixtureDir, a.pythonTestDir, a.phpTestDir,
    a.asyncTestDriver, a.syncTestDriver]

/-- The paths in a fixed order, the one that may be missing last. -/
def Settings.paths (c : Settings) : List Path :=
  [c.root, c.jsDir, c.python2Dir, c.python3Dir, c.phpDir, c.manifest, c.inclusionList] ++
    c.errorHierarchyJson.toList

/-- Whether two configurations ask for the same. It does not matter how a path is written. -/
def Settings.same (c d : Settings) : Bool :=
  samePaths c.paths d.paths && samePaths c.auxiliary.paths d.auxiliary.paths &&
    c.pattern == d.pattern && c.nestingPasses == d.nestingPasses &&
    c.strictNesting == d.strictNesting && c.targets == d.targets && c.prune == d.prune &&
    c.auxiliary.enabled == d.auxiliary.enabled

/-- Why a configuration cannot be used. -/
inductive SettingsError where
  | access (text : String)
  | parse (text : String)
  | invalid (field reason : String)
  deriving DecidableEq, Repr

namespace SettingsError

def message : SettingsError → String
  | access text => "IO error: " ++ text
  | parse text => "Parse error: " ++ text
  | invalid field reason => "Invalid value for " ++ field ++ ": " ++ reason

def failure : SettingsError → Failure
  | invalid field reason => .configuration reason (some field)
  | other => .configuration other.message none

end SettingsError

def TargetChoice.isEnabled (t : TargetChoice) : Target → Bool
  | .python2 => t.python2
  | .python3 => t.python3
  | .php => t.php

def TargetChoice.validate (t : TargetChoice) : Except SettingsError Unit :=
  if Target.all.any t.isEnabled then .ok ()
  else .error (.invalid "targets" "at least one target must be enabled")

/-- Every exclusion is a pattern on its own. -/
def PruneChoice.validate (p : PruneChoice) : Except SettingsError Unit :=
  p.exclusions.forM fun source =>
    match Pattern.ofSource source.toList with
    | .ok _ => .ok ()
    | .error flaw => .error (.invalid "prune.exclusions" (source ++ ": " ++ flaw.message))

namespace Settings

/-- The first fault in the order pattern, nesting, targets, exclusions. -/
def validate (c : Settings) : Except SettingsError Unit := do
  if c.pattern.isEmpty then
    throw (.invalid "pattern" "source pattern cannot be empty")
  if c.nestingPasses = 0 then
    throw (.invalid "nesting_passes" "must be at least 1")
  c.targets.validate
  c.prune.validate

def resolve (c : Settings) (p : Path) : Path :=
  c.root.join p

/-- The enabled targets in the order in which their artifacts are written. -/
def activeTargets (c : Settings) : List Target :=
  Target.all.filter c.targets.isEnabled

def folder (c : Settings) : Target → Path
  | .python2 => c.resolve c.python2Dir
  | .python3 => c.resolve c.python3Dir
  | .php => c.resolve c.phpDir

end Settings

end Polyglot
