import Polyglot.Settings.Basic
import Polyglot.Toml.Reader

/-!
Configurations from TOML. A key that is missing keeps its default, a key that is not known is passed
over, and a value of the wrong type makes the whole text invalid.
-/

namespace Polyglot

namespace Toml

def string? : Toml → Option String
  | .string s => some s
  | _ => none

def path? (v : Toml) : Option Path :=
  v.string?.map Path.mk

def boolean? : Toml → Option Bool
  | .boolean b => some b
  | _ => none

def natural? : Toml → Option Nat
  | .integer n => if 0 ≤ n then some n.toNat else none
  | _ => none

def strings? : Toml → Option (List String)
  | .array items => items.mapM string?
  | _ => none

/-- The values of a record with the given fields. A table gives them by name, an array by place. A
date or time counts as a table with none of them. -/
def fields? (names : List String) : Toml → Option Entries
  | .table _ entries => some entries
  | .array items => some (names.zip items)
  | .tables items => some (names.zip (items.map (.table .header)))
  | .datetime => some []
  | _ => none

/-- The value of a field, or its default if there is none; nothing if the value has another type. -/
def Entries.get? {α : Type} (entries : Entries) (name : String) (read : Toml → Option α)
    (default : α) : Option α :=
  match entries.lookup name with
  | some v => read v
  | none => some default

end Toml

open Toml (string? path? boolean? natural? strings?)

def TargetChoice.ofToml? (v : Toml) : Option TargetChoice := do
  let e ← v.fields? ["python2", "python3", "php"]
  let base : TargetChoice := {}
  return {
    python2 := ← e.get? "python2" boolean? base.python2
    python3 := ← e.get? "python3" boolean? base.python3
    php := ← e.get? "php" boolean? base.php }

def PruneChoice.ofToml? (v : Toml) : Option PruneChoice := do
  let e ← v.fields? ["enabled", "exclusions"]
  let base : PruneChoice := {}
  return {
    enabled := ← e.get? "enabled" boolean? base.enabled
    exclusions := ← e.get? "exclusions" strings? base.exclusions }

def AuxiliaryPaths.ofToml? (v : Toml) : Option AuxiliaryPaths := do
  let e ← v.fields? ["enabled", "error_hierarchy_source", "python_errors", "php_errors",
    "fixture_dir", "python_test_dir", "php_test_dir", "async_test_driver", "sync_test_driver"]
  let base : AuxiliaryPaths := {}
  return {
    enabled := ← e.get? "enabled" boolean? base.enabled
    errorHierarchySource := ← e.get? "error_hierarchy_source" path? base.errorHierarchySource
    pythonErrors := ← e.get? "python_errors" path? base.pythonErrors
    phpErrors := ← e.get? "php_errors" path? base.phpErrors
    fixtureDir := ← e.get? "fixture_dir" path? base.fixtureDir
    pythonTestDir := ← e.get? "python_test_dir" path? base.pythonTestDir
    phpTestDir := ← e.get? "php_test_dir" path? base.phpTestDir
    asyncTestDriver := ← e.get? "async_test_driver" path? base.asyncTestDriver
    syncTestDriver := ← e.get? "sync_test_driver" path? base.syncTestDriver }

namespace Settings

def ofEntries? (e : Toml.Entries) : Option Settings := do
  let base : Settings := {}
  return {
    root := ← e.get? "root" path? base.root
    jsDir := ← e.get? "js_dir" path? base.jsDir
    python2Dir := ← e.get? "python2_dir" path? base.python2Dir
    python3Dir := ← e.get? "python3_dir" path? base.python3Dir
    phpDir := ← e.get? "php_dir" path? base.phpDir
    manifest := ← e.get? "manifest" path? base.manifest
    inclusionList := ← e.get? "inclusion_list" path? base.inclusionList
    pattern := ← e.get? "pattern" string? base.pattern
    nestingPasses := ← e.get? "nesting_passes" natural? base.nestingPasses
    strictNesting := ← e.get? "strict_nesting" boolean? base.strictNesting
    errorHierarchyJson :=
      ← e.get? "error_hierarchy_json" (fun v => v.path?.map some) base.errorHierarchyJson
    targets := ← e.get? "targets" TargetChoice.ofToml? base.targets
    prune := ← e.get? "prune" PruneChoice.ofToml? base.prune
    auxiliary := ← e.get? "auxiliary" AuxiliaryPaths.ofToml? base.auxiliary }

/-- The configuration that a TOML text spells, if it is valid. -/
def parse (s : String) : Except SettingsError Settings :=
  match Toml.parse? s >>= ofEntries? with
  | none => .error (.parse "Failed to parse TOML")
  | some c => do
    c.validate
    return c

end Settings

end Polyglot
