import Polyglot.Settings.Basic
import Polyglot.Render.Fragment
import Polyglot.Text.Blank
import Polyglot.Workspace

/-!
The error modules of both languages hold the hierarchy of exceptions as a literal. It is rendered
from one source and spliced into each of them.
-/

namespace Polyglot

namespace ErrorModules

open Pattern

/-- The statement that exports the hierarchy from its source. -/
def exportPattern : Pattern :=
  seqAll (text "module.exports = " ++ [plus true (noneOf [.single ';'])] ++ text ";\n")

theorem exportPattern_spelled :
    (Pattern.ofSource r"(?s)module\.exports = [^;]+;\n".toList).toOption =
      some (exportPattern, []) := by decide +kernel

/-- The definition of the hierarchy, without its export. -/
def definition (source : String) : String :=
  String.ofList (Text.trim (exportPattern.replaceAll (fun _ => []) source.toList))

/-- Anything, as little as possible. -/
def gapPattern : Pattern :=
  plus false (char (.compl .none))

def pythonRegion : Matcher :=
  ⟨"(?s)error_hierarchy = .+?\\n\\\x7d",
    seqAll (text "error_hierarchy = " ++ [gapPattern] ++ text "\n\x7d"), []⟩

theorem pythonRegion_spelled :
    (Matcher.ofSource pythonRegion.source).toOption = some pythonRegion := by decide +kernel

def phpRegion : Matcher :=
  ⟨"(?s)\\$error_hierarchy = .+?\\n\\);",
    seqAll (text "$error_hierarchy = " ++ [gapPattern] ++ text "\n);"), []⟩

theorem phpRegion_spelled :
    (Matcher.ofSource phpRegion.source).toOption = some phpRegion := by decide +kernel

section Jobs

variable {m : Type → Type} [Monad m] [Workspace m]

def spliceInto (path : Path) (region : Matcher) (text : String) : Job m Unit := do
  Job.note .info ("Transpiling error hierarchy → " ++ path.text)
  let _ ← Job.splice path region text

/-- Renders the hierarchy and splices it into both modules. -/
def generate (book : RuleBook) (root : Path) (auxiliary : AuxiliaryPaths) :
    Job m (List Diagnostic) := do
  let source := root.join auxiliary.errorHierarchySource
  let code := definition (← Job.read source)
  let (rendered, lines) := Fragment.render book code false
  Job.noteAll (Fragment.log source.text lines)
  spliceInto (root.join auxiliary.pythonErrors) pythonRegion rendered.python3
  spliceInto (root.join auxiliary.phpErrors) phpRegion rendered.php
  return Fragment.diagnostics source.text lines

end Jobs

end ErrorModules

end Polyglot
