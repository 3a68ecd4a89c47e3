import Polyglot.Settings.Basic
import Polyglot.Selection
import Polyglot.Text.Substring
import Polyglot.Workspace

/-!
The sources of a run: the files of the source directory whose name contains the pattern and whose
id the selection admits.
-/

namespace Polyglot

/-- The id of a source is its name without the pattern at its end. -/
def sourceId (pattern name : String) : String :=
  ((Text.stripEnd? pattern.toList name.toList).map String.ofList).getD name

def isEligible (pattern : String) (inclusion : Selection) (name : String) : Bool :=
  Text.contains pattern.toList name.toList && inclusion.admits (sourceId pattern name)

section Jobs

variable {m : Type → Type} [Monad m] [Workspace m]

/-- The selection in a file; one that is not there admits every id. -/
def Selection.load (path : Path) : Job m Selection := do
  if (← Job.isFile path) || (← Job.isDirectory path) then
    let list := Selection.ofText (← Job.read path)
    Job.note .debug ("Inclusion list " ++ path.text ++ " names " ++
      toString list.ids.length ++ " ids")
    return list
  else
    Job.note .debug ("No inclusion list at " ++ path.text ++ ", including every class")
    return {}

/-- The eligible sources by name. -/
def Settings.sources (c : Settings) : Job m (List Path) := do
  let inclusion ← Selection.load (c.resolve c.inclusionList)
  let files ← Job.filesIn (c.resolve c.jsDir)
  return files.filter fun path => isEligible c.pattern inclusion (path.fileName?.getD "")

end Jobs

end Polyglot
