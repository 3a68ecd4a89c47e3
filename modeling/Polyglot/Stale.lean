import Polyglot.Diagnostic
import Polyglot.Roster.Basic
import Polyglot.Workspace

/-!
Stale files: a generated file is deleted when no class of the run bears its name. Files that an
exclusion matches are kept, and only files directly in a directory count.
-/

namespace Polyglot

namespace Stale

open Pattern

/-- What the names of files to keep look like; none if there are no exclusions. -/
structure Exclusions where
  pattern? : Option Pattern
  deriving DecidableEq, Repr

namespace Exclusions

/-- One pattern that matches where one of the given ones does. -/
def joined (sources : List String) : String :=
  "|".intercalate (sources.map fun source => "(?:" ++ source ++ ")")

def ofTexts (sources : List String) : Except Failure Exclusions :=
  if (joined sources).isEmpty then .ok ⟨none⟩
  else match Pattern.ofSource (joined sources).toList with
    | .ok (pattern, _) => .ok ⟨some pattern⟩
    | .error flaw => .error (.configuration
        ("invalid prune exclusion pattern: " ++ flaw.message) (some "prune_exclusions"))

def isProtected (e : Exclusions) (name : String) : Bool :=
  e.pattern?.any fun pattern => pattern.isMatch name.toList

end Exclusions

/-- The kinds of generated files. -/
inductive Kind where
  | python
  | php
  deriving DecidableEq, Repr

/-- How the names of a kind end; compiled files count for Python. -/
def Kind.extension : Kind → Pattern
  | python => seqAll (text ".py" ++ [opt true (char (.single 'c')), look .textEnd])
  | php => seqAll (text ".php" ++ [look .textEnd])

theorem extension_spelled :
    (Pattern.ofSource r"\.pyc?$".toList).toOption = some (Kind.python.extension, []) ∧
      (Pattern.ofSource r"\.php$".toList).toOption = some (Kind.php.extension, []) := by
  decide +kernel

/-- A directory of generated files, and what their names look like. -/
structure Folder where
  directory : Path
  extension : Pattern
  deriving DecidableEq, Repr

/-- A directory of generated files of one kind. -/
def Kind.folder (kind : Kind) (directory : Path) : Folder :=
  ⟨directory, kind.extension⟩

def endingPattern : Pattern :=
  seqAll (text "." ++ [plus true (oneOf [.range 'a' 'z']), look .textEnd])

theorem endingPattern_spelled :
    (Pattern.ofSource r"\.[a-z]+$".toList).toOption = some (endingPattern, []) := by decide +kernel

/-- A file name without its ending in small letters. -/
def baseName (name : String) : String :=
  String.ofList (endingPattern.replaceFirst (fun _ => []) name.toList)

/-- Whether a generated file has neither a class nor an exclusion on its side. -/
def isStale (e : Exclusions) (classes : Roster) (extension : Pattern) (name : String) : Bool :=
  extension.isMatch name.toList && !classes.contains (baseName name) && !e.isProtected name

section Jobs

variable {m : Type → Type} [Monad m] [Workspace m]

/-- The stale files of a directory, by name. A directory that is not there has none. -/
def inFolder (e : Exclusions) (classes : Roster) (folder : Folder) : Job m (List Path) := do
  if ← Job.isDirectory folder.directory then
    let files ← Job.filesIn folder.directory
    return files.filter fun path => isStale e classes folder.extension (path.fileName?.getD "")
  else return []

def deleteFile (path : Path) : Job m Diagnostic := do
  Job.note .info ("Deleting " ++ path.text)
  Job.remove path
  return { kind := .staleArtifact path }

/-- Deletes the stale files of all directories, and lists them. -/
def sweep (e : Exclusions) (classes : Roster) (folders : List Folder) :
    Job m (List Diagnostic) := do
  let deleted ← folders.mapM fun folder => do
    (← inFolder e classes folder).mapM deleteFile
  return deleted.flatten

end Jobs

end Stale

end Polyglot
