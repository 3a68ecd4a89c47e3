import Polyglot.Failure
import Polyglot.Log
import Polyglot.Pattern.Source
import Polyglot.Sort

/-!
Work on files, wherever they are kept. `Workspace` is what such work asks for; a `Job` is work that
may fail. Jobs are defined for every workspace: they run on the files of a computer and on a
`FileTree` alike.
-/

namespace Polyglot

/-- A place that keeps files by their paths, and a log. -/
class Workspace (m : Type → Type) where
  isFile : Path → m Bool
  isDirectory : Path → m Bool
  read : Path → m (Except AccessError String)
  /-- Makes or overwrites a file in a directory that is there. -/
  write : Path → String → m (Except AccessError Unit)
  /-- The names of the files in a directory; none for a file. -/
  listNames : Path → m (Except AccessError (List String))
  remove : Path → m (Except AccessError Unit)
  /-- Makes a directory in one that is there. -/
  makeDirectory : Path → m (Except AccessError Unit)
  note : Log.Entry → m Unit

namespace Workspace

variable {m : Type → Type} [Monad m] [Workspace m]

/-- Makes a directory unless it is there. -/
def ensureDirectory (path : Path) : m (Except AccessError Unit) := do
  match ← makeDirectory path with
  | .ok () => return .ok ()
  | .error e => return if ← isDirectory path then .ok () else .error e

/-- Makes a directory and those above it, as far as they are missing. The fuel bounds how many. -/
def ensureDirectories : (fuel : Nat) → Path → m (Except AccessError Unit)
  | 0, _ => return .error .missing
  | fuel + 1, path => do
    if path.text.isEmpty then return .ok ()
    match ← ensureDirectory path with
    | .ok () => return .ok ()
    | .error e =>
      match path.parent? with
      | none => return .error e
      | some parent =>
        if e ≠ .missing then return .error e
        match ← ensureDirectories fuel parent with
        | .ok () => ensureDirectory path
        | .error e => return .error e

end Workspace

/-- Work on files that may fail. What was done before a failure stays done. -/
abbrev Job (m : Type → Type) := ExceptT Failure m

namespace Job

variable {m : Type → Type} [Monad m] [Workspace m]

def note (level : Log.Level) (message : String) : Job m Unit :=
  ExceptT.lift (Workspace.note ⟨level, message⟩)

def noteAll (log : Log) : Job m Unit :=
  log.forM fun entry => ExceptT.lift (Workspace.note entry)

/-- Goes on with a result that is already there. -/
def ofExcept {α : Type} (result : Except Failure α) : Job m α :=
  ExceptT.mk (pure result)

/-- An access to a path; the failure names it. -/
def access {α : Type} (path : Path) (action : m (Except AccessError α)) : Job m α :=
  ExceptT.mk do
    match ← action with
    | .ok a => return .ok a
    | .error e => return .error (.fileAccess path e)

def isFile (path : Path) : Job m Bool :=
  ExceptT.lift (Workspace.isFile path)

def isDirectory (path : Path) : Job m Bool :=
  ExceptT.lift (Workspace.isDirectory path)

def read (path : Path) : Job m String :=
  access path (Workspace.read path)

def remove (path : Path) : Job m Unit :=
  access path (Workspace.remove path)

/-- Makes a directory and those above it, as far as they are missing. -/
def makeDirectories (path : Path) : Job m Unit :=
  access path (Workspace.ensureDirectories (path.pieces.length + 2) path)

/-- The files directly in a directory, by name. -/
def filesIn (directory : Path) : Job m (List Path) := do
  let names ← access directory do
    match ← Workspace.listNames directory with
    | .ok names => return .ok names
    | .error e => return .error (e.listing directory)
  return (sortBy textLe names).map fun name => directory.join ⟨name⟩

/-- Writes a file, after the directories on the way to it. -/
def save (path : Path) (text : String) : Job m Unit := do
  match path.parent? with
  | some parent => if parent.text ≠ "" then makeDirectories parent
  | none => pure ()
  access path (Workspace.write path text)

/-- Replaces the first region of a file that a pattern matches. Without one the file stays as it
is, and the answer is no. -/
def splice (path : Path) (region : Matcher) (replacement : String) : Job m Bool := do
  let contents ← read path
  if region.isMatch contents then
    save path (String.ofList
      (region.pattern.replaceFirst (fun _ => replacement.toList) contents.toList))
    return true
  else
    note .warn (path.text ++ ": no region matching " ++ region.source ++
      " found, file left unchanged")
    return false

end Job

end Polyglot
