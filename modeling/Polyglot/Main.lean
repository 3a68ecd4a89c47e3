import Polyglot.Command.Run

/-!
The command line on the files of the computer. Log entries go to the error stream as far as the
chosen level admits them.
-/

namespace Polyglot

namespace Host

/-- Work on the computer's files; the level limits what is logged. -/
abbrev HostM := ReaderT Log.Level IO

def accessError : IO.Error → AccessError
  | .noFileOrDirectory _ _ _ => .missing
  | .alreadyExists _ _ _ => .alreadyExists
  | .inappropriateType _ code _ => if code = 21 then .isDirectory else .notDirectory
  | .permissionDenied _ _ _ => { text := "Permission denied (os error 13)" }
  | e => { text := toString e }

def attempt {α : Type} (action : IO α) : HostM (Except AccessError α) :=
  fun _ => do
    match ← action.toBaseIO with
    | .ok a => return .ok a
    | .error e => return .error (accessError e)

def holds (action : IO Bool) : HostM Bool :=
  fun _ => do
    match ← action.toBaseIO with
    | .ok b => return b
    | .error _ => return false

def readText (path : Path) : HostM (Except AccessError String) := do
  match ← attempt (IO.FS.readBinFile path.text) with
  | .ok bytes => return (String.fromUTF8? bytes).elim (.error .notText) .ok
  | .error e => return .error e

def isPlainFile (path : Path) : IO Bool := do
  return (← (← IO.FS.realPath path.text).metadata).type == .file

def isFolder (path : Path) : IO Bool := do
  (← IO.FS.realPath path.text).isDir

def fileNames (path : Path) : IO (List String) := do
  let directory ← IO.FS.realPath path.text
  if ← directory.isDir then
    let files ← (← directory.readDir).filterM fun entry => do
      return (← entry.path.symlinkMetadata).type == .file
    return files.toList.map (·.fileName)
  else return []

instance : Workspace HostM where
  isFile path := holds (isPlainFile path)
  isDirectory path := holds (isFolder path)
  read := readText
  write path text := attempt (IO.FS.writeFile path.text text)
  listNames path := attempt (fileNames path)
  remove path := attempt (IO.FS.removeFile path.text)
  makeDirectory path := attempt (IO.FS.createDir path.text)
  note entry := fun limit => do
    if entry.level.rank ≤ limit.rank then
      IO.eprintln ("[" ++ entry.level.name ++ "] " ++ entry.message)

end Host

end Polyglot

open Polyglot in
def main (args : List String) : IO UInt32 := do
  match Invocation.ofArguments args with
  | .ok invocation =>
    let outcome ← (invocation.perform : Host.HostM Outcome).run invocation.level
    IO.print outcome.stdout
    return outcome.code.toUInt32
  | .error stop =>
    if stop = .usage then IO.eprint (Command.programGrammar.page false)
    IO.print stop.outcome.stdout
    return stop.outcome.code.toUInt32
