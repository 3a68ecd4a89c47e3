import Polyglot.Command.Arguments
import Polyglot.Settings.File
import Polyglot.Generator.Run

/-!
What each command does and prints. A failure is logged with its context and its causes.
-/

namespace Polyglot

/-- How a command ends. -/
structure Outcome where
  code : Nat
  stdout : String
  deriving DecidableEq, Repr

def programVersion : String := "transpile 0.1.0"

namespace Command

/-- The answer to arguments that ask for no work. -/
def Stop.outcome : Stop → Outcome
  | usage => ⟨2, ""⟩
  | help page => ⟨0, page⟩
  | version => ⟨0, programVersion ++ "\n"⟩

/-- A failure with what was being done, down to its last cause. -/
def explain (context : List String) (f : Failure) : String :=
  ": ".intercalate (context ++ f.message :: f.causes)

variable {m : Type → Type} [Monad m] [Workspace m]

/-- Work that ends in an explanation when it fails. -/
abbrev Work (m : Type → Type) := ExceptT String m

def note (level : Log.Level) (message : String) : Work m Unit :=
  ExceptT.lift (Workspace.note ⟨level, message⟩)

/-- Does a job; the context may depend on how it fails. -/
def attempt {α : Type} (context : Failure → List String) (job : Job m α) : Work m α :=
  ExceptT.mk do
    match ← job.run with
    | .ok a => return .ok a
    | .error f => return .error (explain (context f) f)

def loadSettings : Option Path → Work m Settings
  | none => return {}
  | some path => do
    note .info ("Loading configuration from " ++ path.text)
    match ← ExceptT.lift (Settings.load path) with
    | .ok settings => return settings
    | .error e => throw ("invalid configuration in " ++ path.text ++ ": " ++ e.message)

def withRoot (settings : Settings) : Option Path → Settings
  | some root => { settings with root := root }
  | none => settings

def enable (settings : Settings) (target : Target) : Settings :=
  { settings with targets := match target with
    | .python2 => { settings.targets with python2 := true }
    | .python3 => { settings.targets with python3 := true }
    | .php => { settings.targets with php := true } }

def lines (texts : List String) : String :=
  String.join (texts.map (· ++ "\n"))

def reportLines (r : Report) : List String :=
  if r.isEmpty then ["No classes transpiled"]
  else
    let warnings := Diagnostic.warningCount r.diagnostics
    ("✅ " ++ r.summary "classes transpiled") ::
      if warnings = 0 then [] else ["⚠️  " ++ toString warnings ++ " warnings"]

def runAll (settings : Settings) : Work m String := do
  let generator ← attempt (fun _ => ["failed to build the transpilation pipeline"])
    (Generator.ofSettings settings)
  let report ← attempt (fun f => match f.file? with
    | some file => ["failed to transpile " ++ file]
    | none => ["transpilation of " ++ settings.root.text ++ " stopped"]) generator.run
  report.diagnostics.forM fun d => if d.isWarning then note .warn d.message else pure ()
  return lines (reportLines report)

def renderOne (settings : Settings) (file : Path) (target : Target) : Work m String := do
  let generator ← attempt (fun _ => []) (Generator.ofSettings (enable settings target))
  let rendition ← attempt (fun _ => ["failed to transpile " ++ file.text])
    (generator.renderFile file)
  rendition.diagnostics.forM fun d => note .warn d.message
  match rendition.artifacts.find? (·.target = target) with
  | some artifact => return artifact.text
  | none => throw ("no " ++ target.id ++ " output produced for " ++ file.text)

def deriveSyncTest (settings : Settings) : Work m String := do
  let generator ← attempt (fun _ => []) (Generator.ofSettings settings)
  let report ← attempt (fun _ => ["failed to derive the synchronous test driver"])
    (generator.makeSyncDriver {})
  match report.written with
  | path :: _ => return lines ["✅ Wrote " ++ path.text]
  | [] => return lines ["No asynchronous test driver found"]

def methodLine (m : Method) : String :=
  "  " ++ (if m.isAsync then "async " else "") ++ m.name ++ " (" ++
    ", ".intercalate (m.parameters.map Parameter.name) ++ ")"

def checkOne (settings : Settings) (file : Path) : Work m String := do
  note .info ("Checking " ++ file.text)
  let _ ← attempt (fun _ => []) (Generator.ofSettings settings)
  let c ← attempt (fun _ => [file.text ++ " is not a well-formed class file"])
    (Generator.readClass file)
  return lines ((c.name ++ " extends " ++ c.baseClass) :: c.methods.map methodLine ++
    ["✅ " ++ toString c.methods.length ++ " methods"])

/-- The text that a command prints. -/
def execute (settings : Settings) : Command → Work m String
  | .run root pattern noPrune noAuxiliary strictNesting =>
    let settings := withRoot settings root
    runAll { settings with
      pattern := pattern.getD settings.pattern
      prune := { settings.prune with enabled := settings.prune.enabled && !noPrune }
      auxiliary := { settings.auxiliary with enabled := settings.auxiliary.enabled && !noAuxiliary }
      strictNesting := settings.strictNesting || strictNesting }
  | .render file target => renderOne settings file target
  | .syncTest root => deriveSyncTest (withRoot settings root)
  | .check file => checkOne settings file

end Command

/-- Does what is asked for; a failure is logged and shows in the code. -/
def Invocation.perform {m : Type → Type} [Monad m] [Workspace m] (i : Invocation) : m Outcome := do
  let work : Command.Work m String := do i.command.execute (← Command.loadSettings i.settings)
  match ← work.run with
  | .ok text => return ⟨0, text⟩
  | .error explanation =>
    Workspace.note ⟨.error, explanation⟩
    return ⟨1, ""⟩

end Polyglot
