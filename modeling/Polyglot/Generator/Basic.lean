import Polyglot.Class.Source
import Polyglot.Settings.Basic
import Polyglot.Hierarchy.Json
import Polyglot.Render.Class
import Polyglot.Workspace

/-!
What a configuration makes of one class: its artifacts for every enabled target. Rendering reads no
file but the source and writes none.
-/

namespace Polyglot

/-- A rendered text and the path it belongs to. -/
structure Artifact where
  target : Target
  path : Path
  text : String
  deriving DecidableEq, Repr

structure Rendition where
  source : Path
  decl : ClassDecl
  artifacts : List Artifact
  diagnostics : List Diagnostic
  deriving DecidableEq, Repr

/-- A valid configuration with the renderer that it asks for. -/
structure Generator where
  settings : Settings
  renderer : Renderer
  deriving DecidableEq, Repr

namespace Generator

/-- The artifact of a target lies in the target's directory under the name of the source. -/
def artifact (g : Generator) (stem : String) (target : Target) (text : String) : Artifact :=
  ⟨target, (g.settings.folder target).join ⟨stem ++ "." ++ target.extension⟩, text⟩

/-- Reads and renders a class that is at hand. The file names it in failures and diagnostics, and
gives the artifacts their name. -/
def render (g : Generator) (file contents : String) :
    Except Failure Rendition × Log :=
  let log := ClassDecl.sourceLog file contents
  match ClassDecl.ofSource file contents with
  | .error failure => (.error failure, log)
  | .ok c =>
    match g.renderer.classTexts g.settings.activeTargets c { file := file } with
    | (.error failure, context) => (.error (failure.inFile file), log ++ context.log)
    | (.ok texts, context) =>
      let stem := (Path.mk file).fileStem?.getD c.name
      (.ok {
        source := ⟨file⟩
        decl := c
        artifacts := texts.map fun t => g.artifact stem t.1 t.2
        diagnostics := context.diagnostics }, log ++ context.log)

section Jobs

variable {m : Type → Type} [Monad m] [Workspace m]

/-- The hierarchy that the configuration names, or the built-in one. -/
def readHierarchy (settings : Settings) : Job m Hierarchy := do
  match settings.errorHierarchyJson with
  | none => return .builtin
  | some path =>
    let path := settings.resolve path
    let text ← Job.read path
    Job.note .debug ("Loading error hierarchy from " ++ path.text)
    Job.ofExcept (Hierarchy.ofText text)

def ofSettings (settings : Settings) : Job m Generator := do
  match settings.validate with
  | .error e => Job.ofExcept (.error e.failure)
  | .ok () => pure ()
  let hierarchy ← readHierarchy settings
  let book ← Job.ofExcept
    (RuleBook.make (Name.Glossary.ofNames Name.standard) hierarchy settings.nestingPasses)
  Job.noteAll [book.readyEntry]
  Job.note .debug ("Pipeline ready for targets [" ++
    ", ".intercalate (settings.activeTargets.map Target.name) ++ "]")
  return ⟨settings, ⟨book, hierarchy, settings.strictNesting⟩⟩

def renderFile (g : Generator) (path : Path) : Job m Rendition := do
  let (result, log) := g.render path.text (← Job.read path)
  Job.noteAll log
  Job.ofExcept result

/-- Reads a class without rendering it. -/
def readClass (path : Path) : Job m ClassDecl := do
  let contents ← Job.read path
  Job.noteAll (ClassDecl.sourceLog path.text contents)
  Job.ofExcept (ClassDecl.ofSource path.text contents)

end Jobs

end Generator

end Polyglot
