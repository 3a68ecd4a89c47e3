import Polyglot.ErrorModules
import Polyglot.SharedTest
import Polyglot.Roster.Manifest
import Polyglot.Generator.Basic
import Polyglot.Generator.Sources
import Polyglot.Stale
import Polyglot.TestDriver

/-!
A whole run: every source is rendered and its artifacts are written, stale files are pruned, the
manifest is brought up to date and the auxiliary files are made. The first failure stops the run;
what was written before it stays.
-/

namespace Polyglot

/-- What a run did. -/
structure Report where
  classes : Roster := {}
  written : List Path := []
  deleted : List Path := []
  diagnostics : List Diagnostic := []
  deriving DecidableEq, Repr

namespace Report

/-- How many classes were rendered. -/
def count (r : Report) : Nat :=
  r.classes.classes.length

def isEmpty (r : Report) : Bool :=
  r.classes.isEmpty

/-- The counts of a run in words. -/
def summary (r : Report) (classes : String) : String :=
  toString r.count ++ " " ++ classes ++ ", " ++ toString r.written.length ++ " files written, " ++
    toString r.deleted.length ++ " stale files deleted"

end Report

namespace Generator

variable {m : Type → Type} [Monad m] [Workspace m]

def staleFolder (settings : Settings) (target : Target) : Stale.Folder :=
  (if target.isPython then Stale.Kind.python else .php).folder (settings.folder target)

def renderSource (g : Generator) (source : Path) : Job m Rendition := do
  Job.note .info ("Transpiling from " ++ source.text)
  tryCatch (g.renderFile source) fun failure => do
    Job.note .error ("Failed to transpile source code from " ++ source.text)
    throw failure

def writeArtifact (a : Artifact) : Job m Unit := do
  Job.save a.path a.text
  Job.note .info ("Wrote " ++ a.path.text)

/-- Renders one source, writes its artifacts and enrolls its class. -/
def addSource (g : Generator) (report : Report) (source : Path) : Job m Report := do
  let rendition ← g.renderSource source
  rendition.artifacts.forM writeArtifact
  let c := rendition.decl
  let (log, classes) := report.classes.enroll c.name c.baseClass
  Job.noteAll log
  return { report with
    classes := classes
    written := report.written ++ rendition.artifacts.map Artifact.path
    diagnostics := report.diagnostics ++ rendition.diagnostics }

def staleArtifact? (d : Diagnostic) : Option Path :=
  match d.kind with
  | .staleArtifact path => some path
  | _ => none

def sweepStale (g : Generator) (report : Report) : Job m Report := do
  let exclusions ← Job.ofExcept (Stale.Exclusions.ofTexts g.settings.prune.exclusions)
  let folders := g.settings.activeTargets.map (staleFolder g.settings)
  let diagnostics ← Stale.sweep exclusions report.classes folders
  return { report with
    deleted := report.deleted ++ diagnostics.filterMap staleArtifact?
    diagnostics := report.diagnostics ++ diagnostics }

/-- Declares the classes in the manifest, if there is one. -/
def declareClasses (g : Generator) (classes : Roster) : Job m Unit := do
  let manifest := g.settings.resolve g.settings.manifest
  if ← Job.isFile manifest then
    let _ ← classes.declareIn manifest
  else
    Job.note .warn ("No manifest at " ++ manifest.text ++ ", skipping class declarations")

/-- Derives a synchronous test driver from an asynchronous one. -/
def writeSyncDriver (asyncPath syncPath : Path) : Job m Unit := do
  Job.note .info ("Transpiling " ++ asyncPath.text ++ " → " ++ syncPath.text)
  let source ← Job.read asyncPath
  Job.save syncPath (TestDriver.synchronous source)

def makeSyncDriver (g : Generator) (report : Report) : Job m Report := do
  let asyncPath := g.settings.resolve g.settings.auxiliary.asyncTestDriver
  if ← Job.isFile asyncPath then
    let syncPath := g.settings.resolve g.settings.auxiliary.syncTestDriver
    writeSyncDriver asyncPath syncPath
    return { report with written := report.written ++ [syncPath] }
  else
    Job.note .warn ("No async test driver at " ++ asyncPath.text ++ ", skipping")
    return report

def renderErrorModules (g : Generator) (report : Report) : Job m Report := do
  let source := g.settings.root.join g.settings.auxiliary.errorHierarchySource
  if ← Job.isFile source then
    let diagnostics ←
      ErrorModules.generate g.renderer.book g.settings.root g.settings.auxiliary
    return { report with diagnostics := report.diagnostics ++ diagnostics }
  else
    Job.note .warn ("No error hierarchy source at " ++ source.text ++ ", skipping")
    return report

def renderSharedTest (g : Generator) (report : Report) (f : SharedTest) : Job m Report := do
  let source := f.sourcePath g.settings.root g.settings.auxiliary
  if ← Job.isFile source then
    let (written, diagnostics) ←
      f.generate g.renderer.book g.settings.root g.settings.auxiliary
    return { report with
      written := report.written ++ written
      diagnostics := report.diagnostics ++ diagnostics }
  else
    Job.note .warn ("No fixture source at " ++ source.text ++ ", skipping")
    return report

/-- The error modules, the shared tests and the synchronous test driver; what has no source is
passed over. -/
def makeAuxiliary (g : Generator) (report : Report) : Job m Report := do
  let report ← g.renderErrorModules report
  let report ← SharedTest.all.foldlM g.renderSharedTest report
  g.makeSyncDriver report

/-- What follows when at least one class was rendered. -/
def finish (g : Generator) (report : Report) : Job m Report := do
  let report ← if g.settings.prune.enabled then g.sweepStale report else pure report
  g.declareClasses report.classes
  let report ← if g.settings.auxiliary.enabled then g.makeAuxiliary report else pure report
  Job.note .info ("Transpiled successfully: " ++ report.summary "classes")
  return report

def run (g : Generator) : Job m Report := do
  g.settings.activeTargets.forM fun target => Job.makeDirectories (g.settings.folder target)
  let sources ← g.settings.sources
  let report ← sources.foldlM g.addSource {}
  if report.isEmpty then
    Job.note .warn "0 files transpiled."
    return report
  else g.finish report

end Generator

end Polyglot
