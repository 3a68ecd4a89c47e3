import Polyglot.Diagnostic
import Polyglot.Render.File
import Polyglot.Render.PhpText

/-!
Classes in every target. Rendering yields texts and, apart from them, findings in the order in which
they arise; a transcript turns findings into log entries and diagnostics, or into a failure when
nesting is checked strictly.
-/

namespace Polyglot

/-- What arises while a class is rendered. -/
inductive Finding where
  | rendering (method : String) (target : Target)
  /-- A line of a method holds a collection literal that nests too deeply. -/
  | overflow (method line : String)
  /-- An exception class is raised that the hierarchy does not know. -/
  | missing (className : String)
  deriving DecidableEq, Repr

structure Transcript where
  file : String
  diagnostics : List Diagnostic := []
  log : Log := []
  deriving DecidableEq, Repr

structure Renderer where
  book : RuleBook
  hierarchy : Hierarchy
  /-- Whether nesting beyond the bound is a failure. -/
  strict : Bool := false
  deriving DecidableEq, Repr

namespace Transcript

def write (c : Transcript) (level : Log.Level) (message : String) : Transcript :=
  { c with log := c.log ++ [⟨level, message⟩] }

/-- Records a diagnostic, unless one of its kind is there already; says whether it did. -/
def report (c : Transcript) (kind : Diagnostic.Kind) : Bool × Transcript :=
  let (added, diagnostics) := Diagnostic.report c.file kind c.diagnostics
  (added, { c with diagnostics := diagnostics })

end Transcript

namespace Renderer

/-- Takes a finding about a class into the transcript, or stops with a failure. -/
def absorb (r : Renderer) (className : String) (c : Transcript) :
    Finding → Transcript × Option Failure
  | .rendering method target =>
    (c.write .trace ("Rendering " ++ className ++ "." ++ method ++ " for " ++ target.id), none)
  | .overflow method line =>
    let levels := toString r.book.passes
    if r.strict then
      (c, some (.render ("collection literal nested deeper than " ++ levels ++ " levels: " ++ line)
        (some (className ++ "." ++ method)) none))
    else
      let c := c.write .warn (c.file ++ ": " ++ className ++ "." ++ method ++
        " nests a collection literal deeper than " ++ levels ++
        " levels, left unconverted: " ++ line)
      ((c.report (.nestingExceeded line)).2, none)
  | .missing name =>
    match c.report (.missingEntry name) with
    | (true, c) => (c.write .warn (c.file ++ ": " ++ name ++
        " is raised but has no error hierarchy entry, no import emitted"), none)
    | (false, c) => (c, none)

/-- Takes findings in order, up to the first failure. -/
def absorbAll (r : Renderer) (className : String) :
    Transcript → List Finding → Transcript × Option Failure
  | c, [] => (c, none)
  | c, f :: rest =>
    match r.absorb className c f with
    | (c, none) => r.absorbAll className c rest
    | (c, some failure) => (c, some failure)

def signature (target : Target) (m : Method) : String :=
  if target.isPython then Render.Python.signature target m else Render.Php.signature m

/-- The body of a method and the lines of it that nest too deeply. -/
def body (r : Renderer) (target : Target) (className : String) (m : Method) :
    String × List String :=
  if target.isPython then (Render.Python.body r.book target className m, [])
  else Render.Php.phpText r.book m.body m.bindings

/-- The findings and the text of one method. -/
def method (r : Renderer) (target : Target) (className : String) (m : Method) :
    List Finding × MethodText :=
  let (body, lines) := r.body target className m
  (.rendering m.name target :: lines.map (.overflow m.name), ⟨m.name, signature target m, body⟩)

/-- Renders one method in a transcript that is shared with others. -/
def methodText (r : Renderer) (target : Target) (className : String) (m : Method)
    (c : Transcript) : Except Failure MethodText × Transcript :=
  let (findings, rendered) := r.method target className m
  match r.absorbAll className c findings with
  | (c, none) => (.ok rendered, c)
  | (c, some failure) => (.error failure, c)

def pythonCalls : Name.CallStyle := ⟨"self.", ""⟩

def phpCalls : Name.CallStyle := ⟨"this->", " "⟩

/-- The file of a class around its rendered methods, with the calls of its own methods renamed. -/
def classText (r : Renderer) (target : Target) (c : ClassDecl) (methods : List MethodText) :
    String :=
  if target.isPython then
    let text := Render.Python.methodBlocks methods
    let body := String.ofList (pythonCalls.renameCalls c.methodNames text.toList)
    Render.Python.classFile c.name c.baseClass target.isAsync body (Imports.ofText r.hierarchy text)
  else
    let text := Render.Php.methodBlocks methods
    Render.Php.classFile c.name c.baseClass
      (String.ofList (phpCalls.renameCalls c.methodNames text.toList))

def classFindings (r : Renderer) (target : Target) (methods : List MethodText) :
    List Finding :=
  if target.isPython then
    (Imports.ofText r.hierarchy (Render.Python.methodBlocks methods)).missing.map .missing
  else []

/-- The findings and the text of a class for one target. -/
def targetText (r : Renderer) (c : ClassDecl) (target : Target) : List Finding × String :=
  let rendered := c.methods.map (r.method target c.name)
  let methods := rendered.map Prod.snd
  (rendered.flatMap Prod.fst ++ r.classFindings target methods, r.classText target c methods)

/-- The texts of a class for all targets, or none of them. -/
def classTexts (r : Renderer) (targets : List Target) (c : ClassDecl) (context : Transcript) :
    Except Failure (List (Target × String)) × Transcript :=
  let rendered := targets.map fun target => (target, r.targetText c target)
  match r.absorbAll c.name context (rendered.flatMap fun t => t.2.1) with
  | (context, none) => (.ok (rendered.map fun t => (t.1, t.2.2)), context)
  | (context, some failure) => (.error failure, context)

end Renderer

end Polyglot
