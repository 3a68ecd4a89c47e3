import Polyglot.Command.Help
import Polyglot.Log
import Polyglot.Path
import Polyglot.Target

/-!
The arguments of the command line. Options belong to the program, and then stand before or after the
name of a command, or to one command. A command's arguments are read to their end before those in
front of it are checked, so a request for help there is answered first.
-/

namespace Polyglot

namespace Command

def levels : List (String × Log.Level) :=
  [("error", .error), ("warn", .warn), ("info", .info), ("debug", .debug), ("trace", .trace)]

def globalOptions : List OptionForm :=
  [{ long := "verbose", short := some 'v', about := "Enable verbose output" },
    { long := "quiet", short := some 'q'
      about := "Enable quiet mode (suppress non-error output)" },
    { long := "log-level", value := some { name := "LOG_LEVEL", choices := levels.map (·.1) }
      about := "Set log level" },
    { long := "config", short := some 'c', value := some { name := "CONFIG" }
      about := "TOML configuration file" }]

def rootOption : OptionForm :=
  { long := "root", value := some { name := "ROOT" }, about := "Source tree root" }

def sourceOperand : OperandForm :=
  ⟨"FILE", "Canonical source file"⟩

def runGrammar : Grammar where
  call := "transpile run"
  about := "Transpile every eligible class, prune stale files and export the manifest"
  shared := globalOptions
  own := [rootOption,
    { long := "pattern", value := some { name := "PATTERN", mayBeEmpty := true }
      about := "Substring a source file name must contain" },
    { long := "no-prune", about := "Keep generated files that have no source" },
    { long := "no-auxiliary"
      about := "Skip the error hierarchy, fixtures and sync test driver" },
    { long := "strict-nesting"
      about := "Fail when a collection literal nests past the rewrite bound" }]

def classGrammar : Grammar where
  call := "transpile class"
  about := "Render one class and print it"
  shared := globalOptions
  own := [{ long := "target"
            value := some {
              name := "TARGET", choices := Target.all.map Target.id
              default := some Target.python3.id }
            about := "Output target" }]
  operand := some sourceOperand

def syncTestGrammar : Grammar where
  call := "transpile sync-test"
  about := "Derive the synchronous Python test driver from the asynchronous one"
  shared := globalOptions
  own := [rootOption]

def checkGrammar : Grammar where
  call := "transpile check"
  about := "Decompose a source file and list its methods without rendering"
  shared := globalOptions
  operand := some sourceOperand

def helpAbout : String :=
  "Print this message or the help of the given subcommand(s)"

def programGrammar : Grammar where
  call := "transpile"
  about := "Render canonical exchange classes into Python and PHP"
  longAbout := some ("Transpiles the canonical exchange classes under js/ into asynchronous " ++
    "Python, synchronous Python and PHP, keeps the generated trees free of stale files, and " ++
    "regenerates the type-declaration manifest")
  shared := globalOptions
  commands := [("run", runGrammar.about), ("class", classGrammar.about),
    ("sync-test", syncTestGrammar.about), ("check", checkGrammar.about), ("help", helpAbout)]

/-- The page about the help itself. -/
def helpPage : String :=
  helpAbout ++ "\n\nUsage: transpile help [COMMAND]...\n\nArguments:\n" ++
    columns [("[COMMAND]...", "Print help for the subcommand(s)")]

end Command

/-- The work that a command asks for. -/
inductive Command where
  /-- A whole run, with the settings that the arguments change. -/
  | run (root : Option Path) (pattern : Option String) (noPrune noAuxiliary strictNesting : Bool)
  /-- One class in one target. -/
  | render (file : Path) (target : Target)
  /-- The synchronous test driver only. -/
  | syncTest (root : Option Path)
  /-- The methods of a class. -/
  | check (file : Path)
  deriving DecidableEq, Repr

/-- A command with the options of the program. -/
structure Invocation where
  /-- The least severe level that is logged. -/
  level : Log.Level := .info
  settings : Option Path := none
  command : Command
  deriving DecidableEq, Repr

namespace Command

/-- Quiet and verbose exclude each other. -/
def checkConflict (p : Parsed) : Except Stop Unit :=
  if p.isSet "quiet" && p.isSet "verbose" then .error .usage else .ok ()

/-- Reads all arguments behind a command's name. -/
def readCommand (g : Grammar) (make : Parsed → Except Stop Command) (args : List String) :
    Except Stop (Parsed × Command) := do
  let (p, _) ← g.read g.page {} none args
  let p ← p.settle
  checkConflict p
  return (p, ← make p)

def path? (p : Parsed) (long : String) : Option Path :=
  (p.value? long).map Path.mk

def operand (p : Parsed) : Except Stop Path :=
  match p.operands with
  | file :: _ => .ok ⟨file⟩
  | [] => .error .usage

/-- Help may be asked for about one command. -/
def readHelp : List String → Stop
  | [] => .help (programGrammar.page true)
  | ["run"] => .help (runGrammar.page true)
  | ["class"] => .help (classGrammar.page true)
  | ["sync-test"] => .help (syncTestGrammar.page true)
  | ["check"] => .help (checkGrammar.page true)
  | ["help"] => .help helpPage
  | _ => .usage

def readNamed (name : String) (args : List String) : Except Stop (Parsed × Command) :=
  match name with
  | "run" => readCommand runGrammar (fun p => .ok (.run (path? p "root") (p.value? "pattern")
      (p.isSet "no-prune") (p.isSet "no-auxiliary") (p.isSet "strict-nesting"))) args
  | "class" => readCommand classGrammar (fun p => do
      return .render (← operand p) (((p.value? "target").bind Target.ofId?).getD .python3)) args
  | "sync-test" => readCommand syncTestGrammar (fun p => .ok (.syncTest (path? p "root"))) args
  | "check" => readCommand checkGrammar (fun p => do return .check (← operand p)) args
  | _ => .error (readHelp args)

end Command

namespace Invocation

open Command

/-- Quiet wins over verbose, and verbose over a named level. -/
def chosenLevel (isSet : String → Bool) (named : Option String) : Log.Level :=
  if isSet "quiet" then .error
  else if isSet "verbose" then .debug
  else (named.bind fun v => levels.lookup v).getD .info

/-- An option of the program behind the command's name wins over the same in front of it. -/
def ofArguments (args : List String) : Except Stop Invocation := do
  match ← programGrammar.read programGrammar.page {} none args with
  | (_, none) => .error .usage
  | (outer, some (name, rest)) =>
    let (inner, command) ← readNamed name rest
    let outer ← outer.settle
    checkConflict outer
    let value? (long : String) := (inner.value? long).or (outer.value? long)
    return {
      level := chosenLevel (fun long => (value? long).isSome) (value? "log-level")
      settings := (value? "config").map Path.mk
      command := command }

end Invocation

end Polyglot
