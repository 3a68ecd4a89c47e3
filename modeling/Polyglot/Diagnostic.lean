import Polyglot.Path
import Polyglot.Text.Blank

/-!
Findings that do not stop a run: exception classes without an entry in the hierarchy, stale
artifacts that were deleted, and collection literals nested too deeply to be converted.
-/

namespace Polyglot

namespace Diagnostic

inductive Level where
  | warning
  | info
  deriving DecidableEq, Repr

def Level.name : Level → String
  | warning => "warning"
  | info => "info"

inductive Kind where
  | missingEntry (className : String)
  | staleArtifact (path : Path)
  | nestingExceeded (line : String)
  deriving DecidableEq, Repr

/-- Stale artifacts are the same if their paths are. -/
def Kind.same : Kind → Kind → Bool
  | missingEntry a, missingEntry b => a == b
  | staleArtifact p, staleArtifact q => p.same q
  | nestingExceeded a, nestingExceeded b => a == b
  | _, _ => false

def Kind.level : Kind → Level
  | staleArtifact _ => .info
  | _ => .warning

def Kind.message : Kind → String
  | missingEntry name => "exception class " ++ name ++ " has no hierarchy entry, no import emitted"
  | staleArtifact path => "deleted stale artifact " ++ path.text
  | nestingExceeded line =>
    "collection literal nested past the rewrite bound: " ++ String.ofList (Text.trim line.toList)

end Diagnostic

structure Diagnostic where
  kind : Diagnostic.Kind
  file : Option String := none
  deriving DecidableEq, Repr

namespace Diagnostic

def level (d : Diagnostic) : Level :=
  d.kind.level

def isWarning (d : Diagnostic) : Bool :=
  d.level = .warning

def message (d : Diagnostic) : String :=
  let place := match d.file with
    | some file => " [" ++ file ++ "]"
    | none => ""
  d.level.name ++ ": " ++ d.kind.message ++ place

def warningCount (ds : List Diagnostic) : Nat :=
  (ds.filter isWarning).length

/-- Adds a finding about a file, unless one of the same kind is there already. The answer says
whether it was added. -/
def report (file : String) (kind : Kind) (ds : List Diagnostic) : Bool × List Diagnostic :=
  if ds.any (·.kind.same kind) then (false, ds) else (true, ds ++ [⟨kind, some file⟩])

end Diagnostic

end Polyglot
