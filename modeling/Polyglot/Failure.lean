import Polyglot.Path

/-!
What can stop the work on a file or on a whole run, and the wording of each cause.
-/

namespace Polyglot

/-- A failed access to the file tree: its text, and the texts of what caused it in turn. -/
structure AccessError where
  text : String
  causes : List String := []
  deriving DecidableEq, Repr

namespace AccessError

def missing : AccessError := { text := "No such file or directory (os error 2)" }

def alreadyExists : AccessError := { text := "File exists (os error 17)" }

def notDirectory : AccessError := { text := "Not a directory (os error 20)" }

def isDirectory : AccessError := { text := "Is a directory (os error 21)" }

def nameTooLong : AccessError := { text := "File name too long (os error 36)" }

/-- A path holds the character that ends texts in other places. -/
def badName : AccessError := { text := "file name contained an unexpected NUL byte" }

/-- The content of a file is no encoded text. -/
def notText : AccessError := { text := "stream did not contain valid UTF-8" }

/-- An error that arose while a directory was listed. -/
def listing (directory : Path) (e : AccessError) : AccessError :=
  { text := "IO error for operation on " ++ directory.text ++ ": " ++ e.text
    causes := e.text :: e.causes }

end AccessError

inductive Failure where
  /-- A source text violates the grammar of classes and methods. -/
  | format (file message : String) (method : Option String)
  /-- A rule has no valid pattern. -/
  | rule (message : String) (pattern : Option String)
  /-- A rendering step does not find the shape that it expects. -/
  | render (message : String) (context file : Option String)
  | configuration (message : String) (field : Option String)
  | fileAccess (path : Path) (cause : AccessError)
  | access (cause : AccessError)
  | json (message : String)
  | pattern (message : String)
  deriving DecidableEq, Repr

namespace Failure

def message : Failure → String
  | format file message _ => "Format error in " ++ file ++ ": " ++ message
  | rule message _ => "Rule error: " ++ message
  | render message context file =>
    let place (intro : String) (value : Option String) := (value.map (intro ++ ·)).getD ""
    "Rendering error" ++ place " in " file ++ place " at " context ++ ": " ++ message
  | configuration message _ => "Configuration error: " ++ message
  | fileAccess path cause => "I/O error on " ++ path.text ++ ": " ++ cause.text
  | access cause => "I/O error: " ++ cause.text
  | json message => "JSON error: " ++ message
  | pattern message => "Regex error: " ++ message

/-- The texts of what caused the failure, the nearest first. -/
def causes : Failure → List String
  | fileAccess _ cause => cause.text :: cause.causes
  | access cause => cause.text :: cause.causes
  | json message => [message]
  | pattern message => [message]
  | _ => []

/-- Names the file that is being worked on, unless the failure names one or has none to name. -/
def inFile (source : String) : Failure → Failure
  | render message context none => render message context (some source)
  | other => other

def isFormat : Failure → Bool
  | format .. => true
  | _ => false

/-- The source file that the failure names. -/
def file? : Failure → Option String
  | format file _ _ => some file
  | render _ _ file => file
  | _ => none

end Failure

end Polyglot
