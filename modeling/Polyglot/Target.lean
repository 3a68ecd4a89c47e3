/-!
The target languages: two generations of Python, of which only the later keeps its concurrency
keywords, and PHP.
-/

namespace Polyglot

inductive Target where
  | python2
  | python3
  | php
  deriving DecidableEq, Repr

namespace Target

/-- In the order in which artifacts are written. -/
def all : List Target :=
  [python2, python3, php]

def id : Target → String
  | python2 => "python2"
  | python3 => "python3"
  | php => "php"

/-- The name in progress messages. -/
def name : Target → String
  | python2 => "Python2"
  | python3 => "Python3"
  | php => "Php"

def ofId? (s : String) : Option Target :=
  all.find? (·.id == s)

def extension : Target → String
  | python2 | python3 => "py"
  | php => "php"

def isPython : Target → Bool
  | python2 | python3 => true
  | php => false

/-- Whether the target keeps `async` and `await`. -/
def isAsync : Target → Bool
  | python3 => true
  | _ => false

theorem mem_all (t : Target) : t ∈ all := by
  cases t <;> decide

theorem ofId?_id (t : Target) : ofId? t.id = some t := by
  cases t <;> decide

end Target

end Polyglot
