/-!
Log entries. Levels are ordered from the most to the least severe, so a limit admits every entry
whose level is at most the limit.
-/

namespace Polyglot

namespace Log

inductive Level where
  | error
  | warn
  | info
  | debug
  | trace
  deriving DecidableEq, Repr

def Level.rank : Level → Nat
  | error => 1
  | warn => 2
  | info => 3
  | debug => 4
  | trace => 5

def Level.name : Level → String
  | error => "ERROR"
  | warn => "WARN"
  | info => "INFO"
  | debug => "DEBUG"
  | trace => "TRACE"

structure Entry where
  level : Level
  message : String
  deriving DecidableEq, Repr

end Log

/-- The entries in the order in which they were written. -/
abbrev Log := List Log.Entry

/-- The entries that a limit admits. -/
def Log.upTo (limit : Nat) (log : Log) : Log :=
  log.filter (·.level.rank ≤ limit)

end Polyglot
