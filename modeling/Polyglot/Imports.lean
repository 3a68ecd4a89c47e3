import Polyglot.Hierarchy.Basic
import Polyglot.Pattern.Scan
import Polyglot.Sort

/-!
The imports that a Python text needs. A name is imported if it occurs as a whole word next to no
quote; a module if it occurs before a dot. Exception classes that are raised and that the hierarchy
does not know are listed as missing.
-/

namespace Polyglot

open Pattern

structure Imports where
  stdlib : List String
  errors : List String
  precision : List String
  /-- Raised exception classes that no import can bring in, in increasing order. -/
  missing : List String
  deriving DecidableEq, Repr

namespace Imports

def isEmpty (i : Imports) : Bool :=
  i.stdlib.isEmpty && i.errors.isEmpty && i.precision.isEmpty

/-- The import statements: modules, then exceptions, then constants. -/
def lines (i : Imports) : List String :=
  i.stdlib.map ("import " ++ ·) ++
    i.errors.map ("from ccxt.base.errors import " ++ ·) ++
    i.precision.map ("from ccxt.base.decimal_to_precision import " ++ ·)

/-- The constants for rounding, counting and padding. -/
def precisionConstants : List String :=
  ["ROUND", "TRUNCATE", "ROUND_UP", "ROUND_DOWN", "DECIMAL_PLACES",
    "SIGNIFICANT_DIGITS", "TICK_SIZE", "NO_PADDING", "PAD_WITH_ZERO"]

def stdlibModules : List String :=
  ["base64", "hashlib", "math", "json"]

/-- Exceptions that are always in scope. -/
def builtinExceptions : List String :=
  ["Exception", "ValueError", "TypeError", "KeyError", "NameError", "NotImplementedError"]

def quotesAndWords : List CharSet :=
  [.single '\'', .single '"', .word]

/-- A module's name before a dot. -/
def modulePattern (name : String) : Pattern :=
  seqAll
    ([group 1 (altAll [look .textStart, noneOf (quotesAndWords ++ [.single '.'])])] ++ text name ++
      text ".")

/-- A name as a whole word next to no quote. -/
def wordPattern (name : String) : Pattern :=
  seqAll
    ([group 1 (altAll [look .textStart, noneOf quotesAndWords])] ++ text name ++
      [group 2 (altAll [noneOf quotesAndWords, look .textEnd])])

/-- A raised exception with its class, which starts with a capital. -/
def raisedPattern : Pattern :=
  seqAll
    (text "raise " ++
      [group 1 (seqAll [oneOf [.range 'A' 'Z'],
        star true (oneOf [.range 'A' 'Z', .range 'a' 'z', .range '0' '9', .single '_'])])])

def raised (s : List Char) : List String :=
  (raisedPattern.findAll s).map fun m => String.ofList (m.group 1)

def ofText (hierarchy : Hierarchy) (s : String) : Imports :=
  let s := s.toList
  let known (name : String) := hierarchy.contains name || builtinExceptions.contains name
  { stdlib := stdlibModules.filter fun name => (modulePattern name).isMatch s
    errors := hierarchy.names.filter fun name => (wordPattern name).isMatch s
    precision := precisionConstants.filter fun name => (wordPattern name).isMatch s
    missing := sortBy textLe ((raised s).filter (!known ·)).eraseDups }

end Imports

end Polyglot
