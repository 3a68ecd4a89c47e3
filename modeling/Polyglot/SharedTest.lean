import Polyglot.Settings.Basic
import Polyglot.Render.Fragment
import Polyglot.Workspace

/-!
Test files that are rendered once for Python and once for PHP. Each has a filter that strips what
only its source needs, and texts that stand in front of the rendered code.
-/

namespace Polyglot

structure SharedTest where
  source : String
  pythonOutput : String
  phpOutput : String
  /-- Patterns and templates applied to the source first. -/
  filters : List (String × String)
  pythonHeader : List String
  phpHeader : List String
  deriving DecidableEq, Repr

namespace SharedTest

def pythonPreamble : List String :=
  ["import os",
    "import sys",
    "",
    "root = os.path.dirname(os.path.dirname(os.path.abspath(__file__)))",
    "sys.path.append(root)",
    "",
    "# ----------------------------------------------------------------------------",
    "",
    "# PLEASE DO NOT EDIT THIS FILE, IT IS GENERATED AND WILL BE OVERWRITTEN:",
    "# https://github.com/ccxt/ccxt/blob/master/CONTRIBUTING.md#how-to-contribute-code",
    "",
    "# ----------------------------------------------------------------------------",
    ""]

def phpPreamble : List String :=
  ["<?php",
    "namespace ccxt;",
    "include_once (__DIR__.'/../../ccxt.php');",
    "// ----------------------------------------------------------------------------",
    "",
    "// PLEASE DO NOT EDIT THIS FILE, IT IS GENERATED AND WILL BE OVERWRITTEN:",
    "// https://github.com/ccxt/ccxt/blob/master/CONTRIBUTING.md#how-to-contribute-code",
    "",
    "// -----------------------------------------------------------------------------",
    ""]

def useStrict : String × String :=
  (r"'use strict';?\s+", "")

def requireLines : String × String :=
  (r"[^\n]+require[^\n]+\n", "")

/-- Rounding and number formats. -/
def number : SharedTest where
  source := "test.number.js"
  pythonOutput := "test_decimal_to_precision.py"
  phpOutput := "decimal_to_precision.php"
  filters := [useStrict, requireLines, ("decimalToPrecision", "decimal_to_precision"),
    ("numberToString", "number_to_string")]
  pythonHeader :=
    ["",
      "from ccxt.base.decimal_to_precision import decimal_to_precision  # noqa F401",
      "from ccxt.base.decimal_to_precision import TRUNCATE              # noqa F401",
      "from ccxt.base.decimal_to_precision import ROUND                 # noqa F401",
      "from ccxt.base.decimal_to_precision import DECIMAL_PLACES        # noqa F401",
      "from ccxt.base.decimal_to_precision import SIGNIFICANT_DIGITS    # noqa F401",
      "from ccxt.base.decimal_to_precision import TICK_SIZE             # noqa F401",
      "from ccxt.base.decimal_to_precision import PAD_WITH_ZERO         # noqa F401",
      "from ccxt.base.decimal_to_precision import NO_PADDING            # noqa F401",
      "from ccxt.base.decimal_to_precision import number_to_string      # noqa F401",
      "",
      "# ----------------------------------------------------------------------------",
      "",
      ""]
  phpHeader :=
    ["// testDecimalToPrecisionErrorHandling",
      "//",
      "// $this->expectException ('ccxt\\\\BaseError');",
      "// $this->expectExceptionMessageRegExp ('/Negative precision is not yet supported/');",
      "// Exchange::decimalToPrecision ('123456.789', TRUNCATE, -2, DECIMAL_PLACES);",
      "//",
      "// $this->expectException ('ccxt\\\\BaseError');",
      "// $this->expectExceptionMessageRegExp ('/Invalid number/');",
      "// Exchange::decimalToPrecision ('foo');",
      "",
      "// ----------------------------------------------------------------------------",
      "",
      "function decimal_to_precision ($x, $roundingMode = ROUND, $numPrecisionDigits = null, $countingMode = DECIMAL_PLACES, $paddingMode = NO_PADDING) \x7b",
      "    return Exchange::decimal_to_precision ($x, $roundingMode, $numPrecisionDigits, $countingMode, $paddingMode);",
      "\x7d",
      "function number_to_string ($x) \x7b",
      "    return Exchange::number_to_string ($x);",
      "\x7d",
      ""]

/-- Dates and times. -/
def datetime : SharedTest where
  source := "test.datetime.js"
  pythonOutput := "test_exchange_datetime_functions.py"
  phpOutput := "test_exchange_datetime_functions.php"
  filters := [requireLines, (r"(?m)^/\*.*\s+", "")]
  pythonHeader :=
    ["",
      "import ccxt  # noqa: F402",
      "from ccxt.base.decimal_to_precision import ROUND_UP, ROUND_DOWN  # noqa F401",
      "",
      "# ----------------------------------------------------------------------------",
      "",
      ""]
  phpHeader := []

/-- Hashes and signatures. -/
def crypto : SharedTest where
  source := "test.crypto.js"
  pythonOutput := "test_crypto.py"
  phpOutput := "test_crypto.php"
  filters := [useStrict, requireLines,
    (r"function equals \([\S\s]+?return true\n\x7d\n", "")]
  pythonHeader :=
    ["",
      "import ccxt  # noqa: F402",
      "",
      "Exchange = ccxt.Exchange",
      "hash = Exchange.hash",
      "ecdsa = Exchange.ecdsa",
      "jwt = Exchange.jwt",
      "encode = Exchange.encode",
      "",
      "",
      "def equals(a, b):",
      "    return a == b",
      ""]
  phpHeader :=
    ["",
      "function hash(...$args) \x7b",
      "    return Exchange::hash(...$args);",
      "\x7d",
      "",
      "function encode(...$args) \x7b",
      "    return Exchange::encode(...$args);",
      "\x7d",
      "",
      "function ecdsa(...$args) \x7b",
      "    return Exchange::ecdsa(...$args);",
      "\x7d",
      "",
      "function jwt(...$args) \x7b",
      "    return Exchange::jwt(...$args);",
      "\x7d",
      "",
      "function equals($a, $b) \x7b",
      "    return $a === $b;",
      "\x7d"]

/-- All shared tests in the order in which a run renders them. -/
def all : List SharedTest :=
  [number, datetime, crypto]

def pythonText (f : SharedTest) (code : String) : String :=
  "\n".intercalate pythonPreamble ++ "\n".intercalate f.pythonHeader ++ code

def phpText (f : SharedTest) (code : String) : String :=
  "\n".intercalate phpPreamble ++ "\n".intercalate f.phpHeader ++ code

def sourcePath (f : SharedTest) (root : Path) (auxiliary : AuxiliaryPaths) : Path :=
  (root.join auxiliary.fixtureDir).join ⟨f.source⟩

section Jobs

variable {m : Type → Type} [Monad m] [Workspace m]

def writeOutput (path : Path) (text : String) : Job m Unit := do
  Job.note .info ("→ " ++ path.text)
  Job.save path text

/-- Renders a shared test into its two files, and lists them. -/
def generate (f : SharedTest) (book : RuleBook) (root : Path) (auxiliary : AuxiliaryPaths) :
    Job m (List Path × List Diagnostic) := do
  let source := f.sourcePath root auxiliary
  Job.note .info ("Transpiling from " ++ source.text)
  let filters ← Job.ofExcept (Ruleset.ofTable f.source f.filters)
  let code := filters.apply (← Job.read source)
  let (rendered, lines) := Fragment.render book code false
  Job.noteAll (Fragment.log source.text lines)
  let pythonPath := (root.join auxiliary.pythonTestDir).join ⟨f.pythonOutput⟩
  let phpPath := (root.join auxiliary.phpTestDir).join ⟨f.phpOutput⟩
  writeOutput pythonPath (f.pythonText rendered.python2)
  writeOutput phpPath (f.phpText rendered.php)
  return ([pythonPath, phpPath], Fragment.diagnostics source.text lines)

end Jobs

end SharedTest

end Polyglot
