import Polyglot.Imports
import Polyglot.Text.Substring

/-!
Whole files around rendered methods.
-/

namespace Polyglot

structure MethodText where
  name : String
  signature : String
  body : String
  deriving DecidableEq, Repr

namespace Render

/-- What every generated file says at its top, behind the sign for comments. -/
def banner : String × String :=
  ("PLEASE DO NOT EDIT THIS FILE, IT IS GENERATED AND WILL BE OVERWRITTEN:",
    "https://github.com/ccxt/ccxt/blob/master/CONTRIBUTING.md#how-to-contribute-code")

namespace Python

def basestringLines : List String :=
  [ "\n# -----------------------------------------------------------------------------\n",
    "try:",
    "    basestring  # Python 3",
    "except NameError:",
    "    basestring = str  # Python 2" ]

/-- The import of a base class. A base in the package imports the package, the common base has a
module of its own, and any other base is a module of its name. -/
def importLine (baseClass : String) (isAsync : Bool) : String :=
  let package := if isAsync then "ccxt.async_support" else "ccxt"
  if "ccxt.".toList.isPrefixOf baseClass.toList then "import " ++ package ++ " as ccxt"
  else
    let home := if baseClass = "Exchange" then "base.exchange" else baseClass
    "from " ++ package ++ "." ++ home ++ " import " ++ baseClass

/-- A blank line, the signature and the body of each method. -/
def methodBlocks (methods : List MethodText) : String :=
  "\n".intercalate (methods.flatMap fun m => ["", "    " ++ m.signature, m.body])

def header (name baseClass : String) (isAsync : Bool) (body : String) (imports : Imports) :
    List String :=
  ["# -*- coding: utf-8 -*-\n", "# " ++ banner.1, "# " ++ banner.2 ++ "\n",
    importLine baseClass isAsync] ++
    (if Text.contains "basestring".toList body.toList then basestringLines else []) ++
    imports.lines ++ ["\n\nclass " ++ name ++ "(" ++ baseClass ++ "):"]

def classFile (name baseClass : String) (isAsync : Bool) (body : String) (imports : Imports) :
    String :=
  "\n".intercalate (header name baseClass isAsync body imports) ++ "\n" ++ body ++ "\n"

end Python

namespace Php

/-- A blank line, the signature, the body and the closing brace of each method. -/
def methodBlocks (methods : List MethodText) : String :=
  "\n".intercalate (methods.flatMap fun m => ["", "    " ++ m.signature, m.body, "    \x7d"])

def header (name baseClass : String) : List String :=
  ["<?php", "", "namespace ccxt;", "", "// " ++ banner.1, "// " ++ banner.2, "",
    "use Exception; // a common import", "", "class " ++ name ++ " extends " ++
    baseClass ++ " \x7b"]

def classFile (name baseClass body : String) : String :=
  "\n".intercalate (header name baseClass) ++ "\n" ++ body ++ "\n\x7d\n"

end Php

end Render

end Polyglot
