import Polyglot.Render.PythonText

/-!
PHP texts: bodies with their sigils, and signatures. Collection literals that are still there when
the bounded rules have run are reported by their lines.
-/

namespace Polyglot

namespace Pattern

/-- How many characters precede each match. -/
def starts (p : Pattern) (s : List Char) : List Nat :=
  go 0 (p.scan s)
where
  go : Nat → List Piece → List Nat
    | _, [] => []
    | n, .copy _ :: pieces => go (n + 1) pieces
    | n, .hit m :: pieces => n :: go (n + m.text.length) pieces

end Pattern

namespace Render.Php

/-- The line around a place of a text, trimmed. -/
def lineAt (s : List Char) (place : Nat) : List Char :=
  let before := ((s.take place).reverse.takeWhile (· != '\n')).reverse
  Text.trim (before ++ (s.drop place).takeWhile (· != '\n'))

/-- The lines on which collection literals are left, each once. -/
def overflows (book : RuleBook) (s : List Char) : List String :=
  let lines := book.collections.rules.flatMap fun rule =>
    (rule.matcher.pattern.starts s).map fun place => String.ofList (lineAt s place)
  lines.eraseDups

/-- The text before placeholders are restored. -/
def sigiled (book : RuleBook) (source : String) (bindings : List String) : List Char :=
  (Ruleset.sigils (bindings.map book.shared.apply)).applyChars
    (book.php.applyChars source.toList)

/-- The text of a source with the given variables, and the lines that nest too deeply. -/
def phpText (book : RuleBook) (source : String) (bindings : List String) : String × List String :=
  let s := sigiled book source bindings
  (String.ofList (book.phpRestore.applyChars s), overflows book s)

def literals : List (String × String) :=
  [("undefined", "null"), ("\x7b\x7d", "array ()")]

def signature (m : Method) : String :=
  let arguments := ", ".intercalate (m.parameters.map (argument "$" " = " literals))
  "public function " ++ Name.underscored m.name ++ " (" ++ arguments ++ ") \x7b"

end Render.Php

end Polyglot
