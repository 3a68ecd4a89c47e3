import Polyglot.Ruleset.Shared
import Polyglot.Hierarchy.Basic
import Polyglot.Sort

/-!
Rules for the bodies of PHP methods, and the rules that give one method's variables their sigils.

Collection literals are converted one level of nesting at a time, so three of the rules are repeated
up to a bound. Placeholders such as `{name}` are hidden from the rules for braces and restored when
the sigils are in place.
-/

namespace Polyglot

namespace Ruleset

open Pattern (char look seqAll altAll plus group noneOf text)

/-- Hides a placeholder. The underscores keep the sigil rules off the name inside. -/
def hidePlaceholder : String × String :=
  (r"\x7b([a-zA-Z0-9_]+?)\x7d", "~_${1}_~")

def restorePlaceholder : String × String :=
  (r"~_([a-zA-Z0-9_]+?)_~", "\x7b${1}\x7d")

/-- A literal in braces on one line. -/
def braceLine : String × String :=
  (r"\x7b([^\n\x7d]+)\x7d", "array(${1})")

/-- A literal in braces that may span lines, before a character that is not blank. -/
def braceBlock : String × String :=
  (r"\x7b([^;\x7b]+?)\x7d(\S)", "array (${1})${2}")

/-- A literal in brackets written with blanks inside. -/
def bracket : String × String :=
  (r"\[(\s[^\]]+?\s)\]", "array (${1})")

def phpFirstTable : List (String × String) :=
  [ (r"Array\.isArray\s*\(([^)]+)\)",
      "gettype (${1}) === 'array' && count (array_filter (array_keys (${1}), 'is_string')) == 0"),
    (r"typeof\s+([^\s\[]+)(?:\s|\[(.+?)\])\s+===?\s+'undefined'", "${1}[${2}] === null"),
    (r"typeof\s+([^\s\[]+)(?:\s|\[(.+?)\])\s+!==?\s+'undefined'", "${1}[${2}] !== null"),
    (r"typeof\s+(\S+)\s+===?\s+'undefined'", "${1} === null"),
    (r"typeof\s+(\S+)\s+!==?\s+'undefined'", "${1} !== null"),
    (r"typeof\s+(.+?)\s+===?\s+'undefined'", "${1} === null"),
    (r"typeof\s+(.+?)\s+!==?\s+'undefined'", "${1} !== null"),
    (r"([^\s\[]+)(?:\s|\[(.+?)\])\s+===?\s+undefined", "${1}[${2}] === null"),
    (r"([^\s\[]+)(?:\s|\[(.+?)\])\s+!==?\s+undefined", "${1}[${2}] !== null"),
    (r"(\S+)\s+===?\s+undefined", "${1} === null"),
    (r"(\S+)\s+!==?\s+undefined", "${1} !== null"),
    (r"(.+?)\s+===?\s+undefined", "${1} === null"),
    (r"(.+?)\s+!==?\s+undefined", "${1} !== null"),
    (r"typeof\s+([^\s\[]+)(?:\s|\[(.+?)\])\s+===?\s+'string'", "gettype (${1}[${2}]) === 'string'"),
    (r"typeof\s+([^\s\[]+)(?:\s|\[(.+?)\])\s+!==?\s+'string'", "gettype (${1}[${2}]) !== 'string'"),
    (r"typeof\s+(\S+)\s+===?\s+'string'", "gettype (${1}) === 'string'"),
    (r"typeof\s+(\S+)\s+!==?\s+'string'", "gettype (${1}) !== 'string'"),
    (r"undefined", "null"),
    (r"this\.extend", "array_merge"),
    (r"this\.stringToBinary\s*\((.*)\)", "${1}"),
    (r"this\.stringToBase64", "base64_encode"),
    (r"this\.binaryToBase16\s", "bin2hex"),
    (r"this\.base64ToBinary", "base64_decode"),
    (r"this\.deepExtend", "array_replace_recursive"),
    (r"(\w+)\.shift\s*\(\)", "array_shift(${1})"),
    (r"(\w+)\.pop\s*\(\)", "array_pop(${1})") ]

def phpMemberTable : List (String × String) :=
  [ (r"this\.", "$$this->"),
    (r" this;", " $$this;"),
    (r"([^'])this_\.", "${1}$$this_->"),
    (r"\x7b\x7d", "array()"),
    (r"\[\]", "array()") ]

def phpStatementTable : List (String × String) :=
  [ (r"(^|[^a-zA-Z0-9_])(?:let|const|var)\s\[\s*([^\]]+)\s\]", "${1}list(${2})"),
    (r"(^|[^a-zA-Z0-9_])(?:let|const|var)\s\x7b\s*([^\x7d]+)\s\x7d",
      "${1}array_values(list(${2}))"),
    (r"(^|[^a-zA-Z0-9_])(?:let|const|var)\s", "${1}"),
    (r"Object\.keys\s*\((.*)\)\.length", "${1}"),
    (r"Object\.keys\s*\((.*)\)", "is_array(${1}) ? array_keys(${1}) : array()"),
    (r"(\S+\s*\(\))\.toString \(\)", "(string) ${1}"),
    (r"(\S+)\.toString \(\)", "(string) ${1}"),
    (r"throw new Error \((.*)\)", "throw new \\Exception(${1})"),
    (r"throw new (\S+) \((.*)\)", "throw new ${1}(${2})"),
    (r"throw (\S+);", "throw $$${1};") ]

def phpLoopTable : List (String × String) :=
  [ (r"\x7d\s+catch \((\S+)\) \x7b", "\x7d catch (Exception $$${1}) \x7b"),
    (r"for\s+\(([a-zA-Z0-9_]+)\s*=\s*([^;\s]+\s*);[^<>=]+(<=|>=|<|>)\s*(.*)\.length\s*;([^)]+)\)\s*\x7b",
      "for (${1} = ${2}; ${1} ${3} count (${4});${5}) \x7b"),
    (r"for\s+\(([a-zA-Z0-9_]+)\s*=\s*([^;\s]+\s*);[^<>=]+(<=|>=|<|>)\s*(.*)\s*;([^)]+)\)\s*\x7b",
      "for (${1} = ${2}; ${1} ${3} ${4};${5}) \x7b"),
    (r"(\S+)\.length;", "is_array (${1}) ? count (${1}) : 0;"),
    (r"([^\s(]+)\.length", "strlen (${1})"),
    (r"\.push\s*\(([\s\S]+?)\);", "[] = ${1};"),
    (r"(\s)await(\s)", "${1}"),
    (r"(\S): ", "${1} => ") ]

def phpJoinTable : List (String × String) :=
  [ (r"\[\s*([^\]]+?)\s*\]\.join\s*\(\s*([^)]+?)\s*\)", "implode(${2}, array(${1}))") ]

def phpCallTable : List (String × String) :=
  [ (r"JSON\.stringify", "json_encode"),
    (r"JSON\.parse\s+\(([^)]+)\)", "json_decode(${1}, $$as_associative_array = true)"),
    (r"([^(\s]+)\.includes\s+\(([^)]+)\)", "mb_strpos(${1}, ${2})"),
    (r"(\S+)\.toFixed\s*\(([0-9]+)\)", "sprintf('%.${2}f', ${1})"),
    (r"(\S+)\.toFixed\s*\(([^)]+)\)", "sprintf('%.' . ${2} . 'f', ${1})"),
    (r"parseFloat\s", "floatval "),
    (r"parseInt\s", "intval "),
    (r" \+ ", " . "),
    (r" \+= ", " .= "),
    (r"([^\s(]+(?:\s*\(.+\))?)\.toUpperCase\s*\(\)", "strtoupper(${1})"),
    (r"([^\s(]+(?:\s*\(.+\))?)\.toLowerCase\s*\(\)", "strtolower(${1})"),
    (r"([^\s(]+(?:\s*\(.+\))?)\.replace\s*\(([^)]+)\)", "str_replace(${2}, ${1})"),
    (r"this\[([^\]+]+)\]", "$$this->$$${1}"),
    (r"([^\s(]+)\.slice \(([^):,]+)\)", "mb_substr(${1}, ${2})"),
    (r"([^\s(]+)\.slice \(([^,)]+),\s*([^)]+)\)", "mb_substr(${1}, ${2}, ${3} - ${2})"),
    (r"([^\s(]+)\.split \(('[^']*'|[^,]+?)\)", "explode(${2}, ${1})"),
    (r"Math\.floor\s*\(([^)]+)\)", "(int) floor(${1})"),
    (r"Math\.abs\s*\(([^)]+)\)", "abs (${1})"),
    (r"Math\.round\s*\(([^)]+)\)", "(int) round(${1})"),
    (r"Math\.ceil\s*\(([^)]+)\)", "(int) ceil(${1})"),
    (r"Math\.pow\s*\(([^)]+)\)", "pow(${1})"),
    (r"Math\.log", "log"),
    (r"([^(\s]+)\s+%\s+([^\s)]+)", "fmod(${1}, ${2})"),
    (r"\(([^\s(]+)\.indexOf\s*\(([^)]+)\)\s*>=\s*0\)", "(mb_strpos(${1}, ${2}) !== false)"),
    (r"([^\s(]+)\.indexOf\s*\(([^)]+)\)\s*>=\s*0", "mb_strpos(${1}, ${2}) !== false"),
    (r"([^\s(]+)\.indexOf\s*\(([^)]+)\)", "mb_strpos(${1}, ${2})"),
    (r"\(([^\s(]+)\sin\s([^)]+)\)", "(is_array(${2}) && array_key_exists(${1}, ${2}))"),
    (r"(\S+)\.join\s*\(\s*([^)]+?)\s*\)", "implode(${2}, ${1})"),
    (r"new ccxt\.", "new \\ccxt\\"),
    (r"Math\.(max|min)", "${1}"),
    (r"console\.log", "var_dump"),
    (r"process\.exit", "exit"),
    (r"super\.", "parent::") ]

/-- Longer names first, so that no name hides one that extends it. -/
def nameLe (a b : String) : Bool :=
  decide (b.utf8ByteSize < a.utf8ByteSize) || (a.utf8ByteSize == b.utf8ByteSize && textLe a b)

/-- Puts exception classes that are used as values into the target's namespace. -/
def errorNamesRule (names : List String) : Rule :=
  let sorted := sortBy nameLe names
  { matcher :=
      { source := "([^a-z]+) (" ++ "|".intercalate (sorted.map Pattern.quote) ++ r")(\S)"
        pattern := seqAll
          ([group 1 (plus true (noneOf [.range 'a' 'z']))] ++ text " " ++
            [group 2 (altAll (sorted.map fun name => seqAll (text name))),
              group 3 (char (.compl .blank))])
        names := [] }
    template := "${1} '\\\\ccxt\\\\${2}'${3}" }

def phpStatements (hierarchy : Hierarchy) : Except Failure Ruleset := do
  let statements ← ofTable "php-statements" phpStatementTable
  if hierarchy.isEmpty then return statements
  return statements.push (errorNamesRule hierarchy.names)

/-- Placeholders stay hidden in the result. -/
def php (shared : Ruleset) (hierarchy : Hierarchy) (passes : Nat) : Except Failure Ruleset := do
  let hide ← ofTable "php-placeholders" [hidePlaceholder]
  let first ← ofTable "php-pre" phpFirstTable
  let members ← ofTable "php-member-access" phpMemberTable
  let braceLines ← iterated "php-brace-lines" braceLine.1 braceLine.2 passes
  let statements ← phpStatements hierarchy
  let loops ← ofTable "php-loops" phpLoopTable
  let braceBlocks ← iterated "php-brace-blocks" braceBlock.1 braceBlock.2 passes
  let joins ← ofTable "php-join" phpJoinTable
  let brackets ← iterated "php-brackets" bracket.1 bracket.2 passes
  let calls ← ofTable "php-library" phpCallTable
  return concat "php"
    [hide, first, shared, members, braceLines, statements, loops, braceBlocks,
      joins, brackets, calls]

def phpRestore : Except Failure Ruleset :=
  ofTable "php-placeholders" [restorePlaceholder]

def letterOrDigit : List CharSet :=
  [.range 'a' 'z', .range 'A' 'Z', .range '0' '9']

/-- Puts the sigil before a variable that stands alone. A dollar in the name is read as a template
reads it. -/
def sigilRule (name : String) : Rule where
  matcher :=
    { source := r"(^|[^$a-zA-Z0-9.>'_/])" ++ Pattern.quote name ++ "([^a-zA-Z0-9'_/])"
      pattern := seqAll
        ([group 1 (altAll [look .textStart, noneOf ([.single '$'] ++ letterOrDigit ++
            [.single '.', .single '>', .single '\'', .single '_', .single '/'])])] ++
          text name ++
          [group 2 (noneOf (letterOrDigit ++ [.single '\'', .single '_', .single '/']))])
      names := [] }
  template := "${1}$$" ++ name ++ "${2}"

/-- Turns the dot behind a variable into an arrow. -/
def propertyRule (name : String) : Rule where
  matcher :=
    { source := r"(^|[^a-zA-Z0-9.>'_])" ++ Pattern.quote name ++ r"\."
      pattern := seqAll
        ([group 1 (altAll [look .textStart, noneOf (letterOrDigit ++
            [.single '.', .single '>', .single '\'', .single '_'])])] ++
          text name ++ text ".")
      names := [] }
  template := "${1}" ++ name ++ "->"

/-- The rules for one method's variables. The sigil rules run twice, because two neighbours share
the character between them. -/
def sigils (names : List String) : Ruleset :=
  ⟨"php-variables", names.map sigilRule ++ names.map sigilRule ++ names.map propertyRule⟩

end Ruleset

end Polyglot
