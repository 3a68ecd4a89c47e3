import Polyglot.Ruleset.Shared

/-!
Rules for the bodies of Python methods. The earlier generation is made from the text of the later
one by a rule that drops `await`.
-/

namespace Polyglot

namespace Ruleset

/-- Tests for missing values, equality, and library calls: all that has to come before the shared
rules. -/
def pythonFirstTable : List (String × String) :=
  [ (r"Array\.isArray\s*\(([^)]+)\)", "isinstance(${1}, list)"),
    (r"([^(\s]+)\s+instanceof\s+([^)\s]+)", "isinstance(${1}, ${2})"),
    (r"typeof\s+([^\s\[]+)(?:\s|\[(.+?)\])\s+===?\s+'undefined'", "${1}[${2}] is None"),
    (r"typeof\s+([^\s\[]+)(?:\s|\[(.+?)\])\s+!==?\s+'undefined'", "${1}[${2}] is not None"),
    (r"typeof\s+(\S+)\s+===?\s+'undefined'", "${1} is None"),
    (r"typeof\s+(\S+)\s+!==?\s+'undefined'", "${1} is not None"),
    (r"typeof\s+(.+?)\s+===?\s+'undefined'", "${1} is None"),
    (r"typeof\s+(.+?)\s+!==?\s+'undefined'", "${1} is not None"),
    (r"([^\s\[]+)(?:\s|\[(.+?)\])\s+===?\s+undefined", "${1}[${2}] is None"),
    (r"([^\s\[]+)(?:\s|\[(.+?)\])\s+!==?\s+undefined", "${1}[${2}] is not None"),
    (r"(\S+)\s+===?\s+undefined", "${1} is None"),
    (r"(\S+)\s+!==?\s+undefined", "${1} is not None"),
    (r"(.+?)\s+===?\s+undefined", "${1} is None"),
    (r"(.+?)\s+!==?\s+undefined", "${1} is not None"),
    (r"typeof\s+([^\s\[]+)(?:\s|\[(.+?)\])\s+===?\s+'string'",
      "isinstance(${1}[${2}], basestring)"),
    (r"typeof\s+([^\s\[]+)(?:\s|\[(.+?)\])\s+!==?\s+'string'",
      "not isinstance(${1}[${2}], basestring)"),
    (r"typeof\s+(\S+)\s+===?\s+'string'", "isinstance(${1}, basestring)"),
    (r"typeof\s+(\S+)\s+!==?\s+'string'", "not isinstance(${1}, basestring)"),
    (r"undefined", "None"),
    (r"===?", "=="),
    (r"!==?", "!="),
    (r"this\.stringToBinary\s*\((.*)\)", "${1}"),
    (r"this\.stringToBase64\s", "base64.b64encode"),
    (r"this\.binaryToBase16\s", "base64.b16encode"),
    (r"this\.base64ToBinary\s", "base64.b64decode"),
    (r"\.shift\s*\(\)", ".pop(0)") ]

/-- Control flow, operators, formatting, and spacing by PEP8. -/
def pythonLastTable : List (String × String) :=
  [ (r"this\.", "self."),
    (r"([^a-zA-Z'])this([^a-zA-Z])", "${1}self${2}"),
    (r"(^|[^a-zA-Z0-9_])(?:let|const|var)\s\[\s*([^\]]+)\s\]", "${1}${2}"),
    (r"(^|[^a-zA-Z0-9_])(?:let|const|var)\s\x7b\s*([^\x7d]+)\s\x7d\s=\s([^;]+)",
      "${1}${2} = (lambda ${2}: (${2}))(**${3})"),
    (r"(^|[^a-zA-Z0-9_])(?:let|const|var)\s", "${1}"),
    (r"Object\.keys\s*\((.*)\)\.length", "${1}"),
    (r"Object\.keys\s*\((.*)\)", "list(${1}.keys())"),
    (r"\[([^\]]+)\]\.join\s*\(([^)]+)\)", "${2}.join([${1}])"),
    (r"hash \(([^,]+), '(sha[0-9])'", "hash(${1}, '${2}'"),
    (r"hmac \(([^,]+), ([^,]+), '(md5)'", "hmac(${1}, ${2}, hashlib.${3}"),
    (r"hmac \(([^,]+), ([^,]+), '(sha[0-9]+)'", "hmac(${1}, ${2}, hashlib.${3}"),
    (r"throw new (\S+) \((.*)\)", "raise ${1}(${2})"),
    (r"throw (\S+)", "raise ${1}"),
    (r"try \x7b", "try:"),
    (r"\x7d\s+catch \((\S+)\) \x7b", "except Exception as ${1}:"),
    (r"([\s(])extend(\s)", "${1}self.extend${2}"),
    (r"\x7d else if", "elif"),
    (r"else if", "elif"),
    (r"if\s+\((.*)\)\s+\x7b", "if ${1}:"),
    (r"if\s+\((.*)\)\s*\n", "if ${1}:\n"),
    (r"\x7d\s*else\s*\x7b", "else:"),
    (r"else\s*\n", "else:\n"),
    (r"for\s+\(([a-zA-Z0-9_]+)\s*=\s*([^;\s]+\s*);[^<>=]+(?:<=|>=|<|>)\s*(.*)\.length\s*;[^)]+\)\s*\x7b",
      "for ${1} in range(${2}, len(${3})):"),
    (r"for\s+\(([a-zA-Z0-9_]+)\s*=\s*([^;\s]+\s*);[^<>=]+(?:<=|>=|<|>)\s*(.*)\s*;[^)]+\)\s*\x7b",
      "for ${1} in range(${2}, ${3}):"),
    (r"\s\|\|\s", " or "),
    (r"\s&&\s", " and "),
    (r"!([^=])", "not ${1}"),
    (r"([^\s(]+)\.length", "len(${1})"),
    (r"\.push\s*\(([\s\S]+?)\);", ".append(${1});"),
    (r"(?m)^(\s*\x7d\s*$)+", ""),
    (r";(\s+?//.+?)", "${1}"),
    (r"(?m);$", ""),
    (r"\.toUpperCase\s*", ".upper"),
    (r"\.toLowerCase\s*", ".lower"),
    (r"JSON\.stringify\s*", "json.dumps"),
    (r"JSON\.parse\s*", "json.loads"),
    (r"(\S+)\.toFixed\s*\(([0-9]+)\)", "'\x7b:.${2}f\x7d'.format(${1})"),
    (r"(\S+)\.toFixed\s*\(([^)]+)\)", "('\x7b:.' + str(${2}) + 'f\x7d').format(${1})"),
    (r"parseFloat\s*", "float"),
    (r"parseInt\s*", "int"),
    (r"self\[([^\]+]+)\]", "getattr(self, ${1})"),
    (r"(\S+)\.slice \(([^,)]+),\s?([^)]+)\)", "${1}[${2}:${3}]"),
    (r"(\S+)\.slice \(([^):]+)\)", "${1}[${2}:]"),
    (r"Math\.floor\s*\(([^)]+)\)", "int(math.floor(${1}))"),
    (r"Math\.abs\s*\(([^)]+)\)", "abs(${1})"),
    (r"Math\.pow\s*\(([^)]+)\)", "math.pow(${1})"),
    (r"Math\.round\s*\(([^)]+)\)", "int(round(${1}))"),
    (r"Math\.ceil\s*\(([^)]+)\)", "int(math.ceil(${1}))"),
    (r"Math\.log", "math.log"),
    (r"([a-zA-Z0-9_.]*\([^)]+\)|\S+)\s*\?\s*([^:]+)\s+:\s*([^\n]+)", "${2} if ${1} else ${3}"),
    (r"(^|\s)//", "${1}#"),
    -- PEP8 E261
    (r"([^\n\s]) #", "${1}  #"),
    (r"\.indexOf", ".find"),
    (r"\strue", " True"),
    (r"\sfalse", " False"),
    (r"\((\S+)\sin\s([^)]+)\)", "(${1} in list(${2}.keys()))"),
    (r"(\S+\s*\(\))\.toString\s+\(\)", "str(${1})"),
    (r"(\S+)\.toString \(\)", "str(${1})"),
    (r"(\S+)\.join\s*\(\s*([^)\[\]]+?)\s*\)", "${2}.join(${1})"),
    (r"Math\.(max|min)\s", "${1}"),
    (r" = new ", " = "),
    (r"console\.log\s", "print"),
    (r"process\.exit\s+", "sys.exit"),
    -- PEP8 E225: no whitespace before a call's parenthesis
    (r"([^:+=/*\s-]+) \(", "${1}("),
    (r"\sand\(", " and ("),
    (r"\sor\(", " or ("),
    (r"\snot\(", " not ("),
    -- PEP8 E201/E202
    (r"\[ ", "["),
    (r"\x7b ", "\x7b"),
    (r"([^\s#]+) \]", "${1}]"),
    (r"([^\s#]+) \x7d", "${1}\x7d"),
    -- undo E225 for compound and ternary conditionals
    (r"([^a-z])(elif|if|or|else)\(", "${1}${2} ("),
    -- E712
    (r"==\sTrue", "is True") ]

def python3 (shared : Ruleset) : Except Failure Ruleset := do
  let first ← ofTable "python-pre" pythonFirstTable
  let last ← ofTable "python-post" pythonLastTable
  return concat "python3" [first, shared, last]

def python2 : Except Failure Ruleset :=
  ofTable "python2" [(r"(\s)await(\s)", "${1}")]

end Ruleset

end Polyglot
