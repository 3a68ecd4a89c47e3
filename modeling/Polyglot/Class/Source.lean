import Polyglot.Class.Basic
import Polyglot.Failure
import Polyglot.Log
import Polyglot.Pattern.Source
import Polyglot.Text.Lines
import Polyglot.Text.Substring

/-!
Reading a class from its source text. The header is found by its pattern, the body reaches to the
first brace at the start of a line, and blank lines separate the methods. Next to each pattern
stands the text that spells it.
-/

namespace Polyglot

open Pattern

namespace Pattern

/-- The parts of a text between the matches. -/
def split (p : Pattern) (s : List Char) : List (List Char) :=
  go (p.scan s)
where
  go : List Piece → List (List Char)
    | [] => [[]]
    | .hit _ :: pieces => [] :: go pieces
    | .copy c :: pieces =>
      match go pieces with
      | part :: parts => (c :: part) :: parts
      | [] => [[c]]

end Pattern

namespace ClassDecl

/-- A run of blank characters that is not empty. -/
def gap : Pattern :=
  plus true (char .blank)

/-- A run of characters that are not blank. -/
def wordRun : Pattern :=
  plus true (char (.compl .blank))

def headerPattern : Pattern :=
  seqAll
    ([look .lineStart] ++ text "module.exports" ++ [blanks] ++ text "=" ++
      [blanks] ++ text "class" ++ [gap, group 1 wordRun, gap] ++ text "extends" ++
      [gap, group 2 wordRun, gap] ++ text "\x7b" ++
      [group 3 (plus false (oneOf [.blank, .compl .blank])), look .lineStart] ++ text "\x7d" ++
      [star true (char (.single ';'))])

theorem headerPattern_spelled :
    (Pattern.ofSource
      r"(?m)^module\.exports\s*=\s*class\s+(\S+)\s+extends\s+(\S+)\s+\x7b([\s\S]+?)^\x7d;*".toList).toOption =
      some (headerPattern, []) := by decide +kernel

/-- A line end, blanks, and another line end. -/
def separatorPattern : Pattern :=
  seqAll (text "\n" ++ [blanks] ++ text "\n")

theorem separatorPattern_spelled :
    (Pattern.ofSource r"\n\s*\n".toList).toOption = some (separatorPattern, []) := by decide +kernel

/-- `async` if it is there, the name, and the parameters in parentheses before a brace. -/
def signaturePattern : Pattern :=
  seqAll
    ([look .textStart, opt true (group 1 (seqAll (text "async "))), group 2 wordRun, char .blank] ++
      text "(" ++ [group 3 (star true (noneOf [.single ')']))] ++ text ")" ++
      [blanks] ++ text "\x7b")

theorem signaturePattern_spelled :
    (Pattern.ofSource r"^(async )?(\S+)\s\(([^)]*)\)\s*\x7b".toList).toOption =
      some (signaturePattern, []) := by decide +kernel

def identifierChars : List CharSet :=
  [.range 'a' 'z', .range 'A' 'Z', .range '0' '9', .single '_']

/-- A declaration of one local, or of several in brackets or braces. -/
def localPattern : Pattern :=
  seqAll
    [altAll [look .textStart, noneOf identifierChars],
      altAll [seqAll (text "let"), seqAll (text "const"), seqAll (text "var")], gap,
      altAll
        [seqAll (text "[" ++ [group 1 (plus true (noneOf [.single ']']))] ++ text "]"),
          seqAll (text "\x7b" ++ [group 2 (plus true (noneOf [.single '\x7d']))] ++ text "\x7d"),
          group 3 (plus true (oneOf identifierChars))]]

theorem localPattern_spelled :
    (Pattern.ofSource
      (r"(?:^|[^a-zA-Z0-9_])(?:let|const|var)\s+".toList ++
        r"(?:\[([^\]]+)\]|\x7b([^\x7d]+)\x7d|([a-zA-Z0-9_]+))".toList)).toOption =
      some (localPattern, []) := by decide +kernel

def catchPattern : Pattern :=
  seqAll (text "catch (" ++ [group 1 (plus true (noneOf [.single ')']))] ++ text ")")

theorem catchPattern_spelled :
    (Pattern.ofSource r"catch \(([^)]+)\)".toList).toOption = some (catchPattern, []) := by
  decide +kernel

/-- A letter or underscore, then letters, digits and underscores, all ASCII. -/
def isIdentifier : List Char → Bool
  | [] => false
  | c :: rest => (Text.isAsciiLetter c || c == '_') && rest.all Text.isAsciiWord

/-- Adds a name, trimmed, if it is an identifier and new. -/
def addBinding (bindings : List String) (name : List Char) : List String :=
  let name := Text.trim name
  if isIdentifier name && !bindings.contains (String.ofList name) then
    bindings ++ [String.ofList name]
  else bindings

/-- The names that a declaration of locals introduces. -/
def declaredNames (m : Match) : List (List Char) :=
  match m.group? 1, m.group? 2, m.group? 3 with
  | some names, _, _ => Text.splitOn ',' names
  | none, some names, _ => Text.splitOn ',' names
  | none, none, some name => [name]
  | none, none, none => []

/-- Parameters, then locals in order of appearance, then names bound by `catch`. -/
def boundNames (parameters : List String) (body : List Char) : List String :=
  let locals := (localPattern.findAll body).flatMap declaredNames
  let caught := (catchPattern.findAll body).map (·.group 1)
  (parameters.map String.toList ++ locals ++ caught).foldl addBinding []

def parseParameter (s : List Char) : Parameter :=
  match Text.splitOnce? '=' s with
  | some (name, default) =>
    ⟨String.ofList (Text.trim name), some (String.ofList (Text.trim default))⟩
  | none => ⟨String.ofList (Text.trim s), none⟩

/-- The parameters between the parentheses of a signature. -/
def parseParameters (s : List Char) : List Parameter :=
  let s := Text.trim s
  if s.isEmpty then [] else (Text.splitOn ',' s).map parseParameter

/-- What is wrong with a text that is no class. -/
inductive Flaw where
  | noHeader
  /-- A block that does not start with a signature, with its first line. -/
  | noSignature (line : String)
  deriving DecidableEq, Repr

def Flaw.failure (file : String) : Flaw → Failure
  | noHeader =>
    .format file "no `module.exports = class <Name> extends <Base> \x7b` header found" none
  | noSignature line =>
    .format file
      ("method block does not start with `[async ]name (args) \x7b`; " ++
        "methods must not contain empty lines")
      (some line)

/-- The lines between the first and the last. -/
def innerLines (lines : List (List Char)) : List Char :=
  Text.join ['\n'] (lines.drop 1).dropLast

/-- Reads one method from a block without blanks around it. -/
def parseMethod (block : List Char) : Except Flaw Method :=
  let lines := Text.lines block
  let signature := Text.trim (lines.head?.getD [])
  match signaturePattern.find? signature with
  | none => .error (.noSignature (String.ofList signature))
  | some m =>
    let parameters := parseParameters (m.group 3)
    let body := innerLines lines
    .ok
      { name := String.ofList (m.group 2)
        isAsync := (m.group? 1).isSome
        parameters := parameters
        body := String.ofList body
        bindings := boundNames (parameters.map Parameter.name) body }

/-- The blocks of a class body, which blank lines separate. -/
def blocks (body : List Char) : List (List Char) :=
  (separatorPattern.split (Text.trim body)).map Text.trim

/-- The class in a source text. -/
def parse (contents : List Char) : Except Flaw ClassDecl :=
  match headerPattern.find? contents with
  | none => .error .noHeader
  | some m => do
    let methods ← (blocks (m.group 3)).mapM parseMethod
    return ⟨String.ofList (m.group 1), String.ofList (m.group 2), methods⟩

/-- Reads a class; the file only names the source in failures. -/
def ofSource (file contents : String) : Except Failure ClassDecl :=
  match parse contents.toList with
  | .ok c => .ok c
  | .error flaw => .error (flaw.failure file)

/-- The methods read before the first block that is none. -/
def methodsRead (contents : List Char) : List Method :=
  match headerPattern.find? contents with
  | none => []
  | some m => ((blocks (m.group 3)).map parseMethod).takeWhile (·.isOk) |>.filterMap (·.toOption)

/-- What is logged while a class is read. -/
def sourceLog (file contents : String) : Log :=
  let methodEntry (m : Method) : Log.Entry :=
    ⟨.trace, file ++ ": method " ++ m.name ++ " (" ++ toString m.bindings.length ++ " bindings)"⟩
  let done : Log := match ofSource file contents with
    | .ok c =>
      [⟨.debug, "Decomposed " ++ file ++ " into " ++ c.name ++ " extends " ++ c.baseClass ++
        " with " ++ toString c.methods.length ++ " methods"⟩]
    | .error _ => []
  (methodsRead contents.toList).map methodEntry ++ done

end ClassDecl

end Polyglot
