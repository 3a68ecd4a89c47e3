import Polyglot.Class.Basic
import Polyglot.RuleBook
import Polyglot.Target
import Polyglot.Text.Substring

/-!
Python texts: bodies of both generations, and signatures.
-/

namespace Polyglot

namespace Render

open Pattern

/-- Replaces literals in a default value, one after another. -/
def respell (table : List (String × String)) (s : String) : String :=
  String.ofList (table.foldl (fun s row => Text.replace row.1.toList row.2.toList s) s.toList)

/-- A parameter behind a sigil, with its default respelled. -/
def argument (sigil equals : String) (table : List (String × String)) (p : Parameter) : String :=
  match p.default with
  | some default => sigil ++ p.name ++ equals ++ respell table default
  | none => sigil ++ p.name

namespace Python

/-- From the end of one line over blanks to the end of a line. -/
def emptyLinesPattern : Pattern :=
  seqAll [look .lineEnd, blanks, look .lineEnd]

theorem emptyLinesPattern_spelled :
    (Pattern.ofSource r"(?m)$\s*$".toList).toOption = some (emptyLinesPattern, []) := by
  decide +kernel

/-- Characters beyond ASCII that quoted texts are known to hold. -/
def foreignChars : List Char :=
  "абвгдеёжзийклмнопрстуфхцчшщъыьэюя服务端忙碌".toList

def foreignPattern : Pattern :=
  seqAll (text "'" ++ [group 1 (plus true (oneOf (foreignChars.map .single)))] ++ text "'")

/-- A call that is given a dictionary whose order counts. -/
def orderedPattern : Pattern :=
  seqAll
    (text ".ordered" ++ [blanks] ++ text "(\x7b" ++
      [group 1 (plus true (noneOf [.single '\x7d']))] ++ text "\x7d)")

theorem orderedPattern_spelled :
    (Pattern.ofSource r"\.ordered\s*\(\x7b([^\x7d]+)\x7d\)".toList).toOption =
      some (orderedPattern, []) := by decide +kernel

/-- An entry of such a dictionary on a line of its own. -/
def entryPattern : Pattern :=
  seqAll
    ([look .lineStart, group 1 (plus true (char .blank)),
      group 2 (plus true (noneOf [.single ':']))] ++ text ":" ++
      [blanks, group 3 (plus true (noneOf [.single ',']))] ++ text "," ++ [look .lineEnd])

theorem entryPattern_spelled :
    (Pattern.ofSource r"(?m)^(\s+)([^:]+):\s*([^,]+),$".toList).toOption =
    some (entryPattern, []) := by
  decide +kernel

def superPattern : Pattern :=
  seqAll (text "super.")

def dropEmptyLines (s : List Char) : List Char :=
  emptyLinesPattern.replaceAll (fun _ => []) s

def markForeign (s : List Char) : List Char :=
  foreignPattern.replaceAll (fun m => "u'".toList ++ m.group 1 ++ "'".toList) s

def pairEntry (m : Match) : List Char :=
  m.group 1 ++ "(".toList ++ m.group 2 ++ ", ".toList ++ m.group 3 ++ "),".toList

def pairOrdered (s : List Char) : List Char :=
  orderedPattern.replaceAll
    (fun m => ".ordered([".toList ++ entryPattern.replaceAll pairEntry (m.group 1) ++ "])".toList) s

def nameSuper (className : String) (s : List Char) : List Char :=
  superPattern.replaceAll (fun _ => ("super(" ++ className ++ ", self).").toList) s

/-- The text of the later generation. Naming the class makes calls of the base class explicit. -/
def python3Text (book : RuleBook) (source : String) (className : Option String)
    (removeEmptyLines : Bool) : String :=
  let s := book.python3.applyChars source.toList
  let s := if removeEmptyLines then dropEmptyLines s else s
  let s := pairOrdered (markForeign s)
  String.ofList (match className with
    | some name => nameSuper name s
    | none => s)

/-- The text of the earlier generation, from that of the later. -/
def python2Text (book : RuleBook) (python3 : String) : String :=
  book.python2.apply python3

/-- These texts are made for the two generations only. -/
def checkTarget (target : Target) : Except Failure Unit :=
  if target.isPython then .ok ()
  else .error (.render "python renderer needs a python target" (some target.id) none)

def body (book : RuleBook) (target : Target) (className : String) (m : Method) : String :=
  let python3 := python3Text book m.body (some className) true
  if target = .python2 then python2Text book python3 else python3

def literals : List (String × String) :=
  [("undefined", "None"), ("false", "False"), ("true", "True")]

def signature (target : Target) (m : Method) : String :=
  let keyword := if m.isAsync && target.isAsync then "async " else ""
  let arguments := ", ".intercalate ("self" :: m.parameters.map (argument "" "=" literals))
  keyword ++ "def " ++ Name.underscored m.name ++ "(" ++ arguments ++ "):"

end Python

end Render

end Polyglot
