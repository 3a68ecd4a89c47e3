import Polyglot.Pattern.Basic
import Polyglot.Pattern.Property

/-!
Settings that a pattern switches on and off on its way. They say what characters, classes and tests
mean, and one of them makes blanks and comments between the signs of a pattern stand for nothing.

Texts are sequences of characters, so nothing may match a part of one. Without Unicode a class has
ASCII characters only; one that has all but some of them would have bytes of others, and is refused.
-/

namespace Polyglot

namespace Pattern

/-- Why a text is no pattern. -/
inductive Flaw where
  | unclosedGroup
  | unopenedGroup
  | unclosedClass
  | nothingToRepeat
  | unclosedCount
  | badCount
  | badRange
  | badEscape
  | badClassItem
  | badGroupName
  | duplicateName
  | badFlags
  | lookAround
  | unknownProperty
  | notUnicode
  | notUtf8
  | tooDeep
  | tooLarge
  deriving DecidableEq, Repr

def Flaw.message : Flaw → String
  | unclosedGroup => "unclosed group"
  | unopenedGroup => "unopened group"
  | unclosedClass => "unclosed character class"
  | nothingToRepeat => "repetition operator missing expression"
  | unclosedCount => "unclosed counted repetition"
  | badCount => "invalid repetition count range"
  | badRange => "invalid character class range"
  | badEscape => "unrecognized escape sequence"
  | badClassItem => "invalid escape sequence found in character class"
  | badGroupName => "invalid capture group name"
  | duplicateName => "duplicate capture group name"
  | badFlags => "unrecognized flag"
  | lookAround => "look-around is not supported"
  | unknownProperty => "Unicode property not found"
  | notUnicode => "Unicode not allowed here"
  | notUtf8 => "pattern can match invalid UTF-8"
  | tooDeep => "nested too deeply"
  | tooLarge => "compiled form exceeds the size limit"

/-- What a single character or an escape stands for. -/
inductive Atom where
  | literal (c : Char)
  | set (s : CharSet)
  | test (l : Look)
  deriving DecidableEq, Repr

structure Flags where
  caseless : Bool := false
  multiLine : Bool := false
  dotAll : Bool := false
  swapGreed : Bool := false
  unicode : Bool := true
  /-- Carriage returns end lines too. -/
  returns : Bool := false
  /-- Blanks and comments stand for nothing. -/
  verbose : Bool := false
  deriving DecidableEq, Repr

inductive Flag where
  | caseless
  | multiLine
  | dotAll
  | swapGreed
  | unicode
  | returns
  | verbose
  deriving DecidableEq, Repr

/-- The changes in the order in which they are written. -/
abbrev FlagChange := List (Flag × Bool)

/-- Passes over blanks and comments. A comment goes from a number sign to the end of its line. -/
def skipBlanks : (comment : Bool) → List Char → List Char
  | _, [] => []
  | true, c :: s => skipBlanks (c != '\n') s
  | false, c :: s =>
    if Text.isBlank c then skipBlanks false s else if c = '#' then skipBlanks true s else c :: s

namespace Flags

def set (f : Flags) (flag : Flag) (on : Bool) : Flags :=
  match flag with
  | .caseless => { f with caseless := on }
  | .multiLine => { f with multiLine := on }
  | .dotAll => { f with dotAll := on }
  | .swapGreed => { f with swapGreed := on }
  | .unicode => { f with unicode := on }
  | .returns => { f with returns := on }
  | .verbose => { f with verbose := on }

def change (f : Flags) (changes : FlagChange) : Flags :=
  changes.foldl (fun f c => f.set c.1 c.2) f

/-- What is left of a text when nothing that stands for nothing comes first. -/
def skip (f : Flags) (s : List Char) : List Char :=
  if f.verbose then skipBlanks false s else s

/-- The next character but for blanks and one number sign. -/
def peek (f : Flags) (s : List Char) : Option Char :=
  if f.verbose then
    match s.dropWhile Text.isBlank with
    | '#' :: rest => (rest.dropWhile Text.isBlank).head?
    | rest => rest.head?
  else s.head?

/-- A set, with the other case of its characters if case does not matter. -/
def fold (f : Flags) (set : CharSet) : CharSet :=
  if f.caseless then set.closedUnder (if f.unicode then Text.caseForms else CharSet.asciiForms)
  else set

/-- A class, or all characters but those of a class. -/
def classOf (f : Flags) (negated : Bool) (set : CharSet) : Except Flaw CharSet :=
  if !negated then .ok (f.fold set)
  else if f.unicode then .ok (.compl (f.fold set))
  else .error .notUtf8

/-- A class that an escape names, or all characters but those of that class. Case makes no
difference to it. -/
def escaped (f : Flags) (negated : Bool) (set ascii : CharSet) : Except Flaw Atom :=
  if f.unicode then .ok (.set (if negated then .compl set else set))
  else if negated then .error .notUtf8
  else .ok (.set ascii)

/-- A character of a class in brackets. -/
def classChar (f : Flags) (c : Char) : Except Flaw Char :=
  if f.unicode || c.toNat < 128 then .ok c else .error .notUnicode

def atom (f : Flags) : Atom → Atom
  | .literal c => if f.caseless then .set (f.fold (.single c)) else .literal c
  | a => a

def dot (f : Flags) : Except Flaw Atom :=
  if !f.unicode then .error .notUtf8
  else if f.dotAll then .ok (.set (.compl .none))
  else if f.returns then .ok (.set (.compl (.union (.single '\n') (.single '\r'))))
  else .ok (.set (.compl (.single '\n')))

def caret (f : Flags) : Look :=
  if f.multiLine then if f.returns then .returnStart else .lineStart else .textStart

def dollar (f : Flags) : Look :=
  if f.multiLine then if f.returns then .returnEnd else .lineEnd else .textEnd

def wordTest (f : Flags) (test : WordTest) : Atom :=
  .test (.word test !f.unicode)

end Flags

end Pattern

end Polyglot
