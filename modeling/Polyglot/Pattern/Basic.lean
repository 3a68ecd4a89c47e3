import Polyglot.Pattern.CharSet

/-!
Text patterns. Options and counted repetition are spelled with alternatives, sequences and loops.

There are two loops, and they differ in where the choice between another iteration and the way out
is made: `star` makes it before each iteration, `plus` after. A `star` whose body may match the
empty text is an option of a `plus`.
-/

namespace Polyglot

/-- Where a place stands to a word. -/
inductive WordTest where
  | edge
  | inside
  | start
  | finish
  /-- No word character precedes. -/
  | startHalf
  /-- No word character follows. -/
  | finishHalf
  deriving DecidableEq, Repr

/-- Tests on the place between two characters. -/
inductive Look where
  | textStart
  | textEnd
  | lineStart
  | lineEnd
  /-- Lines end with a carriage return too; one before a line feed is part of the same end. -/
  | returnStart
  | returnEnd
  /-- The words may be those of ASCII. -/
  | word (test : WordTest) (ascii : Bool)
  deriving DecidableEq, Repr

inductive Pattern where
  | empty
  | char (set : CharSet)
  | look (test : Look)
  | seq (first second : Pattern)
  /-- The first alternative is preferred. -/
  | alt (preferred other : Pattern)
  /-- Any number of times; as often as possible if greedy, as rarely as possible if not. -/
  | star (greedy : Bool) (body : Pattern)
  /-- One or more times. -/
  | plus (greedy : Bool) (body : Pattern)
  /-- Remembers the text that the body matches under a number. -/
  | group (index : Nat) (body : Pattern)
  deriving DecidableEq, Repr

namespace Pattern

def opt (greedy : Bool) (p : Pattern) : Pattern :=
  if greedy then alt p empty else alt empty p

def seqAll : List Pattern → Pattern
  | [] => empty
  | [p] => p
  | p :: ps => seq p (seqAll ps)

/-- The alternatives in order of preference. -/
def altAll : List Pattern → Pattern
  | [] => empty
  | [p] => p
  | p :: ps => alt p (altAll ps)

/-- The same pattern `n` times in sequence. The halves keep the nesting low; the fuel bounds it. -/
def copies : (fuel n : Nat) → Pattern → Pattern
  | 0, _, p => p
  | fuel + 1, n, p =>
    if n = 0 then empty
    else if n = 1 then p
    else seq (copies fuel (n / 2) p) (copies fuel (n - n / 2) p)

/-- Up to `n` further times, each only after the one before it. -/
def upTo (greedy : Bool) (p : Pattern) : Nat → Pattern
  | 0 => empty
  | 1 => opt greedy p
  | n + 1 => opt greedy (seq p (upTo greedy p n))

/-- One character of a list of sets. -/
def oneOf (items : List CharSet) : Pattern :=
  char (.ofItems items)

/-- One character that is in none of the sets. -/
def noneOf (items : List CharSet) : Pattern :=
  char (.compl (.ofItems items))

/-- The characters of a text, one after another. -/
def chars (s : List Char) : List Pattern :=
  s.map fun c => char (.single c)

def text (s : String) : List Pattern :=
  chars s.toList

/-- Any number of blank characters, as many as possible. -/
def blanks : Pattern :=
  star true (char .blank)

end Pattern

end Polyglot
