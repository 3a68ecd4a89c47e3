import Polyglot.Pattern.CodePoints
import Polyglot.Pattern.Basic

/-!
Patterns as they are read, before loops and counts are spelled out. Adjacent characters stand
together as a text, a set of one character is that character, alternatives of single characters are
a set, and what all alternatives begin with stands before them. Which match is preferred depends on
these forms, and so does the size of a pattern.
-/

namespace Polyglot

inductive Form where
  | empty
  | text (s : List Char)
  | set (s : CharSet)
  | look (test : Look)
  /-- The first form is no sequence. -/
  | seq (first rest : Form)
  /-- The first form is no alternative. -/
  | alt (preferred others : Form)
  | rep (min : Nat) (max : Option Nat) (greedy : Bool) (body : Form)
  | group (index : Nat) (body : Form)
  deriving DecidableEq, Repr

namespace Form

/-- The forms of a sequence. -/
def parts : Form → List Form
  | empty => []
  | seq first rest => first :: rest.parts
  | f => [f]

def ofParts : List Form → Form
  | [] => empty
  | [f] => f
  | f :: fs => seq f (ofParts fs)

/-- Puts a form before others; texts grow together. -/
def glue : Form → List Form → List Form
  | text s, text t :: fs => text (s ++ t) :: fs
  | f, fs => f :: fs

/-- Forms one after another. -/
def join (fs : List Form) : Form :=
  ofParts ((fs.flatMap parts).foldr glue [])

def ofSet (s : CharSet) : Form :=
  match s.only? with
  | some c => text [c]
  | none => set s

/-- The forms of an alternative. -/
def branches : Form → List Form
  | alt preferred others => preferred :: others.branches
  | f => [f]

def ofBranches : List Form → Form
  | [] => set .none
  | [f] => f
  | f :: fs => alt f (ofBranches fs)

/-- Whether two forms are equal up to the spelling of their sets. -/
def same : Form → Form → Bool
  | empty, empty => true
  | text s, text t => s == t
  | set s, set t => s.same t
  | look k, look l => k == l
  | seq a b, seq c d => a.same c && b.same d
  | alt a b, alt c d => a.same c && b.same d
  | rep m n g a, rep m' n' g' b => m == m' && n == n' && g == g' && a.same b
  | group i a, group j b => i == j && a.same b
  | _, _ => false

/-- How many forms two sequences have in common from the start on. -/
def common : List Form → List Form → Nat
  | f :: fs, g :: gs => if f.same g then common fs gs + 1 else 0
  | _, _ => 0

/-- How many forms all alternatives have in common from the start on, if all are sequences. -/
def lead : List Form → Nat
  | [] => 0
  | f :: fs =>
    if (f :: fs).all isSeq then fs.foldl (fun n g => min n (common f.parts g.parts)) f.parts.length
    else 0
where
  isSeq : Form → Bool
    | seq _ _ => true
    | _ => false

def char? : Form → Option Char
  | text [c] => some c
  | _ => none

def set? : Form → Option CharSet
  | set s => some s
  | _ => none

/-- The forms as alternatives, the preferred first. The fuel bounds how often a common beginning is
taken out. -/
def choose : (fuel : Nat) → List Form → Form
  | fuel, fs =>
    let fs := fs.flatMap branches
    match fs with
    | [f] => f
    | _ =>
      match fs.mapM char?, fs.mapM set? with
      | some cs, _ => ofSet (.ofItems (cs.map .single))
      | none, some sets => ofSet (.ofItems sets)
      | none, none =>
        match fuel, lead fs with
        | fuel + 1, n + 1 =>
          let shared := (fs.head?.elim [] parts).take (n + 1)
          join (shared ++ [choose fuel (fs.map fun f => ofParts (f.parts.drop (n + 1)))])
        | _, _ => ofBranches fs

/-- Whether all matches are empty. -/
def isVoid : Form → Bool
  | empty => true
  | text s => s.isEmpty
  | set _ => false
  | look _ => true
  | seq a b => a.isVoid && b.isVoid
  | alt a b => a.isVoid && b.isVoid
  | rep _ max _ body => max.isSome && body.isVoid
  | group _ body => body.isVoid

/-- A repetition. Empty matches need not be repeated. -/
def times (min : Nat) (max : Option Nat) (greedy : Bool) (f : Form) : Form :=
  let (min, max) :=
    if f.isVoid then (Nat.min min 1, some (max.elim 1 (Nat.min · 1))) else (min, max)
  match min, max with
  | 0, some 0 => empty
  | 1, some 1 => f
  | _, _ => rep min max greedy f

/-- The least number of characters in a match; none if some set has no characters. -/
def minLength? : Form → Option Nat
  | empty => some 0
  | text s => some s.length
  | set s => if s.isEmpty then none else some 1
  | look _ => some 0
  | seq a b => do return (← a.minLength?) + (← b.minLength?)
  | alt a b => do return Nat.min (← a.minLength?) (← b.minLength?)
  | rep min _ _ body => body.minLength?.map (min * ·)
  | group _ body => body.minLength?

/-- Whether every iteration of a loop is known to consume a character. -/
def consumes (f : Form) : Bool :=
  f.minLength?.any (0 < ·)

/-- A pattern `n` times, where `n` may be zero. -/
def repeated (n : Nat) (p : Pattern) : List Pattern :=
  if n = 0 then [] else [.copies n n p]

/-- The patterns of a form, one after another. -/
def patterns : Form → List Pattern
  | empty => []
  | text s => Pattern.chars s
  | set s => [.char s]
  | look test => [.look test]
  | seq a b => a.patterns ++ b.patterns
  | alt a b => [.alt (.seqAll a.patterns) (.seqAll b.patterns)]
  | rep min max greedy body =>
    let p := Pattern.seqAll body.patterns
    match min, max with
    | 0, none => if body.consumes then [.star greedy p] else [.opt greedy (.plus greedy p)]
    | n + 1, none => repeated n p ++ [.plus greedy p]
    | n, some m => repeated n p ++ if m ≤ n then [] else [.upTo greedy p (m - n)]
  | group index body => [.group index (.seqAll body.patterns)]

def toPattern (f : Form) : Pattern :=
  .seqAll f.patterns

end Form

end Polyglot
