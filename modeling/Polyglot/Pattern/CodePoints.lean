import Polyglot.Pattern.CharSet

/-!
The code points of a set of characters, as ranges that increase and do not touch. Two sets have the
same ranges if they have the same characters, however they are spelled.
-/

namespace Polyglot

namespace Text

/-- Two lists of ranges in one, by their first code points. -/
def Ranges.merge : Ranges → Ranges → Ranges
  | [], other => other
  | r :: ranges, other => insertInto r (merge ranges) other
where
  /-- Puts a range before the first one that starts later, and goes on with the others. -/
  insertInto (r : Nat × Nat) (further : Ranges → Ranges) : Ranges → Ranges
    | [] => r :: further []
    | s :: other =>
      if r.1 ≤ s.1 then r :: further (s :: other) else s :: insertInto r further other

/-- Joins ranges that overlap or touch. -/
def Ranges.coalesce : Ranges → Ranges
  | [] => []
  | r :: ranges => go r ranges
where
  go : Nat × Nat → Ranges → Ranges
    | r, [] => [r]
    | r, s :: ranges =>
      if s.1 ≤ r.2 + 1 then go (r.1, max r.2 s.2) ranges else r :: go s ranges

def Ranges.union (a b : Ranges) : Ranges :=
  (a.merge b).coalesce

/-- The gaps between ranges, from the code point `lo` on. -/
def Ranges.gapsFrom : Nat → Ranges → Ranges
  | lo, [] => if lo ≤ 0x10FFFF then [(lo, 0x10FFFF)] else []
  | lo, (first, last) :: ranges =>
    if lo < first then (lo, first - 1) :: gapsFrom (last + 1) ranges
    else gapsFrom (last + 1) ranges

def Ranges.compl (a : Ranges) : Ranges :=
  a.gapsFrom 0

end Text

namespace CharSet

/-- The surrogates are code points and no characters. -/
def isSurrogates (r : Nat × Nat) : Bool :=
  0xD800 ≤ r.1 && r.2 ≤ 0xDFFF

def ranges : CharSet → Text.Ranges
  | none => []
  | range lo hi => if lo ≤ hi then [(lo.toNat, hi.toNat)] else []
  | blank => Text.blankRanges
  | digit => Text.digitRanges
  | word => Text.wordRanges
  | union a b => a.ranges.union b.ranges
  | inter a b => (a.ranges.compl.union b.ranges.compl).compl
  | compl a => a.ranges.compl.filter (!isSurrogates ·)

def isEmpty (s : CharSet) : Bool :=
  s.ranges.isEmpty

/-- The character of a set that has just one. -/
def only? (s : CharSet) : Option Char :=
  match s.ranges with
  | [(lo, hi)] => if lo = hi then some (Char.ofNat lo) else Option.none
  | _ => Option.none

/-- Whether two sets have the same characters. -/
def same (a b : CharSet) : Bool :=
  a == b || a.ranges == b.ranges

end CharSet

end Polyglot
