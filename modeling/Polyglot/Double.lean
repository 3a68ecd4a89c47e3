/-!
Decimal numbers and the range of doubles. A reader may round a number once, exactly, or keep only as
many digits as fit a machine word and scale what it has kept; near the end of the range the two
differ.
-/

namespace Polyglot

def decimal (digits : List Char) : Nat :=
  digits.foldl (fun n c => 10 * n + (c.toNat - '0'.toNat)) 0

namespace Double

/-- The smallest number that no double is nearest to. -/
def bound : Nat :=
  Nat.pow 2 1024 - Nat.pow 2 970

/-- Whether the number with the given digits, scaled by a power of ten, fits a double. -/
def fits (digits : List Char) (scale : Int) : Bool :=
  let digits := digits.dropWhile (· == '0')
  let size : Int := digits.length + scale
  if digits.isEmpty || size < 309 then true
  else if 309 < size then false
  else if 0 ≤ scale then decimal digits * Nat.pow 10 scale.toNat < bound
  else decimal digits < bound * Nat.pow 10 (-scale).toNat

/-- The nearest number of 53 significant bits, of two the even one. -/
def round (n : Nat) : Nat :=
  let unit := Nat.pow 2 (n.log2 + 1 - 53)
  let quotient := n / unit
  let rest := 2 * (n % unit)
  if unit < rest || (rest = unit && quotient % 2 = 1) then (quotient + 1) * unit
  else quotient * unit

/-- A number as a reader keeps it: the digits that fit a word, and the power of ten that they are
scaled by. -/
structure Kept where
  significand : Nat
  scale : Int

namespace Kept

/-- The largest number that fits a word. -/
def maxWord : Nat := 18446744073709551615

/-- Appends a digit if the result fits. -/
def append? (significand : Nat) (c : Char) : Option Nat :=
  let next := decimal [c] + 10 * significand
  if next ≤ maxWord then some next else none

/-- The digits before the point. From the first that does not fit on they count as zeros. -/
def ofWhole : (significand : Nat) → List Char → Kept
  | significand, [] => ⟨significand, 0⟩
  | significand, c :: digits =>
    match append? significand c with
    | some next => ofWhole next digits
    | none => ⟨significand, digits.length + 1⟩

/-- The digits behind the point. From the first that does not fit on they are passed over. -/
def addFraction : Kept → List Char → Kept
  | kept, [] => kept
  | kept, c :: digits =>
    match append? kept.significand c with
    | some next => addFraction ⟨next, kept.scale - 1⟩ digits
    | none => kept

/-- The largest exponent that is read as a number. -/
def maxExponent : Nat := 2147483647

/-- Whether the number, scaled once more, stays in the range of doubles. The significand and the
power of ten are rounded, then their product. -/
def fits (kept : Kept) (negative : Bool) (exponent : Nat) : Bool :=
  if maxExponent < exponent then negative || kept.significand = 0
  else
    let scale := if negative then kept.scale - exponent else kept.scale + exponent
    if scale < 0 || kept.significand = 0 then true
    else if 308 < scale then false
    else round kept.significand * round (Nat.pow 10 scale.toNat) < bound

end Kept

end Double

end Polyglot
