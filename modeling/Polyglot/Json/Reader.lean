import Polyglot.Double
import Polyglot.Json.Basic
import Polyglot.Pattern.Token

/-!
Reading JSON texts. Arrays and objects nest at most 127 deep, surrogates stand in pairs only,
control characters in strings are escaped, numbers stay in the range of doubles, and nothing but
blanks follows the value.
-/

namespace Polyglot

namespace Json

def isSpace (c : Char) : Bool :=
  c == ' ' || c == '\t' || c == '\n' || c == '\r'

def skipSpace (s : List Char) : List Char :=
  s.dropWhile isSpace

/-- Four hexadecimal digits. -/
def readUnit? (s : List Char) : Option (Nat × List Char) :=
  if 4 ≤ s.length then (Pattern.hexNumber? (s.take 4)).map (·, s.drop 4) else none

/-- The character behind `\u`: one unit, or a pair of surrogates. -/
def readUnicode? (s : List Char) : Option (Char × List Char) := do
  let (high, rest) ← readUnit? s
  if 0xD800 ≤ high && high ≤ 0xDBFF then
    match rest with
    | '\\' :: 'u' :: rest =>
      let (low, rest) ← readUnit? rest
      if 0xDC00 ≤ low && low ≤ 0xDFFF then
        return (Char.ofNat (0x10000 + (high - 0xD800) * 0x400 + (low - 0xDC00)), rest)
      else none
    | _ => none
  else
    let c ← Pattern.scalar? high
    return (c, rest)

/-- The rest of a string behind its opening quote; the fuel bounds its characters. -/
def readString? : (fuel : Nat) → List Char → Option (List Char × List Char)
  | 0, _ => none
  | fuel + 1, s =>
    let andThen (c : Char) (rest : List Char) : Option (List Char × List Char) :=
      (readString? fuel rest).map fun p => (c :: p.1, p.2)
    match s with
    | [] => none
    | '"' :: rest => some ([], rest)
    | '\\' :: 'u' :: rest =>
      match readUnicode? rest with
      | some (c, rest) => andThen c rest
      | none => none
    | '\\' :: c :: rest =>
      match c with
      | '"' => andThen '"' rest
      | '\\' => andThen '\\' rest
      | '/' => andThen '/' rest
      | 'b' => andThen '\x08' rest
      | 'f' => andThen '\x0c' rest
      | 'n' => andThen '\n' rest
      | 'r' => andThen '\r' rest
      | 't' => andThen '\t' rest
      | _ => none
    | c :: rest => if c.toNat < 0x20 || c = '\\' then none else andThen c rest

def digits (s : List Char) : List Char :=
  s.takeWhile Text.isAsciiDigit

/-- A number: sign, whole part without needless zeros, fraction, exponent. -/
def readNumber? (s : List Char) : Option (Json × List Char) := do
  let body := if s.head? = some '-' then s.tail else s
  let whole := digits body
  let rest := body.drop whole.length
  if whole.isEmpty || (whole.head? = some '0' && 1 < whole.length) then none
  let (fraction, rest) ← match rest with
    | '.' :: rest =>
      let fraction := digits rest
      if fraction.isEmpty then none else some (fraction, rest.drop fraction.length)
    | _ => some ([], rest)
  let isExponent := rest.head? = some 'e' || rest.head? = some 'E'
  let (negative, exponent, rest) ←
    if isExponent then
      let signed := rest.tail
      let negative := signed.head? == some '-'
      let unsigned := if negative || signed.head? = some '+' then signed.tail else signed
      let exponent := digits unsigned
      if exponent.isEmpty then none
      else some (negative, decimal exponent, unsigned.drop exponent.length)
    else some (false, 0, rest)
  if ((Double.Kept.ofWhole 0 whole).addFraction fraction).fits negative exponent then
    return (.number (String.ofList (s.take (s.length - rest.length))), rest)
  else none

/-- How deep arrays and objects may nest. -/
def maxDepth : Nat := 127

mutual

/-- A value behind any blanks. The fuel bounds the number of steps, `depth` what may still nest. -/
def readValue? : (fuel depth : Nat) → List Char → Option (Json × List Char)
  | 0, _, _ => none
  | fuel + 1, depth, s =>
    match skipSpace s with
    | [] => none
    | '"' :: rest =>
      (readString? (rest.length + 1) rest).map fun p => (.string (String.ofList p.1), p.2)
    | 'n' :: 'u' :: 'l' :: 'l' :: rest => some (.null, rest)
    | 't' :: 'r' :: 'u' :: 'e' :: rest => some (.bool true, rest)
    | 'f' :: 'a' :: 'l' :: 's' :: 'e' :: rest => some (.bool false, rest)
    | '[' :: rest =>
      match depth, skipSpace rest with
      | 0, _ => none
      | _ + 1, ']' :: rest => some (.array [], rest)
      | depth + 1, _ => (readItems? fuel depth rest).map fun p => (.array p.1, p.2)
    | '{' :: rest =>
      match depth, skipSpace rest with
      | 0, _ => none
      | _ + 1, '}' :: rest => some (.object [], rest)
      | depth + 1, _ => (readMembers? fuel depth [] rest).map fun p => (.object p.1, p.2)
    | s => readNumber? s

/-- The items of an array up to its closing bracket. -/
def readItems? : (fuel depth : Nat) → List Char → Option (List Json × List Char)
  | 0, _, _ => none
  | fuel + 1, depth, s => do
    let (item, rest) ← readValue? fuel depth s
    match skipSpace rest with
    | ']' :: rest => return ([item], rest)
    | ',' :: rest =>
      let (items, rest) ← readItems? fuel depth rest
      return (item :: items, rest)
    | _ => none

/-- The members of an object up to its closing brace, with those read before. -/
def readMembers? : (fuel depth : Nat) → List (String × Json) → List Char →
    Option (List (String × Json) × List Char)
  | 0, _, _, _ => none
  | fuel + 1, depth, members, s =>
    match skipSpace s with
    | '"' :: rest => do
      let (key, rest) ← readString? (rest.length + 1) rest
      match skipSpace rest with
      | ':' :: rest =>
        let (value, rest) ← readValue? fuel depth rest
        let members := insertMember (String.ofList key) value members
        match skipSpace rest with
        | '}' :: rest => return (members, rest)
        | ',' :: rest => readMembers? fuel depth members rest
        | _ => none
      | _ => none
    | _ => none

end

/-- The value that a whole text holds. -/
def parse? (s : String) : Option Json := do
  let s := s.toList
  let (value, rest) ← readValue? (2 * s.length + 2) maxDepth s
  if (skipSpace rest).isEmpty then some value else none

end Json

end Polyglot
