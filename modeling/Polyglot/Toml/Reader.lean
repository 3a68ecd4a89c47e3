import Polyglot.Double
import Polyglot.Pattern.Token
import Polyglot.Text.Lines
import Polyglot.Toml.Basic

/-!
Reading TOML texts of version 1.0. Every reader takes the text from its place on and gives what it
read together with the rest, or nothing if the text is malformed.
-/

namespace Polyglot

namespace Toml

open Text (isAsciiDigit)

def isSpace (c : Char) : Bool :=
  c == ' ' || c == '\t'

def skipSpace (s : List Char) : List Char :=
  s.dropWhile isSpace

/-- Printable characters, the tab, and all beyond ASCII; what comments and strings on one line may
hold. -/
def isPlain (c : Char) : Bool :=
  c == '\t' || (decide (0x20 ≤ c.toNat) && c.toNat != 0x7F)

/-- A comment up to the end of its line; the text itself if there is none. -/
def skipComment (s : List Char) : List Char :=
  match s with
  | '#' :: rest => rest.dropWhile isPlain
  | _ => s

/-- A line end. -/
def readNewline? : List Char → Option (List Char)
  | '\n' :: rest => some rest
  | '\r' :: '\n' :: rest => some rest
  | _ => none

/-- Blanks, a comment if there is one, and the end of the line or of the text. -/
def endLine? (s : List Char) : Option (List Char) :=
  match skipComment (skipSpace s) with
  | [] => some []
  | rest => readNewline? rest

/-- Blanks, comments and line ends between the items of an array. -/
def skipBetween : (fuel : Nat) → List Char → List Char
  | 0, s => s
  | fuel + 1, s =>
    let rest := skipComment (skipSpace s)
    match readNewline? rest with
    | some rest => skipBetween fuel rest
    | none => rest

/-- A character given by its code point in so many digits. -/
def readScalar? (width : Nat) (s : List Char) : Option (Char × List Char) := do
  if s.length < width then none
  let n ← Pattern.hexNumber? (s.take width)
  let c ← Pattern.scalar? n
  return (c, s.drop width)

/-- The character that an escape stands for, behind the backslash. -/
def readEscape? : List Char → Option (Char × List Char)
  | 'b' :: rest => some ('\x08', rest)
  | 't' :: rest => some ('\t', rest)
  | 'n' :: rest => some ('\n', rest)
  | 'f' :: rest => some ('\x0c', rest)
  | 'r' :: rest => some ('\r', rest)
  | '"' :: rest => some ('"', rest)
  | '\\' :: rest => some ('\\', rest)
  | 'u' :: rest => readScalar? 4 rest
  | 'U' :: rest => readScalar? 8 rest
  | _ => none

/-- A string in double quotes behind the first of them. -/
def readBasic? : (fuel : Nat) → List Char → Option (List Char × List Char)
  | 0, _ => none
  | fuel + 1, s =>
    match s with
    | '"' :: rest => some ([], rest)
    | '\\' :: rest => do
      let (c, rest) ← readEscape? rest
      let (text, rest) ← readBasic? fuel rest
      return (c :: text, rest)
    | c :: rest =>
      if isPlain c then (readBasic? fuel rest).map fun p => (c :: p.1, p.2) else none
    | [] => none

/-- A string in single quotes behind the first of them. -/
def readLiteral? (s : List Char) : Option (List Char × List Char) :=
  let text := s.takeWhile fun c => isPlain c && c != '\''
  match s.drop text.length with
  | '\'' :: rest => some (text, rest)
  | _ => none

/-- The quotes at the end of a string of several lines: three close it, and one or two before them
belong to it. -/
def readClosing? (quote : Char) (s : List Char) : Option (List Char × List Char) :=
  let quotes := s.takeWhile (· == quote)
  if 3 ≤ quotes.length then
    let own := min 2 (quotes.length - 3)
    some (List.replicate own quote, s.drop (own + 3))
  else none

/-- Blanks and line ends behind a backslash at the end of a line. -/
def skipFolded (s : List Char) : Option (List Char) := do
  let rest ← readNewline? (skipSpace s)
  return skipRest (rest.length + 1) rest
where
  skipRest : Nat → List Char → List Char
    | 0, s => s
    | fuel + 1, s =>
      match readNewline? (skipSpace s) with
      | some rest => skipRest fuel rest
      | none => skipSpace s

/-- A string of several lines in threefold double quotes, behind the first line end. -/
def readBasicLines? : (fuel : Nat) → List Char → Option (List Char × List Char)
  | 0, _ => none
  | fuel + 1, s =>
    match readClosing? '"' s with
    | some closing => some closing
    | none =>
      match s with
      | '\\' :: rest =>
        match readEscape? rest with
        | some (c, rest) => (readBasicLines? fuel rest).map fun p => (c :: p.1, p.2)
        | none => skipFolded rest >>= readBasicLines? fuel
      | '\r' :: '\n' :: rest => (readBasicLines? fuel rest).map fun p => ('\n' :: p.1, p.2)
      | c :: rest =>
        if isPlain c || c == '\n' then (readBasicLines? fuel rest).map fun p => (c :: p.1, p.2)
        else none
      | [] => none

/-- A string of several lines in threefold single quotes, behind the first line end. -/
def readLiteralLines? : (fuel : Nat) → List Char → Option (List Char × List Char)
  | 0, _ => none
  | fuel + 1, s =>
    match readClosing? '\'' s with
    | some closing => some closing
    | none =>
      match s with
      | '\r' :: '\n' :: rest => (readLiteralLines? fuel rest).map fun p => ('\n' :: p.1, p.2)
      | c :: rest =>
        if isPlain c || c == '\n' then (readLiteralLines? fuel rest).map fun p => (c :: p.1, p.2)
        else none
      | [] => none

/-- Drops the line end that may follow the opening quotes of a string of several lines. -/
def dropFirstNewline (s : List Char) : List Char :=
  (readNewline? s).getD s

/-- A string of any of the four kinds. -/
def readString? (s : List Char) : Option (List Char × List Char) :=
  match s with
  | '"' :: '"' :: '"' :: rest => readBasicLines? (s.length + 1) (dropFirstNewline rest)
  | '"' :: rest => readBasic? (s.length + 1) rest
  | '\'' :: '\'' :: '\'' :: rest => readLiteralLines? (s.length + 1) (dropFirstNewline rest)
  | '\'' :: rest => readLiteral? rest
  | _ => none

def isBareKey (c : Char) : Bool :=
  Text.isAsciiWord c || c == '-'

/-- One part of a key: bare, or in quotes on one line. -/
def readSimpleKey? (s : List Char) : Option (String × List Char) :=
  match s with
  | '"' :: rest => (readBasic? (s.length + 1) rest).map fun p => (String.ofList p.1, p.2)
  | '\'' :: rest => (readLiteral? rest).map fun p => (String.ofList p.1, p.2)
  | _ =>
    let name := s.takeWhile isBareKey
    if name.isEmpty then none else some (String.ofList name, s.drop name.length)

/-- The parts of a key with dots between them, blanks around them allowed: those before the last,
and the last. -/
def readDotted? : (fuel : Nat) → List Char → Option ((List String × String) × List Char)
  | 0, _ => none
  | fuel + 1, s => do
    let (name, rest) ← readSimpleKey? (skipSpace s)
    match skipSpace rest with
    | '.' :: rest =>
      let ((path, key), rest) ← readDotted? fuel rest
      return ((name :: path, key), rest)
    | rest => return (([], name), rest)

/-- How deep arrays and tables in braces may nest, and how many parts a key may have. -/
def maxDepth : Nat := 79

/-- A key that may be dotted. -/
def readKey? (s : List Char) : Option ((List String × String) × List Char) := do
  let ((path, key), rest) ← readDotted? (s.length + 1) s
  if path.length < maxDepth then some ((path, key), rest) else none

/-- Digits of a base, single underscores allowed between them. -/
def readDigits? (isDigit : Char → Bool) (s : List Char) : Option (List Char × List Char) :=
  let run := s.takeWhile fun c => isDigit c || c == '_'
  let pieces := Text.splitOn '_' run
  if pieces.any List.isEmpty then none else some (pieces.flatten, s.drop run.length)

/-- The largest integer. -/
def maxInteger : Nat := 9223372036854775807

def isHexDigit (c : Char) : Bool :=
  (Pattern.hexDigit? c).isSome

def numberIn (base : Nat) (digits : List Char) : Nat :=
  digits.foldl (fun n c => base * n + (Pattern.hexDigit? c).getD 0) 0

/-- An integer of another base behind its two first characters. -/
def readRadix? (base : Nat) (isDigit : Char → Bool) (s : List Char) :
    Option (Toml × List Char) := do
  let (digits, rest) ← readDigits? isDigit s
  let n := numberIn base digits
  if maxInteger < n then none else some (.integer n, rest)

/-- An integer or a float in decimal digits. -/
def readDecimal? (s : List Char) : Option (Toml × List Char) := do
  let negative := s.head? = some '-'
  let unsigned := if negative || s.head? = some '+' then s.tail else s
  match unsigned with
  | 'i' :: 'n' :: 'f' :: rest => some (.float, rest)
  | 'n' :: 'a' :: 'n' :: rest => some (.float, rest)
  | _ =>
    let (whole, rest) ← readDigits? isAsciiDigit unsigned
    if whole.head? = some '0' && 1 < whole.length then none
    let isFloat := rest.head? = some '.' || rest.head? = some 'e' || rest.head? = some 'E'
    if !isFloat then
      let n := numberIn 10 whole
      if maxInteger < n && !(negative && n = maxInteger + 1) then none
      else some (.integer (if negative then -(n : Int) else n), rest)
    else
      let (fraction, rest) ← match rest with
        | '.' :: rest => readDigits? isAsciiDigit rest
        | _ => some ([], rest)
      let (exponent, rest) ←
        if rest.head? = some 'e' || rest.head? = some 'E' then
          let signed := rest.tail
          let down := signed.head? = some '-'
          let unsigned := if down || signed.head? = some '+' then signed.tail else signed
          (readDigits? isAsciiDigit unsigned).map fun p =>
            let size : Int := numberIn 10 p.1
            (if down then -size else size, p.2)
        else some (0, rest)
      if negative || Double.fits (whole ++ fraction) (exponent - fraction.length) then
        some (.float, rest)
      else none

/-- A number of so many digits in a range. -/
def readField? (width lo hi : Nat) (s : List Char) : Option (Nat × List Char) :=
  let digits := s.take width
  let n := numberIn 10 digits
  if digits.length = width && digits.all isAsciiDigit && lo ≤ n && n ≤
    hi then some (n, s.drop width)
  else none

def expect? (c : Char) : List Char → Option (List Char)
  | d :: rest => if d = c then some rest else none
  | [] => none

def daysIn (year month : Nat) : Nat :=
  if month = 2 then
    if year % 4 = 0 && (year % 100 != 0 || year % 400 = 0) then 29 else 28
  else if [4, 6, 9, 11].contains month then 30
  else 31

def readDate? (s : List Char) : Option (List Char) := do
  let (year, s) ← readField? 4 0 9999 s
  let (month, s) ← readField? 2 1 12 (← expect? '-' s)
  let (_, s) ← readField? 2 1 (daysIn year month) (← expect? '-' s)
  return s

def readTime? (s : List Char) : Option (List Char) := do
  let (_, s) ← readField? 2 0 23 s
  let (_, s) ← readField? 2 0 59 (← expect? ':' s)
  let (_, s) ← readField? 2 0 60 (← expect? ':' s)
  match s with
  | '.' :: rest =>
    let fraction := rest.takeWhile isAsciiDigit
    if fraction.isEmpty then none else some (rest.drop fraction.length)
  | _ => some s

/-- An offset from universal time, if there is one. -/
def readOffset? (s : List Char) : Option (List Char) :=
  match s with
  | 'Z' :: rest => some rest
  | 'z' :: rest => some rest
  | c :: rest =>
    if c = '+' || c = '-' then do
      let (_, rest) ← readField? 2 0 23 rest
      let (_, rest) ← readField? 2 0 59 (← expect? ':' rest)
      return rest
    else some s
  | [] => some []

/-- Whether a date starts here: four digits and a hyphen. -/
def startsDate (s : List Char) : Bool :=
  (s.take 4).length = 4 && (s.take 4).all isAsciiDigit && (s.drop 4).head? = some '-'

/-- Whether a time starts here: two digits and a colon. -/
def startsTime (s : List Char) : Bool :=
  (s.take 2).length = 2 && (s.take 2).all isAsciiDigit && (s.drop 2).head? = some ':'

def readDatetime? (s : List Char) : Option (Toml × List Char) :=
  if startsTime s then (readTime? s).map (.datetime, ·)
  else do
    let rest ← readDate? s
    match rest with
    | c :: after =>
      if c = 'T' || c = 't' || (c = ' ' && startsTime after) then
        let after ← readTime? after
        let after ← readOffset? after
        return (.datetime, after)
      else return (.datetime, rest)
    | [] => return (.datetime, [])

mutual

/-- A value. The fuel bounds the number of steps, `depth` what may still nest. -/
def readValue? : (fuel depth : Nat) → List Char → Option (Toml × List Char)
  | 0, _, _ => none
  | fuel + 1, depth, s =>
    match s with
    | '"' :: _ => (readString? s).map fun p => (.string (String.ofList p.1), p.2)
    | '\'' :: _ => (readString? s).map fun p => (.string (String.ofList p.1), p.2)
    | 't' :: 'r' :: 'u' :: 'e' :: rest => some (.boolean true, rest)
    | 'f' :: 'a' :: 'l' :: 's' :: 'e' :: rest => some (.boolean false, rest)
    | '[' :: rest =>
      match depth with
      | 0 => none
      | depth + 1 => (readItems? fuel depth rest).map fun p => (.array p.1, p.2)
    | '{' :: rest =>
      match depth, skipSpace rest with
      | 0, _ => none
      | _ + 1, '}' :: rest => some (.table .inline [], rest)
      | depth + 1, _ => (readPairs? fuel depth [] rest).map fun p => (.table .inline p.1, p.2)
    | '0' :: 'x' :: rest => readRadix? 16 isHexDigit rest
    | '0' :: 'o' :: rest => readRadix? 8 (fun c => '0' ≤ c && c ≤ '7') rest
    | '0' :: 'b' :: rest => readRadix? 2 (fun c => c == '0' || c == '1') rest
    | _ => if startsDate s || startsTime s then readDatetime? s else readDecimal? s

/-- The items of an array up to its closing bracket; a comma may follow the last. -/
def readItems? : (fuel depth : Nat) → List Char → Option (List Toml × List Char)
  | 0, _, _ => none
  | fuel + 1, depth, s =>
    match skipBetween (s.length + 1) s with
    | ']' :: rest => some ([], rest)
    | s => do
      let (item, rest) ← readValue? fuel depth s
      match skipBetween (rest.length + 1) rest with
      | ']' :: rest => return ([item], rest)
      | ',' :: rest =>
        let (items, rest) ← readItems? fuel depth rest
        return (item :: items, rest)
      | _ => none

/-- The pairs of a table in braces up to the closing brace, with those read before. -/
def readPairs? : (fuel depth : Nat) → Entries → List Char → Option (Entries × List Char)
  | 0, _, _, _ => none
  | fuel + 1, depth, entries, s => do
    let ((path, key), rest) ← readKey? s
    let rest ← expect? '=' rest
    let (value, rest) ← readValue? fuel depth (skipSpace rest)
    let (_, entries) ← assign path key value .inline entries
    match skipSpace rest with
    | '}' :: rest => return (entries, rest)
    | ',' :: rest => readPairs? fuel depth entries rest
    | _ => none

end

/-- The lines of a text under the header read last. -/
def readLines? : (fuel : Nat) → (header : List String) → Entries → List Char → Option Entries
  | 0, _, _, _ => none
  | fuel + 1, header, root, s =>
    match skipSpace s with
    | [] => some root
    | '[' :: '[' :: rest => do
      let ((path, key), rest) ← readKey? rest
      let rest ← endLine? (← expect? ']' (← expect? ']' rest))
      let root ← addTable path key root
      readLines? fuel (path ++ [key]) root rest
    | '[' :: rest => do
      let ((path, key), rest) ← readKey? rest
      let rest ← endLine? (← expect? ']' rest)
      let root ← openTable path key root
      readLines? fuel (path ++ [key]) root rest
    | s =>
      match endLine? s with
      | some rest => readLines? fuel header root rest
      | none => do
        let ((path, key), rest) ← readKey? s
        let rest ← expect? '=' rest
        let (value, rest) ← readValue? (2 * rest.length + 2) maxDepth (skipSpace rest)
        let rest ← endLine? rest
        let root ← assignUnder header path key value root
        readLines? fuel header root rest

/-- The entries of a whole text. A byte order mark at its start is passed over. -/
def parse? (s : String) : Option Entries :=
  let s := s.toList
  let s := if s.head? = some '\ufeff' then s.tail else s
  readLines? (s.length + 1) [] [] s

end Toml

end Polyglot
