import Polyglot.Pattern.Flags

/-!
The written form of patterns, cut into tokens: characters and classes, tests, repetition signs,
bars, and the two ends of groups. Escapes, bracketed classes and repetition counts are each read
whole. The flags are followed on the way, so that a token has the meaning that they give it.
-/

namespace Polyglot

namespace Pattern

inductive Token where
  | atom (a : Atom)
  /-- A class in brackets, and how deep it is nested. -/
  | bracket (s : CharSet) (depth : Nat)
  | bar
  | quantity (min : Nat) (max : Option Nat) (greedy : Bool)
  /-- Opens a group that remembers its text, with its name if it has one. -/
  | capture (name : Option (List Char))
  /-- Opens a group that only holds together. -/
  | plain (changes : FlagChange)
  | leave
  | switch (changes : FlagChange)
  deriving DecidableEq, Repr

/-- The characters with a meaning of their own, which a backslash turns into themselves. -/
def isMeta (c : Char) : Bool :=
  ['\\', '.', '+', '*', '?', '(', ')', '|', '[', ']', '{', '}', '^', '$', '#', '&',
    '-', '~'].contains c

/-- Punctuation and other ASCII that may stand behind a backslash without need. -/
def isEscapable (c : Char) : Bool :=
  isMeta c || (c.toNat < 128 && !Text.isAsciiLetter c && !Text.isAsciiDigit c &&
    c != '<' && c != '>')

def hexDigit? (c : Char) : Option Nat :=
  if '0' ≤ c && c ≤ '9' then some (c.toNat - '0'.toNat)
  else if 'a' ≤ c && c ≤ 'f' then some (c.toNat - 'a'.toNat + 10)
  else if 'A' ≤ c && c ≤ 'F' then some (c.toNat - 'A'.toNat + 10)
  else none

def hexNumber? (s : List Char) : Option Nat :=
  s.foldlM (fun n c => (hexDigit? c).map (16 * n + ·)) 0

/-- The character with a code point, unless the number is a surrogate or too large. -/
def scalar? (n : Nat) : Option Char :=
  if n < 0xD800 || (0xDFFF < n && n < 0x110000) then some (Char.ofNat n) else none

/-- The character that hexadecimal digits stand for. -/
def hexChar (digits : List Char) : Except Flaw Char :=
  match hexNumber? digits >>= scalar? with
  | some c => if digits.isEmpty then .error .badEscape else .ok c
  | none => .error .badEscape

/-- What stands between braces, behind the opening one. -/
def readBraced (verbose : Bool) : (comment : Bool) → List Char →
    Except Flaw (List Char × List Char)
  | _, [] => .error .badEscape
  | true, c :: s => readBraced verbose (c != '\n') s
  | false, c :: s =>
    if verbose && Text.isBlank c then readBraced verbose false s
    else if verbose && c == '#' then readBraced verbose true s
    else if c = '}' then .ok ([], s)
    else (readBraced verbose false s).map fun (inside, rest) => (c :: inside, rest)

/-- The next `width` characters. -/
def readDigits (f : Flags) : (width : Nat) → List Char → Except Flaw (List Char × List Char)
  | 0, s => .ok ([], s)
  | width + 1, s =>
    match f.skip s with
    | [] => .error .badEscape
    | c :: s => (readDigits f width s).map fun (digits, rest) => (c :: digits, rest)

/-- A code point written in braces or with `width` digits. Two digits stand for a byte. -/
def readHex (f : Flags) (width : Nat) (s : List Char) : Except Flaw (Atom × List Char) :=
  match f.skip s with
  | '{' :: after => do
    let (digits, rest) ← readBraced f.verbose false after
    let c ← hexChar digits
    return (.literal c, rest)
  | s => do
    let (digits, rest) ← readDigits f width s
    let c ← hexChar digits
    if width = 2 && !f.unicode && 128 ≤ c.toNat then .error .notUtf8 else return (.literal c, rest)

/-- The name of a property, a single letter or in braces. -/
def readPropertyName (f : Flags) (s : List Char) : Except Flaw (List Char × List Char) :=
  match f.skip s with
  | [] => .error .badEscape
  | '{' :: after => readBraced f.verbose false after
  | '\\' :: _ => .error .badEscape
  | c :: rest => .ok ([c], rest)

/-- A class by a property of its characters. -/
def readProperty (f : Flags) (negated : Bool) (s : List Char) : Except Flaw (Atom × List Char) := do
  let (name, rest) ← readPropertyName f s
  match Property.ofText? name with
  | none => .error .unknownProperty
  | some set =>
    if f.unicode then return (.set (← f.classOf negated set), rest) else .error .notUnicode

def wordTest? (name : List Char) : Option WordTest :=
  match String.ofList name with
  | "start" => some .start
  | "end" => some .finish
  | "start-half" => some .startHalf
  | "end-half" => some .finishHalf
  | _ => none

/-- The test for the edge of a word, or one of those that a name in braces tells. Any other brace
starts a count. -/
def readWordEdge (f : Flags) : List Char → Except Flaw (Atom × List Char)
  | '{' :: after =>
    match f.skip after with
    | [] => .error .badEscape
    | c :: _ =>
      if Text.isAsciiLetter c || c == '-' then do
        let (name, rest) ← readBraced f.verbose false after
        match wordTest? name with
        | some test => return (f.wordTest test, rest)
        | none => .error .badEscape
      else .ok (f.wordTest .edge, '{' :: after)
  | s => .ok (f.wordTest .edge, s)

/-- The escape behind a backslash. -/
def readEscape (f : Flags) : List Char → Except Flaw (Atom × List Char)
  | [] => .error .badEscape
  | c :: rest =>
    match c with
    | 'd' => (f.escaped false .digit .asciiDigit).map (·, rest)
    | 'D' => (f.escaped true .digit .asciiDigit).map (·, rest)
    | 's' => (f.escaped false .blank .asciiBlank).map (·, rest)
    | 'S' => (f.escaped true .blank .asciiBlank).map (·, rest)
    | 'w' => (f.escaped false .word .asciiWord).map (·, rest)
    | 'W' => (f.escaped true .word .asciiWord).map (·, rest)
    | 'p' => readProperty f false rest
    | 'P' => readProperty f true rest
    | 'x' => readHex f 2 rest
    | 'u' => readHex f 4 rest
    | 'U' => readHex f 8 rest
    | 'a' => .ok (.literal '\x07', rest)
    | 'f' => .ok (.literal '\x0c', rest)
    | 't' => .ok (.literal '\t', rest)
    | 'n' => .ok (.literal '\n', rest)
    | 'r' => .ok (.literal '\r', rest)
    | 'v' => .ok (.literal '\x0b', rest)
    | 'A' => .ok (.test .textStart, rest)
    | 'z' => .ok (.test .textEnd, rest)
    | 'b' => readWordEdge f rest
    | 'B' => .ok (f.wordTest .inside, rest)
    | '<' => .ok (f.wordTest .start, rest)
    | '>' => .ok (f.wordTest .finish, rest)
    | _ => if isEscapable c then .ok (.literal c, rest) else .error .badEscape

/-- The named classes that may stand in brackets, as in `[[:alpha:]]`. -/
def asciiClass? (name : List Char) : Option CharSet :=
  let lower := CharSet.range 'a' 'z'
  let upper := CharSet.range 'A' 'Z'
  let alpha := CharSet.union lower upper
  let alnum := CharSet.union alpha .asciiDigit
  match String.ofList name with
  | "alnum" => some alnum
  | "alpha" => some alpha
  | "ascii" => some (.range '\x00' '\x7f')
  | "blank" => some (.union (.single '\t') (.single ' '))
  | "cntrl" => some (.union (.range '\x00' '\x1f') (.single '\x7f'))
  | "digit" => some .asciiDigit
  | "graph" => some (.range '!' '~')
  | "lower" => some lower
  | "print" => some (.range ' ' '~')
  | "punct" => some (.diff (.range '!' '~') alnum)
  | "space" => some .asciiBlank
  | "upper" => some upper
  | "word" => some .asciiWord
  | "xdigit" => some (.union .asciiDigit (.union (.range 'a' 'f') (.range 'A' 'F')))
  | _ => none

/-- A named class behind the bracket that opens it, up to and including `:]`, and whether it is
negated. -/
def readAsciiClass? : List Char → Option (Bool × CharSet × List Char)
  | ':' :: rest =>
    let negated := rest.head? = some '^'
    let body := if negated then rest.tail else rest
    let name := body.takeWhile (· != ':')
    match body.drop name.length, asciiClass? name with
    | ':' :: ']' :: after, some set => some (negated, set, after)
    | _, _ => none
  | _ => none

/-- The operators between the parts of a class in brackets. -/
inductive SetOp where
  | inter
  | diff
  | symmDiff

def SetOp.combine : SetOp → CharSet → CharSet → CharSet
  | .inter, a, b => .inter a b
  | .diff, a, b => .diff a b
  | .symmDiff, a, b => .symmDiff a b

/-- Items side by side in a class: their characters, their number and how deep they are nested. -/
structure ClassItems where
  set : CharSet := .none
  count : Nat := 0
  depth : Nat := 0

def ClassItems.add (items : ClassItems) (set : CharSet) (depth : Nat := 0) : ClassItems :=
  ⟨.union items.set set, items.count + 1, max items.depth depth⟩

/-- Several items are one level deeper than one. -/
def ClassItems.nesting (items : ClassItems) : Nat :=
  if 2 ≤ items.count then items.depth + 1 else items.depth

/-- The part of a class before an operator, with its depth. -/
abbrev Operand := SetOp × CharSet × Nat

/-- An operator applied to what stands before and behind it. -/
def combine (f : Flags) : Option Operand → ClassItems → CharSet × Nat
  | none, items => (items.set, items.nesting)
  | some (op, set, depth), items =>
    (op.combine (f.fold set) (f.fold items.set), max depth items.nesting + 1)

/-- One character or escape inside brackets. -/
def readClassAtom (f : Flags) : List Char → Except Flaw (Atom × List Char)
  | [] => .error .unclosedClass
  | '\\' :: rest => readEscape f rest
  | c :: rest => .ok (.literal c, rest)

/-- An item of a class that is no range. -/
def classItem (f : Flags) : Atom → Except Flaw CharSet
  | .literal c => (f.classChar c).map .single
  | .set set => .ok set
  | .test _ => .error .badClassItem

def classRange (f : Flags) : Atom → Atom → Except Flaw CharSet
  | .literal lo, .literal hi => do
    let lo ← f.classChar lo
    let hi ← f.classChar hi
    if lo ≤ hi then .ok (.range lo hi) else .error .badRange
  | _, _ => .error .badRange

/-- A character, an escaped class or a range inside brackets. -/
def readClassItem (f : Flags) (s : List Char) : Except Flaw (CharSet × List Char) := do
  let (first, rest) ← readClassAtom f s
  match f.skip rest with
  | [] => .error .unclosedClass
  | '-' :: after =>
    if f.peek after = some ']' || f.peek after = some '-' then
      return (← classItem f first, '-' :: after)
    else
      let (last, rest) ← readClassAtom f (f.skip after)
      return (← classRange f first last, rest)
  | rest => return (← classItem f first, rest)

/-- The hyphens that a class starts with, and what follows them. -/
def readHyphens (verbose : Bool) : (comment : Bool) → List Char → Nat × List Char
  | _, [] => (0, [])
  | true, c :: s => readHyphens verbose (c != '\n') s
  | false, c :: s =>
    if verbose && Text.isBlank c then readHyphens verbose false s
    else if verbose && c == '#' then readHyphens verbose true s
    else if c = '-' then
      let (more, rest) := readHyphens verbose false s
      (more + 1, rest)
    else (0, c :: s)

/-- The hyphens that a class starts with stand for themselves, and so does a closing bracket
there. -/
def startItems : (hyphens : Nat) → List Char → ClassItems × List Char
  | 0, ']' :: rest => (⟨.single ']', 1, 0⟩, rest)
  | 0, rest => ({}, rest)
  | hyphens, rest => (⟨.single '-', hyphens, 0⟩, rest)

/-- The start of a class behind its opening bracket: whether it is negated, the items that stand for
themselves there, and the rest. -/
def readClassStart (f : Flags) (s : List Char) : Bool × ClassItems × List Char :=
  let s := f.skip s
  let negated := s.head? = some '^'
  let (hyphens, rest) := readHyphens f.verbose false (if negated then s.tail else s)
  (negated, startItems hyphens rest)

/-- The classes that are open, the inner first: whether each is negated, and what stood in it
before the class inside it was opened. -/
abbrev OpenClasses := List (Bool × Option Operand × ClassItems)

/-- The rest of a class in brackets, and its depth. The fuel bounds the number of items. -/
def readClassRest (f : Flags) : (fuel : Nat) → OpenClasses → (negated : Bool) → Option Operand →
    ClassItems → List Char → Except Flaw (CharSet × Nat × List Char)
  | 0, _, _, _, _, _ => .error .unclosedClass
  | fuel + 1, outer, negated, before, items, s =>
    match f.skip s with
    | [] => .error .unclosedClass
    | ']' :: rest => do
      let (set, depth) := combine f before items
      let whole ← f.classOf negated set
      match outer with
      | [] => .ok (whole, depth + 1, rest)
      | (negated, before, items) :: outer =>
        readClassRest f fuel outer negated before (items.add whole (depth + 1)) rest
    | '[' :: rest =>
      match readAsciiClass? rest with
      | some (inverted, inner, rest) => do
        let inner ← f.classOf inverted inner
        readClassRest f fuel outer negated before (items.add inner) rest
      | none =>
        let (inner, start, rest) := readClassStart f rest
        readClassRest f fuel ((negated, before, items) :: outer) inner none start rest
    | '&' :: '&' :: rest =>
      readClassRest f fuel outer negated (some (.inter, combine f before items)) {} rest
    | '-' :: '-' :: rest =>
      readClassRest f fuel outer negated (some (.diff, combine f before items)) {} rest
    | '~' :: '~' :: rest =>
      readClassRest f fuel outer negated (some (.symmDiff, combine f before items)) {} rest
    | s => do
      let (item, rest) ← readClassItem f s
      readClassRest f fuel outer negated before (items.add item) rest

/-- A class behind its opening bracket. -/
def readClass (f : Flags) (s : List Char) : Except Flaw (Token × List Char) := do
  let (negated, items, rest) := readClassStart f s
  let (set, depth, rest) ← readClassRest f (s.length + 1) [] negated none items rest
  return (.bracket set depth, rest)

/-- The digits of a number. -/
def readNumber (verbose : Bool) : (comment : Bool) → List Char → List Char × List Char
  | _, [] => ([], [])
  | true, c :: s => readNumber verbose (c != '\n') s
  | false, c :: s =>
    if Text.isAsciiDigit c then
      let (digits, rest) := readNumber verbose false s
      (c :: digits, rest)
    else if verbose && Text.isBlank c then readNumber verbose false s
    else if verbose && c == '#' then readNumber verbose true s
    else ([], c :: s)

/-- A decimal number with blanks around it; none if there is no digit. -/
def readDecimal (f : Flags) (s : List Char) : Option Nat × List Char :=
  let (digits, rest) := readNumber f.verbose false ((f.skip s).dropWhile Text.isBlank)
  (if digits.isEmpty then none
    else some (digits.foldl (fun n c => 10 * n + (c.toNat - '0'.toNat)) 0),
    rest.dropWhile Text.isBlank)

/-- A repetition sign is lazy if a question mark follows it. -/
def readGreed (f : Flags) (s : List Char) : Bool × List Char :=
  match f.skip s with
  | '?' :: rest => (false, rest)
  | _ => (true, s)

/-- The largest count that may be written. -/
def maxCount : Nat := 4294967295

/-- The end of a count, from its closing brace on. -/
def closeCount (f : Flags) (min : Option Nat) (max : Option (Option Nat)) (s : List Char) :
    Except Flaw (Token × List Char) :=
  match min, max, s with
  | some min, none, '}' :: rest =>
    let (greedy, rest) := readGreed f rest
    if min ≤ maxCount then .ok (.quantity min none (greedy != f.swapGreed), rest)
    else .error .badCount
  | some min, some (some max), '}' :: rest =>
    let (greedy, rest) := readGreed f rest
    if min ≤ max && max ≤ maxCount then
      .ok (.quantity min (some max) (greedy != f.swapGreed), rest)
    else .error .badCount
  | _, _, '}' :: _ => .error .badCount
  | _, _, _ => .error .unclosedCount

/-- The upper bound of a count behind the lower one, and none if the count has no end. -/
def readUpper (f : Flags) (min : Option Nat) : List Char → Option (Option Nat) × List Char
  | ',' :: after =>
    match f.skip after with
    | '}' :: rest => (none, '}' :: rest)
    | after =>
      let (max, rest) := readDecimal f after
      (some max, rest)
  | rest => (some min, rest)

/-- A repetition count behind its opening brace. -/
def readCount (f : Flags) (s : List Char) : Except Flaw (Token × List Char) :=
  let (min, rest) := readDecimal f s
  let (max, rest) := readUpper f min rest
  closeCount f min max rest

/-- The name of a group up to its closing angle bracket. -/
def readName (s : List Char) : Except Flaw (List Char × List Char) :=
  let name := s.takeWhile (· != '>')
  let starts (c : Char) := c == '_' || Text.isLetter c
  let continues (c : Char) :=
    c == '_' || c == '.' || c == '[' || c == ']' || Text.isLetter c || Text.isNumeral c
  match name with
  | c :: rest =>
    if name.length < s.length && starts c && rest.all continues then
      .ok (name, s.drop (name.length + 1))
    else .error .badGroupName
  | [] => .error .badGroupName

def flag? : Char → Option Flag
  | 'i' => some .caseless
  | 'm' => some .multiLine
  | 's' => some .dotAll
  | 'U' => some .swapGreed
  | 'u' => some .unicode
  | 'R' => some .returns
  | 'x' => some .verbose
  | _ => none

/-- Flags as they are written, those behind a hyphen switched off. A flag or a hyphen stands at
most once, and a hyphen is followed by a flag. -/
def readFlags (s : List Char) : Except Flaw FlagChange :=
  let on := s.takeWhile (· != '-')
  let off := (s.drop on.length).tail
  let letters := on ++ off
  if letters.eraseDups.length < letters.length || (on.length < s.length && off.isEmpty) then
    .error .badFlags
  else match on.mapM flag?, off.mapM flag? with
    | some on, some off => .ok (on.map (·, true) ++ off.map (·, false))
    | _, _ => .error .badFlags

/-- The options of a group behind the question mark that they start with. -/
def readOptions : List Char → Except Flaw (Token × List Char)
  | '=' :: _ => .error .lookAround
  | '!' :: _ => .error .lookAround
  | '<' :: '=' :: _ => .error .lookAround
  | '<' :: '!' :: _ => .error .lookAround
  | 'P' :: '<' :: rest => do
    let (name, rest) ← readName rest
    return (.capture (some name), rest)
  | '<' :: rest => do
    let (name, rest) ← readName rest
    return (.capture (some name), rest)
  | rest => do
    let written := rest.takeWhile fun c => c != ':' && c != ')'
    match rest.drop written.length with
    | ':' :: rest => return (.plain (← readFlags written), rest)
    | ')' :: rest =>
      if written.isEmpty then .error .nothingToRepeat
      else return (.switch (← readFlags written), rest)
    | _ => .error .unclosedGroup

/-- The start of a group behind its opening parenthesis. -/
def readGroup (f : Flags) (s : List Char) : Except Flaw (Token × List Char) :=
  match f.skip s with
  | '?' :: rest => readOptions rest
  | _ => .ok (.capture none, s)

/-- A repetition sign of one character. -/
def readSign (f : Flags) (min : Nat) (max : Option Nat) (s : List Char) : Token × List Char :=
  let (greedy, rest) := readGreed {} s
  (.quantity min max (greedy != f.swapGreed), rest)

/-- The first token of a text that is not empty. -/
def readToken (f : Flags) : Char → List Char → Except Flaw (Token × List Char)
  | '(', rest => readGroup f rest
  | ')', rest => .ok (.leave, rest)
  | '|', rest => .ok (.bar, rest)
  | '.', rest => f.dot.map fun a => (.atom a, rest)
  | '^', rest => .ok (.atom (.test f.caret), rest)
  | '$', rest => .ok (.atom (.test f.dollar), rest)
  | '?', rest => .ok (readSign f 0 (some 1) rest)
  | '*', rest => .ok (readSign f 0 none rest)
  | '+', rest => .ok (readSign f 1 none rest)
  | '{', rest => readCount f rest
  | '[', rest => readClass f rest
  | '\\', rest => (readEscape f rest).map fun (a, rest) => (.atom (f.atom a), rest)
  | c, rest => .ok (.atom (f.atom (.literal c)), rest)

/-- The flags that hold here, and those around each open group, the inner first. -/
structure Scope where
  flags : Flags := {}
  outer : List Flags := []
  deriving DecidableEq, Repr

/-- The flags behind a token. A group is left with the flags that it was entered with. -/
def Scope.after (sc : Scope) : Token → Scope
  | .capture _ => ⟨sc.flags, sc.flags :: sc.outer⟩
  | .plain changes => ⟨sc.flags.change changes, sc.flags :: sc.outer⟩
  | .switch changes => ⟨sc.flags.change changes, sc.outer⟩
  | .leave =>
    match sc.outer with
    | [] => sc
    | flags :: outer => ⟨flags, outer⟩
  | _ => sc

/-- The tokens of a text, and what is left behind the last of them, with the flags there; that
stands for nothing. The fuel bounds the number of tokens. -/
def readTokens : (fuel : Nat) → Scope → List Char → Except Flaw (List Token × Flags × List Char)
  | fuel, sc, s =>
    match sc.flags.skip s, fuel with
    | [], _ => .ok ([], sc.flags, s)
    | _ :: _, 0 => .error .unclosedGroup
    | c :: rest, fuel + 1 => do
      let (token, rest) ← readToken sc.flags c rest
      let (tokens, behind) ← readTokens fuel (sc.after token) rest
      return (token :: tokens, behind)

/-- The tokens of a written pattern. Each takes a character at least, so the length is fuel
enough. -/
def tokens (s : List Char) : Except Flaw (List Token) :=
  (readTokens s.length {} s).map Prod.fst

/-- Whether a text ends inside a comment that began in it. -/
def opensComment : (comment : Bool) → List Char → Bool
  | comment, [] => comment
  | true, c :: s => opensComment (c != '\n') s
  | false, c :: s =>
    if Text.isBlank c then opensComment false s else c == '#' && opensComment true s

/-- Whether a written pattern ends inside a comment, so that what is put behind it on the same line
would belong to that. -/
def endsInComment (s : List Char) : Bool :=
  match readTokens s.length {} s with
  | .ok (_, flags, rest) => flags.verbose && opensComment false rest
  | .error _ => false

end Pattern

end Polyglot
