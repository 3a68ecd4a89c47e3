import Polyglot.Pattern.CharSet
import Polyglot.Text.CaseForms
import Polyglot.Text.Script

/-!
Sets of characters as the Unicode standard makes them: by a property that is written out, and
without regard to case. The properties are the general category, the script, and those of the
yes-or-no properties that the standard asks of every pattern language.
-/

namespace Polyglot

namespace CharSet

/-- With each character of a set all that stand together with it. -/
def closedUnder (groups : List (List Char)) (a : CharSet) : CharSet :=
  union a (ofItems (((groups.filter (·.any a.has)).flatten).map single))

/-- The ASCII letters, each in its two forms. -/
def asciiForms : List (List Char) :=
  "abcdefghijklmnopqrstuvwxyz".toList.map fun c => [c, c.toUpper]

def ofRanges (ranges : Text.Ranges) : CharSet :=
  ofItems (ranges.map fun r => range (Char.ofNat r.1) (Char.ofNat r.2))

def ofStretch (s : Text.Stretch) : List CharSet :=
  if s.step = 1 then [range (Char.ofNat s.first) (Char.ofNat s.last)]
  else s.codes.map fun n => single (Char.ofNat n)

open Text (Category)

def ofCategories (categories : List Category) : CharSet :=
  ofItems ((categories.flatMap Category.stretches).flatMap ofStretch)

def unassigned : CharSet :=
  compl (ofCategories Category.all)

end CharSet

namespace Property

open Text.Category CharSet

/-- The spellings of a name that count as one: case, separators and an `is` before it do not
matter. The name `isc` is that of another property and stays. -/
def normalize (name : List Char) : String :=
  let plain (s : List Char) : List Char :=
    (s.filter fun c => c.toNat < 128 && !([' ', '_', '-'].contains c)).map Char.toLower
  if (name.take 2).map Char.toLower = ['i', 's'] then
    let rest := String.ofList (plain (name.drop 2))
    if rest = "c" then "isc" else rest
  else String.ofList (plain name)

/-- The general categories by their names, the single ones and those taken together. -/
def categories : List (List String × List Text.Category) := [
  (["lu", "uppercaseletter"], [uppercaseLetter]),
  (["ll", "lowercaseletter"], [lowercaseLetter]),
  (["lt", "titlecaseletter"], [titlecaseLetter]),
  (["lc", "casedletter"], [uppercaseLetter, lowercaseLetter, titlecaseLetter]),
  (["lm", "modifierletter"], [modifierLetter]),
  (["lo", "otherletter"], [otherLetter]),
  (["l", "letter"],
    [uppercaseLetter, lowercaseLetter, titlecaseLetter, modifierLetter, otherLetter]),
  (["mn", "nonspacingmark"], [nonspacingMark]),
  (["mc", "spacingmark"], [spacingMark]),
  (["me", "enclosingmark"], [enclosingMark]),
  (["m", "mark", "combiningmark"], [nonspacingMark, spacingMark, enclosingMark]),
  (["nd", "decimalnumber", "digit"], [decimalNumber]),
  (["nl", "letternumber"], [letterNumber]),
  (["no", "othernumber"], [otherNumber]),
  (["n", "number"], [decimalNumber, letterNumber, otherNumber]),
  (["pc", "connectorpunctuation"], [connectorPunctuation]),
  (["pd", "dashpunctuation"], [dashPunctuation]),
  (["ps", "openpunctuation"], [openPunctuation]),
  (["pe", "closepunctuation"], [closePunctuation]),
  (["pi", "initialpunctuation"], [initialPunctuation]),
  (["pf", "finalpunctuation"], [finalPunctuation]),
  (["po", "otherpunctuation"], [otherPunctuation]),
  (["p", "punctuation", "punct"], [connectorPunctuation, dashPunctuation, openPunctuation,
    closePunctuation, initialPunctuation, finalPunctuation, otherPunctuation]),
  (["sm", "mathsymbol"], [mathSymbol]),
  (["sc", "currencysymbol"], [currencySymbol]),
  (["sk", "modifiersymbol"], [modifierSymbol]),
  (["so", "othersymbol"], [otherSymbol]),
  (["s", "symbol"], [mathSymbol, currencySymbol, modifierSymbol, otherSymbol]),
  (["zs", "spaceseparator"], [spaceSeparator]),
  (["zl", "lineseparator"], [lineSeparator]),
  (["zp", "paragraphseparator"], [paragraphSeparator]),
  (["z", "separator"], [spaceSeparator, lineSeparator, paragraphSeparator]),
  (["cc", "control", "cntrl"], [control]),
  (["cf", "format"], [format]),
  (["co", "privateuse"], [privateUse]),
  (["assigned"], all)]

def category? (name : String) : Option CharSet :=
  match name with
  | "any" => some (compl none)
  | "ascii" => some (range '\x00' '\x7f')
  | "cn" | "unassigned" => some unassigned
  | "c" | "other" => some (union (ofCategories [control, format, privateUse]) unassigned)
  | _ => (categories.find? (·.1.contains name)).map fun entry => ofCategories entry.2

def script? (name : String) : Option CharSet :=
  (Text.Script.all.find? (·.names.contains name)).map fun s => ofRanges s.ranges

/-- Small letters beyond those of the category. -/
def otherLowercase : Text.Ranges := [
    (170, 170), (186, 186), (688, 696), (704, 705), (736, 740), (837, 837), (890, 890),
    (4348, 4348), (7468, 7530), (7544, 7544), (7579, 7615), (8305, 8305), (8319, 8319),
    (8336, 8348), (8560, 8575), (9424, 9449), (11388, 11389), (42652, 42653), (42864, 42864),
    (42994, 42996), (43000, 43001), (43868, 43871), (43881, 43881), (67456, 67456),
    (67459, 67461), (67463, 67504), (67506, 67514), (122928, 122989)]

/-- Capital letters beyond those of the category. -/
def otherUppercase : Text.Ranges := [
    (8544, 8559), (9398, 9423), (127280, 127305), (127312, 127337), (127344, 127369)]

def noncharacters : Text.Ranges := [
    (64976, 65007), (65534, 65535), (131070, 131071), (196606, 196607), (262142, 262143),
    (327678, 327679), (393214, 393215), (458750, 458751), (524286, 524287), (589822, 589823),
    (655358, 655359), (720894, 720895), (786430, 786431), (851966, 851967), (917502, 917503),
    (983038, 983039), (1048574, 1048575), (1114110, 1114111)]

def defaultIgnorable : Text.Ranges := [
    (173, 173), (847, 847), (1564, 1564), (4447, 4448), (6068, 6069), (6155, 6159), (8203, 8207),
    (8234, 8238), (8288, 8303), (12644, 12644), (65024, 65039), (65279, 65279), (65440, 65440),
    (65520, 65528), (113824, 113827), (119155, 119162), (917504, 921599)]

/-- The yes-or-no properties. Letters are listed as of a later version of the standard. -/
def binary? (name : String) : Option CharSet :=
  match name with
  | "alphabetic" | "alpha" =>
    let listed := union (ofRanges Text.letterRanges) (union (range 'a' 'z') (range 'A' 'Z'))
    some (diff listed unassigned)
  | "lowercase" | "lower" => some (union (ofCategories [lowercaseLetter]) (ofRanges otherLowercase))
  | "uppercase" | "upper" => some (union (ofCategories [uppercaseLetter]) (ofRanges otherUppercase))
  | "whitespace" | "wspace" | "space" => some blank
  | "noncharactercodepoint" | "nchar" => some (ofRanges noncharacters)
  | "defaultignorablecodepoint" | "di" => some (ofRanges defaultIgnorable)
  | _ => Option.none

/-- A property by its name alone. -/
def named? (name : String) : Option CharSet :=
  (binary? name).or ((category? name).or (script? name))

/-- A property that has values, and one of them. -/
def valued? (name value : String) : Option CharSet :=
  match name with
  | "generalcategory" | "gc" => category? value
  | "script" | "sc" => script? value
  | _ => Option.none

/-- The characters of a property as it is written between braces. The signs that may stand before a
value mean the same. -/
def ofText? (s : List Char) : Option CharSet :=
  let name := s.takeWhile fun c => c != ':' && c != '=' && c != '!'
  match s.drop name.length with
  | [] => named? (normalize s)
  | ':' :: value => valued? (normalize name) (normalize value)
  | '=' :: value => valued? (normalize name) (normalize value)
  | '!' :: '=' :: value => valued? (normalize name) (normalize value)
  | _ => Option.none

end Property

end Polyglot
