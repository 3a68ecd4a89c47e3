import Polyglot.Pattern.Source
import Polyglot.Text.Lowercase

/-!
From names in camel case to names with underscores.
-/

namespace Polyglot

namespace Name

open Pattern (char look plus seqAll)

def capital : CharSet := .range 'A' 'Z'

def small : CharSet := .range 'a' 'z'

def figure : CharSet := .range '0' '9'

/-- The whole text in capitals, digits and underscores. -/
def allCapsPattern : Pattern :=
  seqAll [look .textStart, plus true (char (.union capital (.union figure (.single '_')))),
    look .textEnd]

/-- A small letter or digit before a capital. -/
def wordStartPattern : Pattern :=
  seqAll [char (.union small figure), char capital]

/-- The last capital of an acronym before a word, with one more character behind. -/
def acronymPattern : Pattern :=
  seqAll [char (.union capital figure), char (.union capital figure), char small,
    char (.compl (.single '$'))]

/-- A digit at the end of the text behind a small letter. -/
def lastDigitPattern : Pattern :=
  seqAll [char small, char figure, look .textEnd]

/-- An underscore behind the first character of each match. -/
def splitAfterFirst (p : Pattern) (s : List Char) : List Char :=
  p.replaceAll (fun m => m.text.take 1 ++ '_' :: m.text.drop 1) s

def underscoredChars (s : List Char) : List Char :=
  if allCapsPattern.isMatch s then s
  else Text.lowercase
    (splitAfterFirst lastDigitPattern
      (splitAfterFirst acronymPattern (splitAfterFirst wordStartPattern s)))

/-- Words in small letters with underscores between them. A name all in capitals stays. -/
def underscored (s : String) : String :=
  String.ofList (underscoredChars s.toList)

end Name

end Polyglot
