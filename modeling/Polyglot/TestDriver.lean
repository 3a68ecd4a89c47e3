import Polyglot.Pattern.Scan
import Polyglot.Text.Lines
import Polyglot.Text.Substring

/-!
The synchronous Python test driver, derived from the asynchronous one line by line. Helpers that
only the asynchronous driver has are cut out of the whole text afterwards.
-/

namespace Polyglot

namespace Text

/-- Replaces the first occurrence of a part that is not empty. -/
def replaceOnce (old new : List Char) : List Char → List Char
  | [] => []
  | c :: rest =>
    if old.isPrefixOf (c :: rest) then new ++ (c :: rest).drop old.length
    else c :: replaceOnce old new rest

end Text

namespace TestDriver

open Pattern

/-- What is replaced on a line before a line about the token bucket is emptied. -/
def firstSubstitutions : List (String × String) :=
  [("asyncio.get_event_loop().run_until_complete(main())", "main()"),
    ("import ccxt.async_support as ccxt", "import ccxt")]

def lastSubstitutions : List (String × String) :=
  [("await asyncio.sleep", "time.sleep"), ("async ", ""), ("await ", "")]

def asyncOnly : List String :=
  ["test_tickers_async", "test_l2_order_books_async"]

def anyChars : Pattern :=
  star true (noneOf [.single '\n'])

def tokenBucketPattern : Pattern :=
  seqAll ([anyChars] ++ text "token_bucket" ++ [anyChars])

/-- A definition with all that follows it up to the next comment. -/
def definitionPattern (name : String) : Pattern :=
  seqAll (text "def " ++ text name ++ [plus true (noneOf [.single '#'])])

def callPattern (name : String) : Pattern :=
  seqAll ([plus true (char .blank)] ++ text name ++ text "(exchange)")

def substitute (table : List (String × String)) (line : List Char) : List Char :=
  table.foldl (fun line row => Text.replaceOnce row.1.toList row.2.toList line) line

def synchronousLine (line : List Char) : List Char :=
  substitute lastSubstitutions
    (tokenBucketPattern.replaceAll (fun _ => []) (substitute firstSubstitutions line))

def cutOut (p : Pattern) (s : List Char) : List Char :=
  p.replaceAll (fun _ => []) s

/-- The synchronous driver of an asynchronous one. -/
def synchronous (source : String) : String :=
  let lines := (Text.splitOn '\n' source.toList).filter (· != "import asyncio".toList)
  let text := Text.join ['\n'] (lines.map synchronousLine)
  String.ofList (asyncOnly.foldl
    (fun s name => cutOut (callPattern name) (cutOut (definitionPattern name) s)) text)

end TestDriver

end Polyglot
