import Polyglot.Proofs.Books
import Polyglot.Proofs.LoopRules
import Polyglot.Proofs.Pending

/-!
Loops that count, in Python. Two rules change the header of such a loop: one takes the declaration
away, the other writes a range of the two numbers. All other rules find nothing in it, whatever the
numbers are, as long as they have nothing against the name of the variable. The comparison and the
direction of the loop are not in the result, so the values stay only if the loop counts up to a
bound that it does not reach, or if there are none.
-/

namespace Polyglot

open Pattern Text
open Ruleset (Yields)
open Sketch (Shows exactly shows_exactly shows_many)

/-! ### Rules for Python -/

namespace Ruleset

theorem exists_parts_python3 {glossary : Name.Glossary} {shared python3 : Ruleset}
    (readShared : Ruleset.shared glossary = .ok shared)
    (read : Ruleset.python3 shared = .ok python3) :
    ∃ first tail last, ofTable "python-pre" pythonFirstTable = .ok first ∧
      ofTable "common-tail" sharedTable = .ok tail ∧
        ofTable "python-post" pythonLastTable = .ok last ∧
      python3 = concat "python3" [first, concat "common" [glossary.callRules, tail], last] := by
  obtain ⟨tail, readTail, readShared⟩ := exists_of_bind_ok readShared
  obtain rfl := Except.ok.inj readShared
  obtain ⟨first, readFirst, read⟩ := exists_of_bind_ok read
  obtain ⟨last, readLast, read⟩ := exists_of_bind_ok read
  exact ⟨first, tail, last, readFirst, readTail, readLast, (Except.ok.inj read).symm⟩

end Ruleset

/-! ### The tables -/

/-- The three tables one after another. Between the first and the second no call is renamed in a
text without dots. -/
theorem Ruleset.Yields.applyChars_python3 {name s t u v : List Char}
    (first : Yields name pythonFirstTable s t) (second : Yields name sharedTable t u)
    (third : Yields name pythonLastTable u v) (dotless : '.' ∉ t)
    {glossary : Name.Glossary} {shared python3 : Ruleset}
    (readShared : Ruleset.shared glossary = .ok shared)
    (read : Ruleset.python3 shared = .ok python3)
    (idle : ∀ rule ∈ python3.rules, rule.isMatch (alone name) = false) :
    python3.applyChars s = v := by
  obtain ⟨pre, tail, post, readPre, readTail, readPost, rfl⟩ := exists_parts_python3 readShared read
  simp only [concat, List.flatMap_cons, List.flatMap_nil, List.append_nil, List.mem_append] at idle
  rw [applyChars_concat, List.foldl_cons, List.foldl_cons, List.foldl_cons, List.foldl_nil,
    first.applyChars readPre fun rule mem => idle rule (.inl mem),
    applyChars_concat, List.foldl_cons, List.foldl_cons, List.foldl_nil,
    applyChars_of_not_isMatch (Name.Glossary.not_isMatch_callRules glossary dotless),
    second.applyChars readTail fun rule mem => idle rule (.inr (.inl (.inr mem)))]
  exact third.applyChars readPost fun rule mem => idle rule (.inr (.inr mem))

namespace HeaderParts

variable (x : HeaderParts)

theorem expand_first (m : Match) :
    Template.expand [] (Template.parts "${1}".toList) m = m.group 1 := by
  have parts : Template.parts "${1}".toList = [.group 1] := by decide +kernel
  rw [parts]
  simp [Template.expand, Template.Part.expand]

theorem expand_range : Template.expand [] (Template.parts "for ${1} in range(${2}, ${3}):".toList)
    ⟨x.opened, [(3, x.last), (2, x.first), (1, x.name)]⟩ = x.ranged := by
  have parts : Template.parts "for ${1} in range(${2}, ${3}):".toList =
      opening.map .char ++ (.group 1 :: (ranger.map .char ++ (.group 2 ::
        ([',', ' '].map .char ++ (.group 3 :: [')', ':'].map .char))))) := by
    decide +kernel
  rw [parts]
  simp [Template.expand, Template.Part.expand, Match.group, Match.group?, ranged, opening, ranger,
    forWord, inWord, rangeWord, List.lookup_cons]

/-- The rules that come before the shared ones find nothing. -/
theorem yields_pythonFirstTable : Yields x.name Ruleset.pythonFirstTable x.declared x.declared := by
  unfold Ruleset.pythonFirstTable
  refine .past x.shows_declared (by decide +kernel) ?_
  refine .turn instancePattern (by decide +kernel) (fun idle => x.replaceAll_instance idle _) ?_
  repeat refine .past x.shows_declared (by decide +kernel) ?_
  refine .keyed none "undefined".toList [] x.eachWord_declared (by decide +kernel)
    (by decide) (by decide) ?_
  repeat refine .past x.shows_declared (by decide +kernel) ?_
  exact .nil

theorem yields_sharedTable : Yields x.name Ruleset.sharedTable x.declared x.declared := by
  unfold Ruleset.sharedTable
  refine .keyed none "errorHierarchy".toList [] x.eachWord_declared
    (by decide +kernel) (by decide) (by decide) ?_
  exact .past x.shows_declared (by decide +kernel) .nil

/-- The last rules take the declaration away and write the range, and do nothing else. -/
theorem yields_pythonLastTable : Yields x.name Ruleset.pythonLastTable x.declared x.ranged := by
  unfold Ruleset.pythonLastTable
  refine .past x.shows_declared (by decide +kernel) ?_
  refine .keyed (some (.compl (.ofItems [.range 'a' 'z', .range 'A' 'Z', .single '\''])))
    "this".toList [.compl (.ofItems [.range 'a' 'z', .range 'A' 'Z'])] x.eachWord_declared
    (by decide +kernel) (by decide)
    (by decide) ?_
  repeat refine .past x.shows_declared (by decide +kernel) ?_
  refine .turn declarationPattern (by decide +kernel)
    (fun idle => x.replaceAll_declaration idle (expand_first _)) ?_
  repeat refine .past x.shows_opened (by decide +kernel) ?_
  refine .keyed none "throw".toList [.single ' ', .compl .blank] x.eachWord_opened
    (by decide +kernel) (by decide) (by decide) ?_
  repeat refine .past x.shows_opened (by decide +kernel) ?_
  refine .keyed (some (.ofItems [.blank, .single '('])) "extend".toList [.blank] x.eachWord_opened
    (by decide +kernel) (by decide) (by decide) ?_
  repeat refine .past x.shows_opened (by decide +kernel) ?_
  refine .turn rangePattern (by decide +kernel) (fun _ => x.replaceAll_range x.expand_range) ?_
  repeat refine .past x.shows_ranged (by decide +kernel) ?_
  refine .keyed none "parseFloat".toList [] x.eachWord_ranged (by decide +kernel)
    (by decide) (by decide) ?_
  refine .keyed none "parseInt".toList [] x.eachWord_ranged (by decide +kernel) (by decide)
    (by decide) ?_
  repeat refine .past x.shows_ranged (by decide +kernel) ?_
  refine .keyed (some .blank) "true".toList [] x.eachWord_ranged (by decide +kernel)
    (by decide) (by decide) ?_
  refine .keyed (some .blank) "false".toList [] x.eachWord_ranged (by decide +kernel) (by decide)
    (by decide) ?_
  repeat refine .past x.shows_ranged (by decide +kernel) ?_
  exact .nil

/-- All rules together make the header with a range of the header as it is written. -/
theorem applyChars_python3 {glossary : Name.Glossary} {shared python3 : Ruleset}
    (readShared : Ruleset.shared glossary = .ok shared)
    (read : Ruleset.python3 shared = .ok python3)
    (idle : ∀ rule ∈ python3.rules, rule.isMatch (alone x.name) = false) :
    python3.applyChars x.declared = x.ranged :=
  x.yields_pythonFirstTable.applyChars_python3 x.yields_sharedTable x.yields_pythonLastTable
    (Sketch.not_mem_of_shows x.shows_declared (by decide +kernel)) readShared read idle

end HeaderParts

/-! ### Headers -/

/-- The characters of names but for `e`, `r` and `t`. Every word that a rule looks for has one of
these. -/
def Text.plainRanges : Ranges :=
  [(48, 57), (65, 90), (95, 95), (97, 100), (102, 113), (115, 115), (117, 122)]

/-- Plain names between two numbers. -/
def aloneSketch : Sketch :=
  exactly ['0', ' '] ++ ([.many plainRanges] ++ exactly [' ', '0'])

theorem Ruleset.skips_of_aloneSketch {s : List Char} (shown : Shows aloneSketch s) :
    Skips pythonFirstTable s ∧ Skips sharedTable s ∧ Skips pythonLastTable s := by
  refine ⟨?_, ?_, ?_⟩
  · unfold pythonFirstTable
    repeat refine .past shown (by decide +kernel) ?_
    exact .nil
  · unfold sharedTable
    repeat refine .past shown (by decide +kernel) ?_
    exact .nil
  · unfold pythonLastTable
    repeat refine .past shown (by decide +kernel) ?_
    exact .nil

namespace CountingLoop

/-- The parts of the header of a loop. -/
def parts (x : CountingLoop) (name : ClassDecl.isIdentifier x.var.toList = true) : HeaderParts where
  name := x.var.toList
  first := (toString x.start).toList
  test := x.test
  last := (toString x.bound).toList
  isName := Ruleset.isAsciiName_of_isIdentifier name
  isFirst := isNumber_toString x.start
  isLast := isNumber_toString x.bound

section Texts

variable (x : CountingLoop) (name : ClassDecl.isIdentifier x.var.toList = true)

theorem toList_header : x.header.toList = (x.parts name).declared := by
  change ("for (let " ++ x.var ++ " = " ++ toString x.start ++ "; " ++ x.var ++ " " ++
    x.test.sign ++ " " ++ toString x.bound ++ "; " ++ x.var ++ x.test.change ++ ") \x7b").toList = _
  have opening : "for (let ".toList = HeaderParts.opening ++ HeaderParts.declarer := by
    decide +kernel
  have equals : " = ".toList = [' ', '=', ' '] := by decide +kernel
  have semicolon : "; ".toList = [';', ' '] := by decide +kernel
  have space : " ".toList = [' '] := by decide +kernel
  have closing : ") \x7b".toList = [')', ' ', '{'] := by decide +kernel
  simp only [String.toList_append, opening, equals, semicolon, space, closing, HeaderParts.declared,
    HeaderParts.clauses, parts, List.append_assoc]

theorem toList_rangeHeader :
    (rangeHeader x.var x.start x.bound).toList = (x.parts name).ranged := by
  change ("for " ++ x.var ++ " in range(" ++ toString x.start ++ ", " ++
    toString x.bound ++ "):").toList = _
  have opening : "for ".toList = HeaderParts.opening := by decide +kernel
  have call : " in range(".toList = HeaderParts.ranger := by decide +kernel
  have comma : ", ".toList = [',', ' '] := by decide +kernel
  have closing : "):".toList = [')', ':'] := by decide +kernel
  simp only [String.toList_append, opening, call, comma, closing, HeaderParts.ranged, parts,
    List.append_assoc]

end Texts

theorem toList_alone (var : String) : ("0 " ++ var ++ " 0").toList = alone var.toList := by
  have before : "0 ".toList = ['0', ' '] := by decide +kernel
  have behind : " 0".toList = [' ', '0'] := by decide +kernel
  simp only [String.toList_append, before, behind, alone, List.append_assoc]

section Python

variable {glossary : Name.Glossary} {hierarchy : Hierarchy} {passes : Nat} {book : RuleBook}
  (made : RuleBook.make glossary hierarchy passes = .ok book)
include made

/-- No rule has anything against a plain name. -/
theorem pending_of_plain {var : String}
    (plain : (var.toList.all fun c => decide (plainRanges.Covers c.toNat)) = true) :
    book.python3.pending ("0 " ++ var ++ " 0") = [] := by
  have isMade := RuleBook.isMade_of_make made
  obtain ⟨first, tail, last, readFirst, readTail, readLast, same⟩ :=
    Ruleset.exists_parts_python3 isMade.shared isMade.python3
  have shown : Shows aloneSketch (alone var.toList) :=
    (shows_exactly _).append ((shows_many (by simpa using plain)).append (shows_exactly _))
  obtain ⟨skipFirst, skipTail, skipLast⟩ := Ruleset.skips_of_aloneSketch shown
  have dotless : '.' ∉ alone var.toList := Sketch.not_mem_of_shows shown (by decide +kernel)
  rw [Ruleset.pending_eq_nil_iff, toList_alone, same]
  intro rule mem
  simp only [Ruleset.concat, List.flatMap_cons, List.flatMap_nil, List.append_nil,
    List.mem_append] at mem
  rcases mem with inFirst | (inCalls | inTail) | inLast
  · exact skipFirst.not_isMatch readFirst rule inFirst
  · exact Name.Glossary.not_isMatch_callRules glossary dotless rule inCalls
  · exact skipTail.not_isMatch readTail rule inTail
  · exact skipLast.not_isMatch readLast rule inLast

/-- The header of a loop becomes the header with a range of the same two numbers. -/
theorem apply_header (x : CountingLoop) (name : ClassDecl.isIdentifier x.var.toList = true)
    (idle : book.python3.pending ("0 " ++ x.var ++ " 0") = []) :
    book.python3.apply x.header = rangeHeader x.var x.start x.bound := by
  have isMade := RuleBook.isMade_of_make made
  have none := Ruleset.pending_eq_nil_iff.mp idle
  rw [toList_alone] at none
  rw [Ruleset.apply, x.toList_header name,
    (x.parts name).applyChars_python3 isMade.shared isMade.python3 none,
    ← x.toList_rangeHeader name, String.ofList_toList]

/-- The result has the values of the loop only if it counts up to a bound that it does not reach, or
if there are none. -/
theorem python3_keeps_values_iff (x : CountingLoop)
    (name : ClassDecl.isIdentifier x.var.toList = true)
    (idle : book.python3.pending ("0 " ++ x.var ++ " 0") = []) :
    book.python3.apply x.header = rangeHeader x.var x.start x.bound ∧
      (rangeValues x.start x.bound = x.values ↔
        x.test = .below ∨ x.test = .upTo ∧ x.bound < x.start ∨ x.test = .above ∧
          x.start = x.bound) :=
  ⟨apply_header made x name idle, x.rangeValues_eq_iff⟩

end Python

theorem python3_keeps_values_iff_countdown :
    ∃ book, RuleBook.make (.ofNames Name.standard) .builtin RuleBook.standardPasses = .ok book ∧
      ClassDecl.isIdentifier "idx_0".toList = true ∧
        book.python3.pending ("0 " ++ "idx_0" ++ " 0") = [] ∧
      book.python3.apply (header ⟨"idx_0", 7, .downTo, -2⟩) = rangeHeader "idx_0" 7 (-2) ∧
      (rangeValues 7 (-2) = values ⟨"idx_0", 7, .downTo, -2⟩ ↔ LoopTest.downTo = .below ∨
        LoopTest.downTo = .upTo ∧ (-2 : Int) < 7 ∨ LoopTest.downTo = .above ∧ (7 : Int) = -2) := by
  obtain ⟨book, made, -⟩ := RuleBook.exists_make (.ofNames Name.standard) .builtin
    (show RuleBook.standardPasses ≠ 0 by decide)
  have name : ClassDecl.isIdentifier "idx_0".toList = true := by decide +kernel
  have idle : book.python3.pending ("0 " ++ "idx_0" ++ " 0") = [] :=
    pending_of_plain made (by decide +kernel)
  exact ⟨book, made, name, idle, python3_keeps_values_iff made ⟨"idx_0", 7, .downTo, -2⟩ name idle⟩

/-- A loop that reaches its bound loses its last value. -/
theorem python3_drops_last_value :
    ∃ book, RuleBook.make (.ofNames Name.standard) .builtin RuleBook.standardPasses = .ok book ∧
      book.python3.apply "for (let i = 0; i <= 5; i++) \x7b" = "for i in range(0, 5):" ∧
      values ⟨"i", 0, .upTo, 5⟩ = [0, 1, 2, 3, 4, 5] ∧ rangeValues 0 5 = [0, 1, 2, 3, 4] := by
  obtain ⟨book, made, -⟩ := RuleBook.exists_make (.ofNames Name.standard) .builtin
    (show RuleBook.standardPasses ≠ 0 by decide)
  have name : ClassDecl.isIdentifier "i".toList = true := by decide +kernel
  have idle : book.python3.pending ("0 " ++ "i" ++ " 0") = [] :=
    pending_of_plain made (by decide +kernel)
  have written : header ⟨"i", 0, .upTo, 5⟩ = "for (let i = 0; i <= 5; i++) \x7b" := by
    decide +kernel
  have result : rangeHeader "i" 0 5 = "for i in range(0, 5):" := by decide +kernel
  refine ⟨book, made, ?_, ?_, by decide⟩
  · rw [← written, ← result]
    exact apply_header made _ name idle
  · rw [values, LoopTest.values_eq]
    decide

end CountingLoop

end Polyglot
