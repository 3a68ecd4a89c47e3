import Polyglot.Proofs.HollowClasses
import Polyglot.Proofs.RenamedCalls
import Polyglot.Proofs.Tables

/-!
Lists of numbers in PHP. Of all the rules of a book only the one for brackets has anything to find
in nested lists of numbers. So a literal is left in them exactly if they are nested more deeply than
the passes reach (`Render.Php.overflows_lists_iff`).
-/

namespace Polyglot

open Pattern Text
open Sketch (Shows shows_many not_mem_of_shows)

/-- The characters of lists of numbers and of what they are converted to. -/
def Text.listRanges : Ranges :=
  [(10, 10), (32, 32), (40, 41), (44, 44), (48, 57), (59, 59), (61, 61), (91, 91), (93, 93),
    (97, 97), (114, 114), (121, 121)]

/-! ### Rules that find nothing -/

namespace Ruleset

section Lists

variable {s : List Char} (shown : Shows [.many listRanges] s)
include shown

/-- The rules before those for lists. -/
theorem skips_lists : Skips phpFirstTable s ∧ Skips sharedTable s ∧ Skips phpStatementTable s ∧
    Skips phpLoopTable s ∧ Skips phpJoinTable s ∧ Skips [hidePlaceholder] s ∧ Skips [braceLine] s ∧
    Skips [braceBlock] s := by
  refine ⟨?_, ?_, ?_, ?_, ?_, ?_, ?_, ?_⟩
  · unfold phpFirstTable
    repeat refine .past shown (by decide +kernel) ?_
    exact .nil
  · unfold sharedTable
    repeat refine .past shown (by decide +kernel) ?_
    exact .nil
  · unfold phpStatementTable
    repeat refine .past shown (by decide +kernel) ?_
    exact .nil
  · unfold phpLoopTable
    repeat refine .past shown (by decide +kernel) ?_
    exact .nil
  · unfold phpJoinTable
    repeat refine .past shown (by decide +kernel) ?_
    exact .nil
  · exact .past shown (by decide +kernel) .nil
  · exact .past shown (by decide +kernel) .nil
  · exact .past shown (by decide +kernel) .nil

theorem skips_phpCallTable : Skips phpCallTable s := by
  unfold phpCallTable
  repeat refine .past shown (by decide +kernel) ?_
  exact .nil

theorem skips_phpMemberTable (full : occurs [.single '[', .single ']'] s = false) :
    Skips phpMemberTable s := by
  unfold phpMemberTable
  iterate 4 refine .past shown (by decide +kernel) ?_
  exact .lacking full (by decide +kernel) .nil

end Lists

theorem not_isMatch_errorNamesRule {s : List Char} (shown : Shows [.many listRanges] s) :
    (errorNamesRule Hierarchy.builtin.names).isMatch s = false :=
  isMatch_eq_false_of_sketch shown (by decide +kernel)

theorem applyChars_phpStatements {s : List Char} (shown : Shows [.many listRanges] s) {c : Ruleset}
    (read : phpStatements .builtin = .ok c) : c.applyChars s = s := by
  obtain ⟨statements, readStatements, read⟩ := exists_of_bind_ok read
  obtain rfl : statements.push (errorNamesRule Hierarchy.builtin.names) = c := Except.ok.inj read
  refine applyChars_of_not_isMatch fun rule mem => ?_
  rcases List.mem_append.mp mem with fixed | own
  · exact (skips_lists shown).2.2.1.not_isMatch readStatements rule fixed
  · rw [List.mem_singleton.mp own]
    exact not_isMatch_errorNamesRule shown

theorem applyChars_shared {s : List Char} (shown : Shows [.many listRanges] s)
    {glossary : Name.Glossary} {c : Ruleset} (read : shared glossary = .ok c) :
    c.applyChars s = s := by
  obtain ⟨tail, readTail, read⟩ := exists_of_bind_ok read
  obtain rfl := Except.ok.inj read
  have dotless : '.' ∉ s := not_mem_of_shows shown (by decide)
  rw [applyChars_concat, List.foldl_cons, List.foldl_cons, List.foldl_nil,
    applyChars_of_not_isMatch (glossary.not_isMatch_callRules dotless)]
  exact (skips_lists shown).2.1.applyChars readTail

end Ruleset

/-! ### Nested lists -/

/-- No delimiter of a literal stands directly before the other. -/
theorem Nest.isChain_text {f : Fence} (opens : f.edge f.opener = false)
    (closes : f.edge f.closer = false) {t : Nest} (ok : t.WellFormed f) :
    (t.text f).IsChain fun c d => ¬(c = f.opener ∧ d = f.closer) := by
  induction t with
  | nil => exact .nil
  | plain c t ih =>
    refine List.isChain_cons.mpr ⟨?_, ih ok.2⟩
    intro d _ both
    exact ok.1.1 both.1
  | literal s t ihs iht =>
    obtain ⟨fits, inside, behind⟩ := ok
    have first : ∀ d ∈ (s.text f).head?, d ≠ f.closer := by
      rintro d hd rfl
      have edge := fits.first
      rw [hd, Option.any_some, closes] at edge
      cases edge
    have last : ∀ d ∈ (s.text f).getLast?, d ≠ f.opener := by
      rintro d hd rfl
      have edge := fits.last
      rw [hd, Option.any_some, opens] at edge
      cases edge
    refine List.isChain_cons.mpr ⟨?_, List.isChain_append.mpr ⟨ihs inside, ?_, ?_⟩⟩
    · intro d hd both
      refine first d ?_ both.2
      rw [List.head?_append_of_ne_nil _ fits.ne_nil] at hd
      exact hd
    · refine List.isChain_cons.mpr ⟨?_, iht behind⟩
      intro d _ both
      exact f.differ both.1.symm
    · intro c hc d _ both
      exact last c hc both.1

/-- Converting delimiters brings no characters into a text but those of their replacements. -/
theorem Fence.forall_mem_of_swapped_eq (f : Fence) {P : Char → Prop} {s t : List Char}
    (own : ∀ c ∈ f.opener :: f.closer :: (f.before ++ f.after), P c)
    (same : f.swapped s = f.swapped t)
    (h : ∀ c ∈ t, P c) : ∀ c ∈ s, P c := by
  intro c hc
  by_cases opens : c = f.opener
  · exact own c (opens ▸ List.mem_cons_self)
  by_cases closes : c = f.closer
  · exact own c (closes ▸ List.mem_cons_of_mem _ List.mem_cons_self)
  have kept : c ∈ f.swapped s := by
    refine List.mem_flatMap.mpr ⟨c, hc, ?_⟩
    rw [swap, if_neg opens, if_neg closes]
    exact List.mem_singleton_self c
  rw [same] at kept
  obtain ⟨d, hd, mem⟩ := List.mem_flatMap.mp kept
  rw [swap] at mem
  split at mem
  · exact own c (List.mem_cons_of_mem _ (List.mem_cons_of_mem _ (List.mem_append_left _ mem)))
  · split at mem
    · exact own c (List.mem_cons_of_mem _ (List.mem_cons_of_mem _ (List.mem_append_right _ mem)))
    · exact List.mem_singleton.mp mem ▸ h d hd

theorem forall_covers_of_all {cs : Ranges} {s : List Char}
    (h : (s.all fun c => decide (cs.Covers c.toNat)) = true) :
    ∀ c ∈ s, cs.Covers c.toNat :=
  fun c hc => of_decide_eq_true (List.all_eq_true.mp h c hc)

/-- Lists of numbers that may be nested, in brackets. -/
structure Nest.IsLists (t : Nest) : Prop where
  wellFormed : t.WellFormed Literal.bracketed.fence
  listed : ∀ c ∈ t.text Literal.bracketed.fence, listRanges.Covers c.toNat

namespace Nest.IsLists

variable {t : Nest} (lists : t.IsLists)
include lists

theorem shows_text : Shows [.many listRanges] (t.text Literal.bracketed.fence) :=
  shows_many lists.listed

theorem not_occurs_empty :
    occurs [.single '[', .single ']'] (t.text Literal.bracketed.fence) = false := by
  refine Bool.eq_false_iff.mpr fun found => ?_
  obtain ⟨l, r, split, begins⟩ := occurs_iff.mp found
  have chain := t.isChain_text (by decide) (by decide) lists.wellFormed
  rw [split] at chain
  obtain ⟨r, rfl⟩ := (beginsWith_singles (w := ['[', ']'])).mp begins
  have behind := (List.isChain_append.mp chain).2.1
  exact (List.isChain_cons.mp behind).1 ']' rfl ⟨rfl, rfl⟩

/-- Each application of the rule for brackets takes a level away. -/
theorem exists_foldl_bracketed (n : Nat) :
    ∃ u : Nest, u.IsLists ∧ u.depth = t.depth - n ∧
      (List.replicate n Literal.bracketed.rule).foldl (fun s rule => rule.apply s)
      (t.text Literal.bracketed.fence) =
        u.text Literal.bracketed.fence := by
  obtain ⟨u, ok, depth, same, result⟩ := Literal.bracketed.converts.foldl_text lists.wellFormed n
  refine ⟨u, ⟨ok, ?_⟩, depth, result⟩
  exact Literal.bracketed.fence.forall_mem_of_swapped_eq (forall_covers_of_all (by decide))
    same lists.listed

/-- The rules for PHP do with lists what the rule for brackets does, as often as it stands among
them. -/
theorem applyChars_php {glossary : Name.Glossary} {passes : Nat} {book : RuleBook}
    (made : RuleBook.make glossary .builtin passes = .ok book) :
    book.php.applyChars (t.text Literal.bracketed.fence) =
      (List.replicate passes Literal.bracketed.rule).foldl (fun s rule => rule.apply s)
        (t.text Literal.bracketed.fence) := by
  have isMade := RuleBook.isMade_of_make made
  obtain ⟨hide, readHide, read⟩ := exists_of_bind_ok isMade.php
  obtain ⟨first, readFirst, read⟩ := exists_of_bind_ok read
  obtain ⟨members, readMembers, read⟩ := exists_of_bind_ok read
  obtain ⟨lines, readLines, read⟩ := exists_of_bind_ok read
  obtain ⟨statements, readStatements, read⟩ := exists_of_bind_ok read
  obtain ⟨loops, readLoops, read⟩ := exists_of_bind_ok read
  obtain ⟨blocks, readBlocks, read⟩ := exists_of_bind_ok read
  obtain ⟨joins, readJoins, read⟩ := exists_of_bind_ok read
  obtain ⟨brackets, readBrackets, read⟩ := exists_of_bind_ok read
  obtain ⟨calls, readCalls, read⟩ := exists_of_bind_ok read
  obtain ⟨u, behind, -, result⟩ := lists.exists_foldl_bracketed passes
  have converted : brackets.applyChars (t.text Literal.bracketed.fence) =
      u.text Literal.bracketed.fence := by
    have these := Except.ok.inj ((Literal.bracketed.iterated_rule _ passes).symm.trans readBrackets)
    rw [← these, ← result]
    rfl
  obtain ⟨hFirst, -, -, hLoops, hJoins, hHide, hLines, hBlocks⟩ :=
    Ruleset.skips_lists lists.shows_text
  have hMembers := Ruleset.skips_phpMemberTable lists.shows_text lists.not_occurs_empty
  -- The rules for calls come behind those for brackets.
  have hCalls := Ruleset.skips_phpCallTable behind.shows_text
  rw [← Except.ok.inj read, Ruleset.applyChars_concat, result]
  simp only [List.foldl_cons, List.foldl_nil]
  rw [hHide.applyChars readHide, hFirst.applyChars readFirst,
    Ruleset.applyChars_shared lists.shows_text isMade.shared, hMembers.applyChars readMembers,
    hLines.applyChars_iterated readLines, Ruleset.applyChars_phpStatements
      lists.shows_text readStatements,
    hLoops.applyChars readLoops, hBlocks.applyChars_iterated readBlocks,
      hJoins.applyChars readJoins, converted,
    hCalls.applyChars readCalls]

end Nest.IsLists

/-- What is left of lists without delimiters is no collection literal. -/
theorem Ruleset.skips_collections {s : List Char} (shown : Shows [.many listRanges] s)
    (free : '[' ∉ s) : Skips [braceLine, braceBlock, bracket] s := by
  refine .past shown (by decide +kernel)
    (.past shown (by decide +kernel) (.cons (fun rule read => ?_) .nil))
  obtain rfl : Literal.bracketed.rule = rule :=
    Except.ok.inj (Literal.bracketed.ofTexts_rule.symm.trans read)
  exact Bool.eq_false_iff.mpr fun found => free (Literal.opener_mem_of_isMatch found)

/-- A literal is left in lists exactly if they are nested more deeply than the passes reach. -/
theorem Render.Php.overflows_lists_iff {glossary : Name.Glossary} {passes : Nat} {book : RuleBook}
    (made : RuleBook.make glossary .builtin passes = .ok book) {t : Nest} (lists : t.IsLists) :
    (phpText book (String.ofList (t.text Literal.bracketed.fence)) []).2 =
    [] ↔ t.depth ≤ passes := by
  obtain ⟨u, behind, depth, result⟩ := lists.exists_foldl_bracketed passes
  have text : sigiled book (String.ofList (t.text Literal.bracketed.fence)) [] =
      u.text Literal.bracketed.fence := by
    change book.php.applyChars (String.ofList _).toList = _
    rw [String.toList_ofList, lists.applyChars_php made, result]
  rw [phpText, text, overflows_eq_nil_iff]
  constructor
  · intro none
    refine Nat.le_of_not_lt fun few => ?_
    have deep : 0 < u.depth := depth ▸ Nat.sub_pos_of_lt few
    have found := Literal.bracketed.converts.isMatch_text behind.wellFormed deep
    rw [none _ (Literal.bracketed.rule_mem_collections made)] at found
    cases found
  · intro enough
    have flat : u.depth = 0 := depth.trans (Nat.sub_eq_zero_of_le enough)
    have free : '[' ∉ u.text Literal.bracketed.fence := by
      rw [← Nest.swapped_text_of_depth _ behind.wellFormed flat]
      exact Fence.opener_not_mem_swapped _ _
    exact (Ruleset.skips_collections behind.shows_text free).not_isMatch
      (RuleBook.isMade_of_make made).collections

/-- A list in a list, as the only statement of a text. -/
def Nest.pair : Nest :=
  let inner := literal (ofChars " 1 ".toList) (ofChars [' '])
  (ofChars "a = ".toList).append (literal ((ofChars [' ']).append inner) (ofChars ['\n']))

theorem Nest.isLists_pair : pair.IsLists :=
  ⟨by decide +kernel, forall_covers_of_all (by decide +kernel)⟩

/-- One pass leaves the inner list open. -/
theorem Render.Php.overflows_pair {glossary : Name.Glossary} {book : RuleBook}
    (made : RuleBook.make glossary .builtin 1 = .ok book) :
    (phpText book "a = [ [ 1 ] ]\n" []).2 = ["a = array ( [ 1 ) ]"] := by
  have source : "a = [ [ 1 ] ]\n".toList = Nest.pair.text Literal.bracketed.fence := by
    decide +kernel
  have passed : Literal.bracketed.rule.apply (Nest.pair.text Literal.bracketed.fence) =
      "a = array ( [ 1 ) ]\n".toList := by decide +kernel
  have left :
      ((Ruleset.ofTable "php-collections" [Ruleset.braceLine, Ruleset.braceBlock,
        Ruleset.bracket]).toOption.all
      fun c => overflows { RuleBook.blank with collections := c } "a = array ( [ 1 ) ]\n".toList ==
        ["a = array ( [ 1 ) ]"]) = true := by
    decide +kernel
  rw [(RuleBook.isMade_of_make made).collections] at left
  change overflows book (book.php.applyChars "a = [ [ 1 ] ]\n".toList) = _
  rw [source, Nest.isLists_pair.applyChars_php made]
  change overflows book (Literal.bracketed.rule.apply _) = _
  rw [passed]
  exact beq_iff_eq.mp left

end Polyglot
