import Polyglot.RuleBook
import Polyglot.Proofs.QualifiedNames
import Polyglot.Proofs.QuotedNames

/-!
Every pattern of the tables can be read, so there is a book of rules for every hierarchy, whatever
its names are, as soon as one level of nesting is to be reached (`RuleBook.exists_make`). All its
rules are spelled by their texts, and none has an empty match.
-/

namespace Polyglot

/-- The text of a rule is a pattern that matches as the rule does, and no match is empty. -/
structure Rule.IsRegular (r : Rule) : Prop where
  spelled : r.matcher.IsSpelled
  solid : r.matcher.pattern.nullable = false

theorem Rule.isSpelled_of_ofTexts {pattern template : String} {rule : Rule}
    (h : Rule.ofTexts pattern template = .ok rule) : rule.matcher.IsSpelled := by
  unfold Rule.ofTexts at h
  split at h
  · next m read =>
    cases h
    exact Matcher.isSpelled_of_ofSource read
  · cases h

theorem Rule.exists_ofTexts {s : List Char}
    (h : ((Pattern.ofSource s).toOption.any fun read => !read.1.nullable) = true)
    (template : String) :
    ∃ rule, Rule.ofTexts (String.ofList s) template = .ok rule ∧ rule.IsRegular := by
  obtain ⟨⟨p, names⟩, read, solid⟩ := (Option.any_eq_true _ _).mp h
  have made :
      Rule.ofTexts (String.ofList s) template = .ok ⟨⟨String.ofList s, p, names⟩, template⟩ := by
    rw [Rule.ofTexts, Matcher.ofSource, String.toList_ofList, eq_ok_of_toOption read]
    rfl
  exact ⟨_, made, Rule.isSpelled_of_ofTexts made, by simpa using solid⟩

namespace Ruleset

/-- The texts of all rules are patterns that match as the rules do. -/
def IsSpelled (c : Ruleset) : Prop :=
  ∀ rule ∈ c.rules, rule.matcher.IsSpelled

def IsRegular (c : Ruleset) : Prop :=
  ∀ rule ∈ c.rules, rule.IsRegular

theorem IsRegular.isSpelled {c : Ruleset} (h : c.IsRegular) : c.IsSpelled :=
  fun rule mem => (h rule mem).spelled

theorem IsRegular.concat {name : String} {parts : List Ruleset} (h : ∀ c ∈ parts, c.IsRegular) :
    (Ruleset.concat name parts).IsRegular := by
  intro rule mem
  obtain ⟨c, hc, mem⟩ := List.mem_flatMap.mp mem
  exact h c hc rule mem

/-- Where nothing is written, nothing is replaced. -/
theorem IsRegular.applyChars_nil {c : Ruleset} (h : c.IsRegular) : c.applyChars [] = [] := by
  obtain ⟨name, rules⟩ := c
  change rules.foldl (fun text rule => rule.apply text) [] = []
  induction rules with
  | nil => rfl
  | cons rule rules ih =>
    have here : rule.apply [] = [] := Pattern.replaceAll_nil (h rule List.mem_cons_self).solid
    rw [List.foldl_cons, here]
    exact ih fun other mem => h other (List.mem_cons_of_mem _ mem)

theorem isRegular_callRules (glossary : Name.Glossary) : glossary.callRules.IsRegular := by
  intro rule mem
  obtain ⟨e, -, rfl⟩ := List.mem_map.mp mem
  exact ⟨e.isSpelled_callRule, e.solid_callPattern⟩

/-! ### Tables -/

/-- Every pattern of the table can be read, and asks for at least one character. -/
def Readable (table : List (String × String)) : Prop :=
  ∀ row ∈ table, ∃ rule, Rule.ofTexts row.1 row.2 = .ok rule ∧ rule.IsRegular

theorem readable_nil : Readable [] :=
  List.forall_mem_nil _

-- The text of a literal is compared as a list of characters: taking it apart anew in the kernel
-- would be slow.
theorem readable_cons {s : List Char} {template : String} {table : List (String × String)}
    (first : ((Pattern.ofSource s).toOption.any fun read => !read.1.nullable) = true)
    (others : Readable table) :
    Readable ((String.ofList s, template) :: table) :=
  List.forall_mem_cons.mpr ⟨Rule.exists_ofTexts first template, others⟩

/-- The tables of every book. All their patterns can be read. -/
def tables : { ts : List (List (String × String)) // ∀ table ∈ ts, Readable table } where
  val :=
    [sharedTable, pythonFirstTable, pythonLastTable, phpFirstTable, phpMemberTable,
      phpStatementTable, phpLoopTable, phpJoinTable, phpCallTable, [hidePlaceholder],
      [restorePlaceholder], [(r"(\s)await(\s)", "${1}")],
      [braceLine, braceBlock, bracket]]
  property := by
    repeat
      refine List.forall_mem_cons.mpr ⟨?table, ?_⟩
      case table =>
        repeat refine readable_cons (by decide +kernel) ?_
        exact readable_nil
    exact List.forall_mem_nil _

theorem exists_ofTable (name : String) (table : List (String × String))
    (listed : table ∈ tables.1 := by simp [tables]) :
    ∃ c, ofTable name table = .ok c ∧ c.IsRegular := by
  have readable := tables.2 table listed
  obtain ⟨rules, read, -⟩ :=
    exists_mapM_eq_ok fun row mem => (readable row mem).imp fun _ => And.left
  refine ⟨⟨name, rules⟩,
    by rw [ofTable, read]; rfl, forall_mem_of_mapM read fun row mem rule made => ?_⟩
  obtain ⟨rule', made', regular⟩ := readable row mem
  exact Except.ok.inj (made.symm.trans made') ▸ regular

theorem exists_iterated (name : String) {row : String × String}
    (listed : row ∈ [braceLine, braceBlock, bracket]) (times : Nat) :
    ∃ c, iterated name row.1 row.2 times = .ok c ∧ c.IsRegular := by
  obtain ⟨rule, read, regular⟩ :=
    tables.2 [braceLine, braceBlock, bracket] (by simp [tables]) row listed
  refine ⟨⟨name, List.replicate times rule⟩, by rw [iterated, read]; rfl, fun rule' mem => ?_⟩
  exact List.eq_of_mem_replicate mem ▸ regular

theorem exists_phpStatements (hierarchy : Hierarchy) :
    ∃ c, phpStatements hierarchy = .ok c ∧ c.IsRegular := by
  obtain ⟨c, read, regular⟩ := exists_ofTable "php-statements" phpStatementTable
  by_cases none : hierarchy.isEmpty = true
  · refine ⟨c, ?_, regular⟩
    rw [phpStatements, read]
    exact if_pos none
  · refine ⟨c.push (errorNamesRule hierarchy.names), ?_, fun rule mem => ?_⟩
    · rw [phpStatements, read]
      exact if_neg none
    · rcases List.mem_append.mp mem with fixed | own
      · exact regular rule fixed
      · rw [List.mem_singleton.mp own]
        refine ⟨isSpelled_errorNamesRule fun unnamed => none ?_, solid_errorNamesRule⟩
        rw [Hierarchy.isEmpty, List.map_eq_nil_iff.mp unnamed]
        rfl

theorem exists_php {shared : Ruleset} (hshared : shared.IsRegular)
    (hierarchy : Hierarchy) (passes : Nat) :
    ∃ c, php shared hierarchy passes = .ok c ∧ c.IsRegular := by
  obtain ⟨hide, readHide, hhide⟩ := exists_ofTable "php-placeholders" [hidePlaceholder]
  obtain ⟨first, readFirst, hfirst⟩ := exists_ofTable "php-pre" phpFirstTable
  obtain ⟨members, readMembers, hmembers⟩ := exists_ofTable "php-member-access" phpMemberTable
  obtain ⟨lines, readLines, hlines⟩ := exists_iterated "php-brace-lines" List.mem_cons_self passes
  obtain ⟨statements, readStatements, hstatements⟩ := exists_phpStatements hierarchy
  obtain ⟨loops, readLoops, hloops⟩ := exists_ofTable "php-loops" phpLoopTable
  obtain ⟨blocks, readBlocks, hblocks⟩ :=
    exists_iterated "php-brace-blocks" (List.mem_cons_of_mem _ List.mem_cons_self) passes
  obtain ⟨joins, readJoins, hjoins⟩ := exists_ofTable "php-join" phpJoinTable
  obtain ⟨brackets, readBrackets, hbrackets⟩ :=
    exists_iterated "php-brackets"
      (List.mem_cons_of_mem _ (List.mem_cons_of_mem _ List.mem_cons_self)) passes
  obtain ⟨calls, readCalls, hcalls⟩ := exists_ofTable "php-library" phpCallTable
  refine ⟨concat "php"
    [hide, first, shared, members, lines, statements, loops, blocks, joins, brackets,
      calls], ?_, .concat ?_⟩
  · rw [php, readHide, readFirst, readMembers, readLines, readStatements, readLoops,
      readBlocks, readJoins, readBrackets, readCalls]
    rfl
  · simp only [List.forall_mem_cons]
    exact ⟨hhide, hfirst, hshared, hmembers, hlines, hstatements, hloops, hblocks, hjoins,
      hbrackets, hcalls, List.forall_mem_nil _⟩

theorem exists_python3 {shared : Ruleset} (hshared : shared.IsRegular) :
    ∃ c, python3 shared = .ok c ∧ c.IsRegular := by
  obtain ⟨first, readFirst, hfirst⟩ := exists_ofTable "python-pre" pythonFirstTable
  obtain ⟨last, readLast, hlast⟩ := exists_ofTable "python-post" pythonLastTable
  refine ⟨concat "python3" [first, shared, last], ?_, .concat ?_⟩
  · rw [python3, readFirst, readLast]
    rfl
  · simp only [List.forall_mem_cons]
    exact ⟨hfirst, hshared, hlast, List.forall_mem_nil _⟩

theorem exists_shared (glossary : Name.Glossary) : ∃ c, shared glossary = .ok c ∧ c.IsRegular := by
  obtain ⟨tail, readTail, htail⟩ := exists_ofTable "common-tail" sharedTable
  refine ⟨concat "common" [glossary.callRules, tail], ?_, .concat ?_⟩
  · rw [shared, readTail]
    rfl
  · simp only [List.forall_mem_cons]
    exact ⟨isRegular_callRules glossary, htail, List.forall_mem_nil _⟩

end Ruleset

namespace RuleBook

open Ruleset

/-- The rulesets of the book. -/
def rulesets (b : RuleBook) : List Ruleset :=
  [b.shared, b.python3, b.python2, b.php, b.phpRestore, b.collections]

/-- The book holds what is read from the tables. -/
structure IsMade (glossary : Name.Glossary) (hierarchy : Hierarchy) (passes : Nat) (b : RuleBook) :
    Prop where
  shared : Ruleset.shared glossary = .ok b.shared
  python3 : Ruleset.python3 b.shared = .ok b.python3
  python2 : Ruleset.python2 = .ok b.python2
  php : Ruleset.php b.shared hierarchy passes = .ok b.php
  phpRestore : Ruleset.phpRestore = .ok b.phpRestore
  collections : ofTable "php-collections" [braceLine, braceBlock, bracket] = .ok b.collections
  passes : b.passes = passes

theorem isMade_of_make {glossary : Name.Glossary} {hierarchy : Hierarchy} {passes : Nat}
    {book : RuleBook} (made : make glossary hierarchy passes = .ok book) :
    book.IsMade glossary hierarchy passes := by
  rw [make] at made
  split at made
  · cases made
  · obtain ⟨shared, readShared, made⟩ := exists_of_bind_ok made
    obtain ⟨python3, readPython3, made⟩ := exists_of_bind_ok made
    obtain ⟨python2, readPython2, made⟩ := exists_of_bind_ok made
    obtain ⟨php, readPhp, made⟩ := exists_of_bind_ok made
    obtain ⟨restore, readRestore, made⟩ := exists_of_bind_ok made
    obtain ⟨collections, readCollections, made⟩ := exists_of_bind_ok made
    obtain rfl := Except.ok.inj made
    exact ⟨readShared, readPython3, readPython2, readPhp, readRestore, readCollections, rfl⟩

/-- There is a book for every glossary and every hierarchy, whatever their names are. -/
theorem exists_make (glossary : Name.Glossary) (hierarchy : Hierarchy) {passes : Nat}
    (some : passes ≠ 0) : ∃ book, make glossary hierarchy passes = .ok book ∧ book.passes = passes ∧
      ∀ c ∈ book.rulesets, c.IsRegular := by
  obtain ⟨shared, readShared, hshared⟩ := exists_shared glossary
  obtain ⟨python3, readPython3, hpython3⟩ := exists_python3 hshared
  obtain ⟨python2, readPython2, hpython2⟩ := exists_ofTable "python2" [(r"(\s)await(\s)", "${1}")]
  obtain ⟨php, readPhp, hphp⟩ := exists_php hshared hierarchy passes
  obtain ⟨restore, readRestore, hrestore⟩ := exists_ofTable "php-placeholders" [restorePlaceholder]
  obtain ⟨collections, readCollections, hcollections⟩ :=
    exists_ofTable "php-collections" [braceLine, braceBlock, bracket]
  refine ⟨⟨shared, python3, python2, php, restore, collections, passes⟩, ?_, rfl, ?_⟩
  · -- Each ruleset is put in by name: nothing may unfold a table here.
    rw [make, if_neg some]
    exact bind_eq_ok readShared (bind_eq_ok readPython3 (bind_eq_ok readPython2 (bind_eq_ok readPhp
      (bind_eq_ok readRestore (bind_eq_ok readCollections rfl)))))
  · simp only [rulesets, List.forall_mem_cons]
    exact ⟨hshared, hpython3, hpython2, hphp, hrestore, hcollections, List.forall_mem_nil _⟩

end RuleBook

end Polyglot
