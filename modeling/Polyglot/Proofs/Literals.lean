import Polyglot.Proofs.Books
import Polyglot.Proofs.Nesting
import Polyglot.Proofs.Runs
import Polyglot.Render.PhpText

/-!
The rules for list literals in brackets and for literals in braces on one line. `Literal.converts`
says that each rule takes an opener together with the first closer behind it, so what `Nesting`
shows of such rules holds of both: the rule applied `n` times converts literals nested up to `n`
levels, and a text that is nested deeper keeps a match, which the search for lines that nest too
deeply finds.
-/

namespace Polyglot

open Text Pattern

/-- The kinds of literals that a rule converts level by level. -/
inductive Literal where
  | bracketed
  | braced
  deriving DecidableEq, Repr

namespace Literal

/-- The texts of the rule. -/
def row : Literal → String × String
  | bracketed => Ruleset.bracket
  | braced => Ruleset.braceLine

/-- A list in brackets has a blank at both ends and something between them that is not blank. A
literal in braces is not empty, and its text is one line. -/
def fence : Literal → Fence
  | bracketed =>
    { opener := '['
      closer := ']'
      before := "array (".toList
      after := [')']
      edge := isBlank
      core := fun c => !isBlank c
      inner := fun _ => true
      differ := by decide
      isClean := by decide
      inner_opener := rfl
      core_opener := by decide
      core_after := ⟨')', List.mem_singleton_self _, by decide⟩
      edge_closer := fun h => absurd h (by decide) }
  | braced =>
    { opener := '\x7b'
      closer := '\x7d'
      before := "array(".toList
      after := [')']
      edge := fun _ => true
      core := fun _ => true
      inner := fun c => c != '\n'
      differ := by decide
      isClean := by decide
      inner_opener := by decide
      core_opener := rfl
      core_after := ⟨')', List.mem_singleton_self _, rfl⟩
      edge_closer := fun _ _ => rfl }

/-- The pattern of the group between the delimiters. -/
def body : Literal → Pattern
  | bracketed =>
    seqAll [char .blank, plus false (char (.compl (.ofItems [.single ']']))), char .blank]
  | braced => plus true (char (.compl (.ofItems [.single '\n', .single '\x7d'])))

def pattern (l : Literal) : Pattern :=
  seqAll [char (.single l.fence.opener), group 1 l.body, char (.single l.fence.closer)]

theorem pattern_spelled (l : Literal) :
    (Pattern.ofSource l.row.1.toList).toOption = some (l.pattern, []) := by
  cases l <;> decide +kernel

def rule (l : Literal) : Rule :=
  ⟨⟨l.row.1, l.pattern, []⟩, l.row.2⟩

theorem ofTexts_rule (l : Literal) : Rule.ofTexts l.row.1 l.row.2 = .ok l.rule := by
  have read : Matcher.ofSource l.row.1 = .ok ⟨l.row.1, l.pattern, []⟩ := by
    rw [Matcher.ofSource, eq_ok_of_toOption l.pattern_spelled]
    rfl
  rw [Rule.ofTexts, read]
  rfl

/-! ### One match -/

/-- The texts that the group matches. -/
def IsBody : Literal → List Char → Prop
  | bracketed, w =>
    ∃ b x b', w = b :: (x ++ [b']) ∧ isBlank b = true ∧ isBlank b' = true ∧ x ≠ [] ∧ ']' ∉ x
  | braced, w => w ≠ [] ∧ '\n' ∉ w ∧ '\x7d' ∉ w

theorem has_notClosing (c : Char) :
    (CharSet.compl (.ofItems [.single ']'])).has c = true ↔ c ≠ ']' := by
  simp [CharSet.ofItems]

theorem has_lineNotClosing (c : Char) :
    (CharSet.compl (.ofItems [.single '\n', .single '\x7d'])).has c = true ↔
      c ≠ '\n' ∧ c ≠ '\x7d' := by
  simp [CharSet.ofItems]

theorem past_bordered (c : Cursor) (b : Char) (x : List Char) (b' : Char) :
    ((c.past [b]).past x).past [b'] = c.past (b :: (x ++ [b'])) := by
  rw [Cursor.past_past, Cursor.past_past]
  rfl

theorem mem_ways_bracketed {c e : Cursor} :
    e ∈ bracketed.body.ways c ↔ ∃ w r, c.rest = w ++ r ∧ bracketed.IsBody w ∧ e = c.past w := by
  constructor
  · intro mem
    obtain ⟨b, r, hr, rest, blank, mem⟩ := mem_ways_char_cons mem
    obtain ⟨x, r', full, hr', rest', allowed, mem⟩ := mem_ways_plus_cons mem
    obtain ⟨b', r'', hr'', blank', rfl⟩ := mem_ways_char.mp mem
    refine ⟨b :: (x ++ [b']), r'', ?_, ⟨b, x, b', rfl, blank, blank', full, fun inside => ?_⟩, ?_⟩
    · rw [hr, ← rest, hr', ← rest', hr'']
      simp
    · exact (has_notClosing _).mp (allowed _ inside) rfl
    · exact past_bordered c b x b'
  · rintro ⟨w, r, hr, ⟨b, x, b', rfl, blank, blank', full, free⟩, rfl⟩
    have allowed : ∀ d ∈ x, (CharSet.compl (.ofItems [.single ']'])).has d = true := fun d hd =>
      (has_notClosing d).mpr fun same => free (same ▸ hd)
    have start : c.rest = [b] ++ (x ++ b' :: r) := by simpa using hr
    have middle : (c.past [b]).rest = x ++ b' :: r := Cursor.rest_past start
    have finish : ((c.past [b]).past x).rest = b' :: r := Cursor.rest_past middle
    rw [body, ways_seqAll_cons, ← past_bordered]
    refine List.mem_flatMap.mpr ⟨_, mem_ways_char.mpr ⟨b, _, start, blank, rfl⟩, ?_⟩
    rw [ways_seqAll_cons]
    exact List.mem_flatMap.mpr ⟨_, mem_ways_plus_char.mpr ⟨x, _, full, middle, allowed, rfl⟩,
      mem_ways_char.mpr ⟨b', r, finish, blank', rfl⟩⟩

theorem mem_ways_braced {c e : Cursor} :
    e ∈ braced.body.ways c ↔ ∃ w r, c.rest = w ++ r ∧ braced.IsBody w ∧ e = c.past w := by
  rw [body, mem_ways_plus_char]
  constructor
  · rintro ⟨w, r, full, hr, allowed, rfl⟩
    refine ⟨w, r, hr, ⟨full, fun inside => ?_, fun inside => ?_⟩, rfl⟩
    · exact ((has_lineNotClosing _).mp (allowed _ inside)).1 rfl
    · exact ((has_lineNotClosing _).mp (allowed _ inside)).2 rfl
  · rintro ⟨w, r, hr, ⟨full, oneLine, free⟩, rfl⟩
    refine ⟨w, r, full, hr, fun d hd => (has_lineNotClosing d).mpr ⟨?_, ?_⟩, rfl⟩
    · exact fun same => oneLine (same ▸ hd)
    · exact fun same => free (same ▸ hd)

theorem mem_ways_body {l : Literal} {c e : Cursor} :
    e ∈ l.body.ways c ↔ ∃ w r, c.rest = w ++ r ∧ l.IsBody w ∧ e = c.past w := by
  cases l with
  | bracketed => exact mem_ways_bracketed
  | braced => exact mem_ways_braced

theorem closer_not_mem {l : Literal} {w : List Char} (h : l.IsBody w) : l.fence.closer ∉ w := by
  cases l with
  | bracketed =>
    obtain ⟨b, x, b', rfl, blank, blank', -, free⟩ := h
    have other {d : Char} (hd : isBlank d = true) : ']' ≠ d := by
      rintro rfl
      exact absurd hd (by decide)
    change ']' ∉ b :: (x ++ [b'])
    simp [other blank, other blank', free]
  | braced => exact h.2.2

/-- What a literal may hold is what the group matches. -/
theorem isBody_of_fits {l : Literal} {w : List Char} (taken : l.fence.Taken w)
    (content : l.fence.Fits w) : l.IsBody w := by
  cases l with
  | bracketed =>
    obtain ⟨b, v, rfl⟩ := List.exists_cons_of_ne_nil content.ne_nil
    have blank : isBlank b = true := content.first
    obtain ⟨d, mem, visible⟩ := content.core
    have visible : isBlank d = false := by simpa [fence] using visible
    have later {a : Char} {u : List Char} (mem : d ∈ a :: u) (ha : isBlank a = true) : d ∈ u := by
      rcases List.mem_cons.mp mem with rfl | mem
      · exact absurd ha (by simp [visible])
      · exact mem
    have inside := later mem blank
    obtain ⟨x, b', rfl⟩ := (List.eq_nil_or_concat' v).resolve_left (List.ne_nil_of_mem inside)
    have blank' : isBlank b' = true := by
      have last := content.last
      rw [← List.cons_append, List.getLast?_concat] at last
      exact last
    refine ⟨b, x, b', rfl, blank, blank', ?_, fun closing => taken.noCloser ?_⟩
    · rintro rfl
      cases later inside blank'
    · exact List.mem_cons_of_mem b (List.mem_append_left [b'] closing)
  | braced =>
    refine ⟨content.ne_nil, fun mem => ?_, taken.noCloser⟩
    exact absurd (taken.inner _ mem) (by decide)

theorem mem_ways_pattern {l : Literal} {c e : Cursor} :
    e ∈ l.pattern.ways c ↔ ∃ w r, c.rest = l.fence.opener ::
      (w ++ l.fence.closer :: r) ∧ l.IsBody w ∧ e =
      ((c.past [l.fence.opener]).noting 1 w).past [l.fence.closer] := by
  constructor
  · intro mem
    obtain ⟨d, r, hr, rest, opens, mem⟩ := mem_ways_char_cons mem
    obtain rfl : d = l.fence.opener := by simpa using opens
    rw [ways_group_cons] at mem
    obtain ⟨e', inside, mem⟩ := List.mem_flatMap.mp mem
    obtain ⟨w, r', hr', isBody, rfl⟩ := mem_ways_body.mp inside
    rw [Cursor.leave_past_enter] at mem
    obtain ⟨d', r'', hr'', closes, rfl⟩ := mem_ways_char.mp mem
    obtain rfl : d' = l.fence.closer := by simpa using closes
    have behind : r = w ++ r' := rest.symm.trans hr'
    have last : r' = l.fence.closer :: r'' := (Cursor.rest_noting 1 hr').symm.trans hr''
    exact ⟨w, r'', by rw [hr, behind, last], isBody, rfl⟩
  · rintro ⟨w, r, hr, isBody, rfl⟩
    have start : c.rest = [l.fence.opener] ++ (w ++ l.fence.closer :: r) := hr
    have middle : (c.past [l.fence.opener]).rest = w ++ l.fence.closer :: r :=
      Cursor.rest_past start
    have finish := Cursor.rest_noting 1 middle
    rw [pattern, ways_seqAll_cons]
    refine List.mem_flatMap.mpr ⟨_, mem_ways_char.mpr ⟨_, _, hr, by simp, rfl⟩, ?_⟩
    rw [ways_group_cons]
    refine List.mem_flatMap.mpr ⟨_, mem_ways_body.mpr ⟨w, _, middle, isBody, rfl⟩, ?_⟩
    rw [Cursor.leave_past_enter]
    exact mem_ways_char.mpr ⟨_, r, finish, by simp, rfl⟩

theorem isTame_pattern (l : Literal) : l.pattern.isTame = true := by
  cases l <;> decide

theorem looks_pattern (l : Literal) : l.pattern.looks = false := by
  cases l <;> decide

theorem solid_pattern (l : Literal) : l.pattern.nullable = false := by
  cases l <;> decide

theorem parts_template (l : Literal) : Template.parts l.row.2.toList =
    l.fence.before.map .char ++ (.group 1 :: l.fence.after.map .char) := by
  cases l <;> decide +kernel

theorem matchAt_of_ne {l : Literal} {c : Char} (s : List Char) (other : c ≠ l.fence.opener) :
    l.pattern.matchAt none (c :: s) = none := by
  refine Option.not_isSome_iff_eq_none.mp fun found => ?_
  obtain ⟨e, mem⟩ := (isSome_matchAt_iff l.isTame_pattern).mp found
  obtain ⟨w, r, hr, -⟩ := mem_ways_pattern.mp mem
  exact other (List.cons.inj hr).1

/-- The match that begins at an opener ends at the first closer. -/
theorem matchAt_opener {l : Literal} {w : List Char} (isBody : l.IsBody w) (s : List Char) :
    l.pattern.matchAt none (l.fence.opener :: (w ++ l.fence.closer :: s)) =
      some ⟨l.fence.opener :: (w ++ [l.fence.closer]), [(1, w)]⟩ := by
  let c := Cursor.start none (l.fence.opener :: (w ++ l.fence.closer :: s))
  have some_way : ((c.past [l.fence.opener]).noting 1 w).past [l.fence.closer] ∈ l.pattern.ways c :=
    mem_ways_pattern.mpr ⟨w, s, rfl, isBody, rfl⟩
  -- The group may be lazy, but no two ways end at different closers.
  have only (e : Cursor) (mem : e ∈ l.pattern.ways c) :
      e = ((c.past [l.fence.opener]).noting 1 w).past [l.fence.closer] := by
    obtain ⟨v, r, hr, isBody', rfl⟩ := mem_ways_pattern.mp mem
    have same : w ++ l.fence.closer :: s = v ++ l.fence.closer :: r := (List.cons.inj hr).2
    rw [(split_unique (closer_not_mem isBody) (closer_not_mem isBody') same).1]
  rw [matchAt_eq_ways l.isTame_pattern]
  change (l.pattern.ways c).head?.map Cursor.toMatch = _
  obtain ⟨e, es, ways⟩ := List.exists_cons_of_ne_nil (List.ne_nil_of_mem some_way)
  have first := only e (ways ▸ List.mem_cons_self)
  rw [ways, List.head?_cons, first]
  rfl

theorem expand_template (l : Literal) (m : Match) :
    Template.expand [] (Template.parts l.row.2.toList) m = l.fence.before ++
      (m.group 1 ++ l.fence.after) := by
  rw [l.parts_template, Template.expand_append, Template.expand_chars]
  refine congrArg (l.fence.before ++ ·) ?_
  change m.group 1 ++ Template.expand [] (l.fence.after.map .char) m = _
  rw [Template.expand_chars]

theorem converts (l : Literal) : l.fence.Converts l.rule where
  tame := l.isTame_pattern
  blind := l.looks_pattern
  solid := l.solid_pattern
  miss _ s other := matchAt_of_ne s other
  hit w s taken content := by
    have isBody := isBody_of_fits taken content
    exact ⟨_, matchAt_opener isBody s, rfl, l.expand_template _⟩

/-! ### The rule several times over -/

theorem iterated_rule (l : Literal) (name : String) (n : Nat) :
    Ruleset.iterated name l.row.1 l.row.2 n = .ok ⟨name, List.replicate n l.rule⟩ := by
  rw [Ruleset.iterated, l.ofTexts_rule]
  rfl

/-- A text without openers has no match. -/
theorem opener_mem_of_isMatch {l : Literal} {s : List Char} (h : l.rule.isMatch s = true) :
    l.fence.opener ∈ s := by
  obtain ⟨u, v, rfl, found⟩ := isMatch_iff.mp h
  obtain ⟨e, mem⟩ := (isSome_matchAt_iff l.isTame_pattern).mp found
  obtain ⟨w, r, hr, -⟩ := mem_ways_pattern.mp mem
  have begins : v = l.fence.opener :: (w ++ l.fence.closer :: r) := hr
  rw [begins]
  exact List.mem_append_right u List.mem_cons_self

end Literal

/-! ### The lines that nest too deeply -/

theorem Pattern.starts_eq_nil_iff {p : Pattern} {s : List Char} :
    p.starts s = [] ↔ p.isMatch s = false := by
  have counted (pieces : List Piece) (n : Nat) :
      starts.go n pieces = [] ↔ pieces.filterMap Piece.match? = [] := by
    induction pieces generalizing n with
    | nil => exact iff_of_true rfl rfl
    | cons piece pieces ih =>
      cases piece with
      | copy c => exact ih (n + 1)
      | hit m => exact iff_of_false (List.cons_ne_nil _ _) (List.cons_ne_nil _ _)
  rw [isMatch, findAll, Bool.not_eq_false', List.isEmpty_iff]
  exact counted (p.scan s) 0

theorem Ruleset.mem_of_ofTable {name : String} {table : List (String × String)} {c : Ruleset}
    (h : ofTable name table = .ok c) {row : String × String} (listed : row ∈ table) {rule : Rule}
    (read : Rule.ofTexts row.1 row.2 = .ok rule) : rule ∈ c.rules := by
  obtain ⟨rules, all, made⟩ := exists_of_bind_ok h
  obtain rfl : ⟨name, rules⟩ = c := Except.ok.inj made
  have pairs := forall₂_of_mapM all
  clear h all made
  induction pairs with
  | nil => cases listed
  | cons first _ ih =>
    rcases List.mem_cons.mp listed with rfl | later
    · rw [Except.ok.inj (read.symm.trans first)]
      exact List.mem_cons_self
    · exact List.mem_cons_of_mem _ (ih later)

theorem Literal.rule_mem_collections {glossary : Name.Glossary}
    {hierarchy : Hierarchy} {passes : Nat} {book : RuleBook}
    (made : RuleBook.make glossary hierarchy passes = .ok book) (l : Literal) :
    l.rule ∈ book.collections.rules := by
  refine Ruleset.mem_of_ofTable (RuleBook.isMade_of_make made).collections ?_ l.ofTexts_rule
  cases l with
  | bracketed => exact List.mem_cons_of_mem _ (List.mem_cons_of_mem _ List.mem_cons_self)
  | braced => exact List.mem_cons_self

/-- A line is found exactly if one of the rules for collection literals matches. -/
theorem Render.Php.overflows_eq_nil_iff {book : RuleBook} {s : List Char} :
    overflows book s = [] ↔ ∀ rule ∈ book.collections.rules, rule.isMatch s = false := by
  simp only [List.eq_nil_iff_forall_not_mem, overflows, List.mem_eraseDups]
  simp only [← List.eq_nil_iff_forall_not_mem, List.flatMap_eq_nil_iff, List.map_eq_nil_iff,
    starts_eq_nil_iff]
  rfl

theorem Render.Php.overflows_ne_nil {book : RuleBook} {rule : Rule}
    (listed : rule ∈ book.collections.rules) {s : List Char} (h : rule.isMatch s = true) :
    overflows book s ≠ [] := by
  intro none
  rw [overflows_eq_nil_iff.mp none rule listed] at h
  cases h

/-! ### How far the rules reach -/

/-- The rule applied `n` times converts every literal of a text exactly if none is nested more than
`n` levels deep. Otherwise the rule still matches, and a line is found that nests too deeply. -/
theorem Literal.iterated_reaches_depth (l : Literal) (name : String) {t : Nest}
    (ok : t.WellFormed l.fence) (n : Nat) :
    ∃ rule rules, Rule.ofTexts l.row.1 l.row.2 = .ok rule ∧
      Ruleset.iterated name l.row.1 l.row.2 n = .ok rules ∧
      (t.depth ≤ n → rules.applyChars (t.text l.fence) = l.fence.swapped (t.text l.fence)) ∧
      (rule.isMatch (rules.applyChars (t.text l.fence)) = true ↔ n < t.depth) ∧
      ∀ glossary hierarchy passes book, RuleBook.make glossary hierarchy passes = .ok book →
        n < t.depth → Render.Php.overflows book (rules.applyChars (t.text l.fence)) ≠ [] := by
  have converted (enough : t.depth ≤ n) :
      Ruleset.applyChars ⟨name, List.replicate n l.rule⟩ (t.text l.fence) =
      l.fence.swapped (t.text l.fence) :=
    l.converts.foldl_eq_swapped ok enough
  have left (few : n < t.depth) :
      l.rule.isMatch (Ruleset.applyChars ⟨name, List.replicate n l.rule⟩ (t.text l.fence)) = true :=
    l.converts.isMatch_foldl ok few
  refine ⟨l.rule, _, l.ofTexts_rule, l.iterated_rule name n, converted, ⟨fun found => ?_, left⟩, ?_⟩
  · refine Nat.lt_of_not_le fun enough => ?_
    have opens := opener_mem_of_isMatch found
    rw [converted enough] at opens
    exact l.fence.opener_not_mem_swapped _ opens
  · intro glossary hierarchy passes book made few
    exact Render.Php.overflows_ne_nil (rule_mem_collections made l) (left few)

/-- A literal with two others in it, side by side and of different depth. -/
def Nest.siblings : Nest :=
  let deep := literal (ofChars " b ".toList) (ofChars ", c ".toList)
  let second := literal ((ofChars [' ']).append deep) (ofChars [' '])
  let first := literal (ofChars " a ".toList) ((ofChars ", ".toList).append second)
  (ofChars "x = ".toList).append (literal ((ofChars [' ']).append first) (ofChars [';']))

/-- Three levels are converted in three applications, and two applications leave a match. -/
theorem Literal.iterated_reaches_depth_siblings :
    Nest.siblings.WellFormed bracketed.fence ∧ Nest.siblings.WellFormed braced.fence ∧
    (∃ rules, Ruleset.iterated "lists" Ruleset.bracket.1 Ruleset.bracket.2 3 = .ok rules ∧
      rules.applyChars "x = [ [ a ], [ [ b ], c ] ];".toList =
        "x = array ( array ( a ), array ( array ( b ), c ) );".toList) ∧
    ∃ rule rules, Rule.ofTexts Ruleset.braceLine.1 Ruleset.braceLine.2 = .ok rule ∧
      Ruleset.iterated "maps" Ruleset.braceLine.1 Ruleset.braceLine.2 2 = .ok rules ∧
      rule.isMatch (rules.applyChars
        "x = \x7b \x7b a \x7d, \x7b \x7b b \x7d, c \x7d \x7d;".toList) = true := by
  have lists : Nest.siblings.WellFormed bracketed.fence := by decide +kernel
  have maps : Nest.siblings.WellFormed braced.fence := by decide +kernel
  have depth : Nest.siblings.depth = 3 := by decide +kernel
  refine ⟨lists, maps, ?_, ?_⟩
  · obtain ⟨-, rules, -, made, converted, -⟩ := bracketed.iterated_reaches_depth "lists" lists 3
    have text : Nest.siblings.text bracketed.fence = "x = [ [ a ], [ [ b ], c ] ];".toList := by
      decide +kernel
    have result : bracketed.fence.swapped (Nest.siblings.text bracketed.fence) =
        "x = array ( array ( a ), array ( array ( b ), c ) );".toList := by decide +kernel
    have shown := (converted (Nat.le_of_eq depth)).trans result
    rw [text] at shown
    exact ⟨rules, made, shown⟩
  · obtain ⟨rule, rules, read, made, -, left, -⟩ := braced.iterated_reaches_depth "maps" maps 2
    have text : Nest.siblings.text braced.fence =
        "x = \x7b \x7b a \x7d, \x7b \x7b b \x7d, c \x7d \x7d;".toList := by decide +kernel
    have few : 2 < Nest.siblings.depth := by
      rw [depth]
      decide
    rw [text] at left
    exact ⟨rule, rules, read, made, left.mpr few⟩

end Polyglot
