import Polyglot.Class.Source
import Polyglot.Proofs.MarkedWords
import Polyglot.Proofs.Replacement
import Polyglot.Proofs.Spelling
import Polyglot.Ruleset.Php

/-!
The rules that give variables their sigils. A rule takes a name together with the characters around
it, so an occurrence right behind another is passed by. `apply_sigilRule` says so in terms of
`Sigil.mark`: where the rule finds a name, the word gets its mark. Two rounds of the rules are then
one insertion of all sigils (`applyChars_sigils`).
-/

namespace Polyglot

namespace Ruleset

open Text Pattern Sigil

/-! ### One match -/

/-- The characters that the first group allows before a name. -/
def leftSet : CharSet :=
  .compl (.ofItems ([.single '$'] ++ letterOrDigit ++
    [.single '.', .single '>', .single '\'', .single '_', .single '/']))

/-- The characters that the second group allows behind a name. -/
def rightSet : CharSet :=
  .compl (.ofItems (letterOrDigit ++ [.single '\'', .single '_', .single '/']))

theorem has_leftSet (c : Char) : leftSet.has c = opens c := by
  rw [Bool.eq_iff_iff]
  simp [leftSet, CharSet.ofItems, letterOrDigit, opens, isAsciiWord, isAsciiLetter,
    isAsciiDigit, CharSet.has]
  grind

theorem has_rightSet (c : Char) : rightSet.has c = closes c := by
  rw [Bool.eq_iff_iff]
  simp [rightSet, CharSet.ofItems, letterOrDigit, closes, isAsciiWord, isAsciiLetter,
    isAsciiDigit, CharSet.has]
  grind

/-- The part of the pattern behind the first group. -/
def nameThen (name : List Char) : List Pattern :=
  chars name ++ [group 2 (char rightSet)]

theorem sigilPattern_eq (name : String) : (sigilRule name).matcher.pattern =
    seqAll (group 1 (alt (look .textStart) (char leftSet)) :: nameThen name.toList) := by
  rfl

theorem isTame_sigilPattern (name : String) : (sigilRule name).matcher.pattern.isTame = true := by
  simp [sigilPattern_eq, nameThen, isTame]

theorem solid_sigilPattern (name : String) : (sigilRule name).matcher.pattern.nullable = false := by
  simp [sigilPattern_eq, nameThen, nullable]

theorem ways_nameThen {c : Cursor} {name r : List Char} {d : Char} (hd : closes d = true)
    (h : c.rest = name ++ d :: r) :
    (seqAll (nameThen name)).ways c = [(c.past name).noting 2 [d]] := by
  have behind : (c.past name).enter.rest = d :: r := Cursor.rest_past h
  have allowed : rightSet.has d = true := by rw [has_rightSet, hd]
  rw [nameThen, ways_chars_append h, ways_group_cons, ways_char behind allowed,
    List.flatMap_singleton, Cursor.leave_past_enter]
  rfl

theorem begins_of_mem_ways {c e : Cursor} {name : List Char}
    (mem : e ∈ (seqAll (nameThen name)).ways c) : Begins name c.rest := by
  obtain ⟨r, h, behind, mem⟩ := mem_ways_chars_append mem
  rw [ways_group_cons] at mem
  obtain ⟨e', inside, -⟩ := List.mem_flatMap.mp mem
  obtain ⟨d, r', hr, allowed, -⟩ := mem_ways_char.mp inside
  rw [has_rightSet] at allowed
  have rest : r = d :: r' := behind.symm.trans hr
  exact ⟨d, r', by rw [h, rest], allowed⟩

theorem ways_nameThen_eq_nil {c : Cursor} {name : List Char} (h : ¬ Begins name c.rest) :
    (seqAll (nameThen name)).ways c = [] :=
  List.eq_nil_iff_forall_not_mem.mpr fun _ mem => h (begins_of_mem_ways mem)

/-- The two alternatives of the first group: the start of the text, and a character. -/
theorem ways_sigilPattern (name : String) (c : Cursor) : (sigilRule name).matcher.pattern.ways c =
    (if c.before = none then (seqAll (nameThen name.toList)).ways (c.noting 1 []) else []) ++
      ((char leftSet).ways c.enter).flatMap fun d =>
      (seqAll (nameThen name.toList)).ways (c.leave 1 d) := by
  rw [sigilPattern_eq, ways_edge_cons]

/-- The text behind a character, as the rule of a name leaves it. -/
def scanned (name : String) (before : Option Char) (s : List Char) : List Char :=
  (sigilRule name).matcher.pattern.replaceFrom
    (Template.expand [] (Template.parts (sigilRule name).template.toList)) before s

section Name

variable {name : String} (isName : IsAsciiName name.toList)

/-- A rule matches a name that stands alone, at the start of a text or behind a character. -/
theorem of_matchAt {before : Option Char} {s : List Char} {m : Match}
    (found : (sigilRule name).matcher.pattern.matchAt before s = some m) :
    (before = none ∧ Begins name.toList s) ∨ ∃ l t, s = l :: t ∧ opens l = true ∧
    Begins name.toList t := by
  obtain ⟨e, mem⟩ :=
    (isSome_matchAt_iff (isTame_sigilPattern name)).mp (Option.isSome_of_eq_some found)
  rw [ways_sigilPattern] at mem
  rcases List.mem_append.mp mem with atStart | behind
  · left
    split at atStart
    · next start => exact ⟨start, begins_of_mem_ways atStart⟩
    · cases atStart
  · right
    obtain ⟨d, hd, behind⟩ := List.mem_flatMap.mp behind
    obtain ⟨l, t, hs, allowed, rfl⟩ := mem_ways_char.mp hd
    rw [has_leftSet] at allowed
    refine ⟨l, t, hs, allowed, ?_⟩
    have begins := begins_of_mem_ways behind
    rw [Cursor.leave_past_enter, Cursor.rest_noting 1 (r := t) hs] at begins
    exact begins

theorem matchAt_start {d : Char} (hd : closes d = true) (r : List Char) :
    (sigilRule name).matcher.pattern.matchAt none (name.toList ++ d :: r) =
      some ⟨name.toList ++ [d], [(2, [d]), (1, [])]⟩ := by
  have here : ((Cursor.start none (name.toList ++ d :: r)).noting 1 []).rest =
    name.toList ++ d :: r := rfl
  rw [matchAt_eq_ways (isTame_sigilPattern name), ways_sigilPattern,
    Cursor.before_start, if_pos rfl, ways_nameThen hd here]
  rfl

include isName

theorem matchAt_behind {l d : Char} (hl : opens l = true) (hd : closes d = true)
    (before : Option Char) (r : List Char) :
    (sigilRule name).matcher.pattern.matchAt before (l :: (name.toList ++ d :: r)) =
      some ⟨l :: (name.toList ++ [d]), [(2, [d]), (1, [l])]⟩ := by
  have outside : isAsciiWord l = false := by
    simp only [opens, Bool.and_eq_true, Bool.not_eq_true'] at hl
    exact hl.1
  have allowed : leftSet.has l = true := by rw [has_leftSet, hl]
  let c := Cursor.start before (l :: (name.toList ++ d :: r))
  have first : (if c.before = none then
      (seqAll (nameThen name.toList)).ways (c.noting 1 []) else []) = [] := by
    rw [ways_nameThen_eq_nil (not_begins_cons isName outside _), ite_self]
  have second : (char leftSet).ways c.enter = [c.enter.past [l]] := ways_char rfl allowed
  have here : (c.noting 1 [l]).rest = name.toList ++ d :: r := rfl
  rw [matchAt_eq_ways (isTame_sigilPattern name), ways_sigilPattern, first, second, List.nil_append,
    List.flatMap_singleton, Cursor.leave_past_enter, ways_nameThen hd here]
  rfl

omit isName in
/-- The template puts a dollar before the name and keeps both groups. -/
theorem expand_sigilTemplate (plain : '$' ∉ name.toList) (m : Match) :
    Template.expand [] (Template.parts (sigilRule name).template.toList) m =
      m.group 1 ++ '$' :: (name.toList ++ m.group 2) := by
  have first : "${1}$$".toList = ['$', '\x7b', '1', '\x7d', '$', '$'] := by decide
  have second : "${2}".toList = ['$', '\x7b', '2', '\x7d'] := by decide
  have template : (sigilRule name).template = "${1}$$" ++ name ++ "${2}" := rfl
  have spelled :
      (sigilRule name).template.toList = "${1}$$".toList ++ (name.toList ++ "${2}".toList) := by
    rw [template, String.toList_append, String.toList_append]
    exact List.append_assoc _ _ _
  have parts : Template.parts (sigilRule name).template.toList =
      .group 1 :: .char '$' :: (name.toList.map .char ++ [.group 2]) := by
    rw [spelled, first, second, Template.parts]
    simp only [List.cons_append, List.nil_append]
    rw [Template.partsFrom_digit (by decide), Template.partsFrom_dollars,
      Template.partsFrom_append plain, Template.partsFrom_digit (by decide)]
    rfl
  rw [parts]
  change m.group 1 ++ '$' :: Template.expand [] (name.toList.map .char ++ [.group 2]) m = _
  rw [Template.expand_append, Template.expand_chars]
  simp [Template.expand, Template.Part.expand]

omit isName in
theorem apply_sigilRule_eq (s : List Char) : (sigilRule name).apply s = scanned name none s :=
  replaceAll_eq_replaceFrom _ _ _

/-! ### From one word to the next -/

variable {before : Option Char}

omit isName in
theorem scanned_cons {c : Char} {s : List Char}
    (h : ¬ ((before = none ∧ Begins name.toList (c :: s)) ∨
      (opens c = true ∧ Begins name.toList s))) :
    scanned name before (c :: s) = c :: scanned name (some c) s := by
  refine replaceFrom_cons ?_
  cases found : (sigilRule name).matcher.pattern.matchAt before (c :: s) with
  | none => rfl
  | some m =>
    rcases of_matchAt found with start | ⟨l, t, same, hl, begins⟩
    · exact absurd (.inl start) h
    · obtain ⟨rfl, rfl⟩ := List.cons.inj same
      exact absurd (.inr ⟨hl, begins⟩) h

/-- Nothing matches between words, unless a match begins with the last character there. -/
theorem scanned_between {q s : List Char} (hq : ∀ c ∈ q, isAsciiWord c = false)
    (edge : ∀ l, q.getLast? = some l → opens l = true → ¬ Begins name.toList s) :
    scanned name before (q ++ s) = q ++ scanned name (q.getLast?.or before) s := by
  induction q generalizing before with
  | nil => rfl
  | cons c q ih =>
    obtain ⟨hc, rest⟩ := List.forall_mem_cons.mp hq
    rw [List.cons_append, scanned_cons, ih rest, getLast?_cons_or, List.cons_append]
    · intro l hl
      refine edge l ?_
      rw [List.getLast?_cons, hl]
      rfl
    · rintro (⟨-, begins⟩ | ⟨hl, begins⟩)
      · exact not_begins_cons isName hc _ begins
      · cases q with
        | nil => exact edge c rfl hl begins
        | cons d q => exact not_begins_cons isName (rest d List.mem_cons_self) _ begins

omit isName in
/-- Nothing matches inside of a word, and at its first character only at the start of the text. -/
theorem scanned_word {w s : List Char} (hw : ∀ c ∈ w, isAsciiWord c = true)
    (start : before = none → ¬ Begins name.toList (w ++ s)) :
    scanned name before (w ++ s) = w ++ scanned name (w.getLast?.or before) s := by
  induction w generalizing before with
  | nil => rfl
  | cons c w ih =>
    obtain ⟨hc, rest⟩ := List.forall_mem_cons.mp hw
    rw [List.cons_append, scanned_cons, ih rest (fun none => by cases none), getLast?_cons_or,
      List.cons_append]
    rintro (⟨first, begins⟩ | ⟨hl, -⟩)
    · exact start first begins
    · simp [opens, hc] at hl

/-- A sigil that is there already stays. -/
theorem scanned_sigil {u : Segment} {s : List Char} :
    scanned name before (u.sigil ++ s) =
      u.sigil ++ scanned name (u.sigil.getLast?.or before) s := by
  rw [Segment.sigil]
  split
  · have noWord : ∀ c ∈ ['$'], isAsciiWord c = false := List.forall_mem_singleton.mpr (by decide)
    refine scanned_between isName noWord fun l hl opening => ?_
    obtain rfl : '$' = l := by simpa using hl
    exact absurd opening (by decide)
  · rfl

theorem not_mem_name : '$' ∉ name.toList := fun mem => absurd (isName.word _ mem) (by decide)

theorem scanned_hit {m : Match} {r : List Char}
    (found : (sigilRule name).matcher.pattern.matchAt before (m.text ++ r) = some m) :
    scanned name before (m.text ++ r) =
      m.group 1 ++ '$' :: (name.toList ++ m.group 2) ++
        scanned name (m.text.getLast?.or before) r := by
  rw [scanned, replaceFrom_hit (solid_sigilPattern name) found,
    expand_sigilTemplate (not_mem_name isName)]
  rfl

theorem scanned_start {d : Char} (hd : closes d = true) (r : List Char) :
    scanned name none (name.toList ++ d :: r) =
      '$' :: (name.toList ++ d :: scanned name (some d) r) := by
  have hit := scanned_hit isName (m := ⟨name.toList ++ [d], [(2, [d]), (1, [])]⟩) (r := r)
    (by rw [List.append_assoc]; exact matchAt_start hd r)
  simpa [Match.group, Match.group?, List.lookup_cons] using hit

theorem scanned_behind {l d : Char} (hl : opens l = true) (hd : closes d = true) (r : List Char) :
    scanned name before (l :: (name.toList ++ d :: r)) =
      l :: '$' :: (name.toList ++ d :: scanned name (some d) r) := by
  have hit := scanned_hit isName (m := ⟨l :: (name.toList ++ [d]), [(2, [d]), (1, [l])]⟩) (r := r)
    (by rw [List.cons_append, List.append_assoc]; exact matchAt_behind isName hl hd before r)
  simpa [Match.group, Match.group?, List.lookup_cons, List.getLast?_cons] using hit

/-- A word that the rule passes by. -/
theorem scanned_passed {u : Segment} {s : List Char} {k : Nat}
    (stop : s.head?.any isAsciiWord = false) (start : before = none → k = 0)
    (passed : u.isSite name.toList s.head? = true → u.between.drop k = [] ∧ before ≠ none) :
    ∃ b, scanned name before (u.between.drop k ++ (u.sigil ++ (u.word ++ s))) =
      u.between.drop k ++ (u.sigil ++ (u.word ++ scanned name (some b) s)) := by
  -- Where the name begins, the word is the name, and only its left neighbour is still open.
  have site_of_begins (unmarked : u.marked = false) (left : u.between.getLast?.all opens = true)
      (begins : Begins name.toList (u.word ++ s)) : u.isSite name.toList s.head? = true := by
    obtain ⟨same, right⟩ := (begins_word_iff isName u.isName stop).mp begins
    simp [Segment.isSite, Segment.isOpen, same, unmarked, left, right]
  refine ⟨u.word.getLast u.isName.full, ?_⟩
  rw [scanned_between isName fun c hc => u.isBetween c (List.mem_of_mem_drop hc),
    scanned_sigil isName, scanned_word u.isName.word, List.getLast?_eq_some_getLast u.isName.full]
  · rfl
  · intro none begins
    simp only [Option.or_eq_none_iff, List.getLast?_eq_none_iff] at none
    obtain ⟨plain, first, rfl⟩ := none
    have unmarked : u.marked = false := by
      rw [← Bool.not_eq_true]
      intro marked
      simp [Segment.sigil, marked] at plain
    rw [start rfl, List.drop_zero] at first
    exact (passed (site_of_begins unmarked (by rw [first]; rfl) begins)).2 rfl
  · intro l hl opening begins
    cases marked : u.marked with
    | true =>
      simp only [Segment.sigil, marked, ↓reduceIte, List.singleton_append] at begins
      exact not_begins_cons isName (by decide) _ begins
    | false =>
      simp only [Segment.sigil, marked, Bool.false_eq_true, ↓reduceIte, List.nil_append] at begins
      have last : u.between.getLast? = some l := by
        rw [List.getLast?_drop] at hl
        split at hl
        · cases hl
        · exact hl
      have empty := (passed (site_of_begins marked (by rw [last]; exact opening) begins)).1
      rw [empty] at hl
      cases hl

/-- A word that the rule marks. -/
theorem scanned_site {u : Segment} {s : List Char} {k : Nat}
    (site : u.isSite name.toList s.head? = true)
    (unread : k < u.between.length ∨ (u.between = [] ∧ before = none)) :
    ∃ d r, s = d :: r ∧ scanned name before (u.between.drop k ++ (u.sigil ++ (u.word ++ s))) =
      u.between.drop k ++ ('$' :: (u.word ++ d :: scanned name (some d) r)) := by
  simp only [Segment.isSite, Segment.isOpen, Bool.and_eq_true, beq_iff_eq,
    Bool.not_eq_true'] at site
  obtain ⟨⟨same, unmarked⟩, left, right⟩ := site
  have plain : u.sigil = [] := by simp [Segment.sigil, unmarked]
  obtain ⟨d, r, rfl⟩ : ∃ d r, s = d :: r := by
    cases s with
    | nil => cases right
    | cons d r => exact ⟨d, r, rfl⟩
  refine ⟨d, r, rfl, ?_⟩
  rw [plain, List.nil_append, same]
  rcases unread with inside | ⟨first, rfl⟩
  · cases last : u.between.getLast? with
    | none =>
      rw [List.getLast?_eq_none_iff] at last
      rw [last] at inside
      cases inside
    | some l =>
      obtain ⟨q, split⟩ := List.getLast?_eq_some_iff.mp last
      have outside := u.isBetween
      rw [last] at left
      rw [split] at inside outside ⊢
      rw [List.length_append, List.length_singleton] at inside
      rw [List.drop_append_of_le_length (by omega), List.append_assoc, List.singleton_append,
        scanned_between isName
          fun c hc => outside c (List.mem_append_left _ (List.mem_of_mem_drop hc)),
        scanned_behind isName left right]
      · simp only [List.append_assoc, List.singleton_append]
      · intro _ _ _ begins
        exact not_begins_cons isName (outside l (by simp)) _ begins
  · rw [first, List.drop_nil, List.nil_append, List.nil_append]
    exact scanned_start isName right r

theorem scanned_last {q : List Char} (hq : ∀ c ∈ q, isAsciiWord c = false) :
    scanned name before q = q := by
  have ended (before : Option Char) : scanned name before [] = [] :=
    replaceFrom_nil (solid_sigilPattern name)
  rw [← List.append_nil q, scanned_between isName hq, ended]
  rintro l - - ⟨d, r, same, -⟩
  exact absurd same.symm (List.append_ne_nil_of_right_ne_nil _ (List.cons_ne_nil _ _))

/-- The rule of a name marks what `mark` says. The scan is at the beginning of a segment, or one
character further if a match has used that character up. -/
theorem scanned_textOf {us : List Segment} {last : List Char} (cut : IsCut us last) {hit : Bool}
    (start : (before = none ∧ hit = false) ∨ (before ≠ none ∧ ∀ u ∈ us, u.between ≠ [])) :
    scanned name before ((textOf us last).drop hit.toNat) =
      (textOf (mark name.toList hit us last) last).drop hit.toNat := by
  induction us generalizing hit before with
  | nil => exact scanned_last isName fun c hc => cut.isBetween c (List.mem_of_mem_drop hc)
  | cons u us ih =>
    have apart : ∀ v ∈ us, v.between ≠ [] := cut.apart
    have cut' : IsCut us last := ⟨fun v hv => apart v (List.mem_of_mem_tail hv), cut.isBetween⟩
    have head : (textOf us last).head? = follow us last := textOf_head? apart
    have stop : (textOf us last).head?.any isAsciiWord = false := by
      rw [head]
      exact follow_any cut.isBetween
    have first : u.between = [] → before = none ∧ hit = false := by
      intro empty
      rcases start with atStart | ⟨-, apart⟩
      · exact atStart
      · exact absurd empty (apart u List.mem_cons_self)
    have enough : hit.toNat ≤ u.between.length := by
      rcases Nat.eq_zero_or_pos u.between.length with zero | pos
      · rw [(first (List.eq_nil_of_length_eq_zero zero)).2]
        exact Nat.zero_le _
      · exact Nat.le_trans (Bool.toNat_le hit) pos
    have unfolded (v : Segment) (same : v.between = u.between) (vs : List Segment) :
        (textOf (v :: vs) last).drop hit.toNat =
          u.between.drop hit.toNat ++ (v.sigil ++ (v.word ++ textOf vs last)) := by
      rw [textOf, same, List.drop_append_of_le_length enough]
    rw [mark, unfolded u rfl, unfolded (u.addMark _) rfl]
    cases now : u.isSite name.toList (follow us last) && !(hit && u.between.length == 1) with
    | true =>
      obtain ⟨site, unblocked⟩ := Bool.and_eq_true_iff.mp now
      have unread : hit.toNat < u.between.length ∨ (u.between = [] ∧ before = none) := by
        by_cases empty : u.between = []
        · exact .inr ⟨empty, (first empty).1⟩
        · left
          have pos := List.length_pos_of_ne_nil empty
          cases hit with
          | false => exact pos
          | true =>
            have single : u.between.length ≠ 1 := by simpa using unblocked
            exact Nat.lt_of_le_of_ne pos (Ne.symm single)
      obtain ⟨d, r, hs, scan⟩ := scanned_site isName (head ▸ site) unread
      have further : scanned name (some d) ((textOf us last).drop true.toNat) =
          (textOf (mark name.toList true us last) last).drop true.toNat :=
        ih cut' (.inr ⟨Option.some_ne_none d, apart⟩)
      obtain ⟨t, ht⟩ : ∃ t, textOf (mark name.toList true us last) last = d :: t := by
        rw [← List.head?_eq_some_iff, textOf_head? (apart_mark apart), follow_mark, ← head, hs]
        rfl
      have sigil : (u.addMark true).sigil = ['$'] := by simp [Segment.sigil, Segment.addMark]
      rw [hs, ht] at further
      rw [scan, sigil, ht]
      exact congrArg (fun t => u.between.drop hit.toNat ++ '$' :: (u.word ++ d :: t)) further
    | false =>
      have passed : u.isSite name.toList (textOf us last).head? = true →
          u.between.drop hit.toNat = [] ∧ before ≠ none := by
        intro site
        rw [head] at site
        rw [site, Bool.true_and, Bool.not_eq_false', Bool.and_eq_true, beq_iff_eq] at now
        obtain ⟨rfl, single⟩ := now
        refine ⟨List.drop_eq_nil_of_le (Nat.le_of_eq single), ?_⟩
        rcases start with ⟨-, never⟩ | ⟨later, -⟩
        · cases never
        · exact later
      have zero : before = none → hit.toNat = 0 := by
        rintro rfl
        rcases start with ⟨-, rfl⟩ | ⟨later, -⟩
        · rfl
        · exact absurd rfl later
      obtain ⟨b, scan⟩ := scanned_passed isName stop zero passed
      have further : scanned name (some b) ((textOf us last).drop false.toNat) =
          (textOf (mark name.toList false us last) last).drop false.toNat :=
        ih cut' (.inr ⟨Option.some_ne_none b, apart⟩)
      rw [scan, Segment.addMark_false]
      exact congrArg (fun t => u.between.drop hit.toNat ++ (u.sigil ++ (u.word ++ t))) further

end Name

/-! ### The written rule -/

theorem fixed_left :
    Fixed r"^|[^$a-zA-Z0-9.>'_/]".toList (.alt (.look .textStart) (.set leftSet)) 3 where
  read := by decide +kernel
  flat _ := rfl
  finished := by decide +kernel
  plain := by decide

theorem fixed_right : Fixed r"[^a-zA-Z0-9'_/]".toList (.set rightSet) 2 where
  read := by decide +kernel
  flat _ := rfl
  finished := by decide +kernel
  plain := by decide

/-- A name between two groups, behind `k` others. -/
def sigilForms (name : List Char) (k : Nat) : List Form :=
  .group (k + 1) (.alt (.look .textStart) (.set leftSet)) ::
    (Form.ofChars name ++ [.group (k + 2) (.set rightSet)])

theorem patterns_sigilForms (name : String) :
    seqAll ((sigilForms name.toList 0).flatMap Form.patterns) =
      (sigilRule name).matcher.pattern := by
  rw [sigilPattern_eq, sigilForms, List.flatMap_cons, List.flatMap_append, Form.patterns_ofChars]
  rfl

theorem totalBytes_sigilForms_le (name : List Char) :
    Form.totalBytes (sigilForms name 0) ≤ 16392 + 128 * name.length := by
  have size := Form.totalBytes_ofChars_le name
  have around : Form.totalBytes [.group 1 (.alt (.look .textStart) (.set leftSet))] = 8968 ∧
      Form.totalBytes [.group 2 (.set rightSet)] = 7424 := by
    decide +kernel
  rw [sigilForms, ← List.singleton_append, Form.totalBytes_append, Form.totalBytes_append,
    around.1, around.2]
  omega

theorem writes_sigilRule (name : String) :
    Writes (sigilRule name).matcher.source.toList 2 4 (sigilForms name.toList) := by
  have left :
      r"(^|[^$a-zA-Z0-9.>'_/])".toList = '(' :: (r"^|[^$a-zA-Z0-9.>'_/]".toList ++ [')']) := by
    decide +kernel
  have right : "([^a-zA-Z0-9'_/])".toList = '(' :: (r"[^a-zA-Z0-9'_/]".toList ++ [')']) := by
    decide +kernel
  have written : (sigilRule name).matcher.source.toList =
      '(' :: (r"^|[^$a-zA-Z0-9.>'_/]".toList ++ [')']) ++
        (quoteChars name.toList ++ '(' :: (r"[^a-zA-Z0-9'_/]".toList ++ [')'])) := by
    rw [← left, ← right, ← toList_quote, ← String.toList_append, ← String.toList_append,
      ← String.append_assoc]
    rfl
  rw [written]
  exact fixed_left.writes.append ((writes_quote name.toList).append fixed_right.writes)

/-- The rule of a name is the one that its texts spell. -/
theorem ofTexts_sigilRule {name : String} (short : name.length ≤ maxQuoted) :
    Rule.ofTexts (sigilRule name).matcher.source (sigilRule name).template =
      .ok (sigilRule name) := by
  have size := totalBytes_sigilForms_le name.toList
  have small : 240 + Form.totalBytes (sigilForms name.toList 0) ≤ Form.maxBytes := by
    rw [String.length_toList] at size
    simp only [maxQuoted, Form.maxBytes] at short ⊢
    omega
  rw [Rule.ofTexts, Matcher.ofSource_of_writes (writes_sigilRule name) (by decide) rfl
    (patterns_sigilForms name) small]

/-! ### Rounds of rules -/

/-- The first rules of a ruleset. -/
def first (c : Ruleset) (n : Nat) : Ruleset :=
  { c with rules := c.rules.take n }

theorem apply_sigilRule {name : String} (isName : IsAsciiName name.toList) {us : List Segment}
    {last : List Char} (cut : IsCut us last) :
    (sigilRule name).apply (textOf us last) = textOf (mark name.toList false us last) last := by
  rw [apply_sigilRule_eq]
  exact scanned_textOf isName cut (.inl ⟨rfl, rfl⟩)

theorem foldl_sigilRule {names : List String} (isName : ∀ n ∈ names, IsAsciiName n.toList)
    {us : List Segment} {last : List Char} (cut : IsCut us last) :
    (names.map sigilRule).foldl (fun s rule => rule.apply s) (textOf us last) =
        textOf (round names us last) last ∧
      IsCut (round names us last) last := by
  induction names generalizing us with
  | nil => exact ⟨rfl, cut⟩
  | cons n names ih =>
    obtain ⟨first, rest⟩ := List.forall_mem_cons.mp isName
    rw [List.map_cons, List.foldl_cons, apply_sigilRule first cut, round_cons]
    exact ih rest (cut.mark _ _)

theorem first_sigils (names : List String) :
    ((sigils names).first names.length).rules = names.map sigilRule ∧
      ((sigils names).first (2 * names.length)).rules =
      names.map sigilRule ++ names.map sigilRule := by
  constructor
  · rw [first, sigils, List.append_assoc]
    exact List.take_left' (List.length_map _)
  · exact List.take_left' (by simp [Nat.two_mul])

theorem isAsciiName_of_isIdentifier {w : List Char} (h : ClassDecl.isIdentifier w = true) :
    IsAsciiName w := by
  cases w with
  | nil => cases h
  | cons c w =>
    simp only [ClassDecl.isIdentifier, Bool.and_eq_true, List.all_eq_true] at h
    have first : isAsciiWord c = true := by
      rcases Bool.or_eq_true_iff.mp h.1 with letter | underscore
      · simp [isAsciiWord, letter]
      · simp [isAsciiWord, underscore]
    exact ⟨List.cons_ne_nil _ _, List.forall_mem_cons.mpr ⟨first, h.2⟩⟩

/-- Two rounds of the rules are one insertion. -/
theorem applyChars_sigils {names : List String} (isName : ∀ n ∈ names, IsAsciiName n.toList)
    (s : List Char) :
    ((sigils names).first (2 * names.length)).applyChars s = insertAll names none s ∧
      ((sigils names).first names.length).applyChars (insertAll names none s) =
      insertAll names none s := by
  obtain ⟨us, last, rfl, cut, unmarked⟩ := exists_segments s
  obtain ⟨once, cutOnce⟩ := foldl_sigilRule isName cut
  obtain ⟨twice, cutTwice⟩ := foldl_sigilRule isName cutOnce
  obtain ⟨third, -⟩ := foldl_sigilRule isName cutTwice
  have inserted : insertAll names none (textOf us last) =
      textOf (round names (round names us last) last) last := by
    rw [round_round]
    exact insertAll_textOf isName cut unmarked (.inl rfl)
  constructor
  · rw [applyChars, (first_sigils names).2, List.foldl_append, once, twice, inserted]
  · rw [applyChars, (first_sigils names).1, inserted, third, round_of_done done_round_round]

/-- Two rounds of the rules give each variable that stands alone one sigil, and do nothing else. So
the order of the names does not matter, and a third round changes nothing. -/
theorem sigils_insert_once (names : List String)
    (ids : ∀ n ∈ names, ClassDecl.isIdentifier n.toList = true) (s : List Char) :
    ((sigils names).first (2 * names.length)).applyChars s = insertAll names none s ∧
    (∀ names' : List String, (∀ n, n ∈ names' ↔ n ∈ names) →
      ((sigils names').first (2 * names'.length)).applyChars s =
        ((sigils names).first (2 * names.length)).applyChars s) ∧
    ((sigils names).first names.length).applyChars
        (((sigils names).first (2 * names.length)).applyChars s) =
      ((sigils names).first (2 * names.length)).applyChars s ∧
    ∀ n ∈ names, n.length ≤ maxQuoted →
      Rule.ofTexts (sigilRule n).matcher.source (sigilRule n).template = .ok (sigilRule n) := by
  have isName : ∀ n ∈ names, IsAsciiName n.toList :=
    fun n hn => isAsciiName_of_isIdentifier (ids n hn)
  obtain ⟨twice, third⟩ := applyChars_sigils isName s
  refine ⟨twice, fun names' same => ?_, ?_, fun n _ => ofTexts_sigilRule⟩
  · have isName' : ∀ n ∈ names', IsAsciiName n.toList := fun n hn => isName n ((same n).mp hn)
    rw [twice, (applyChars_sigils isName' s).1, insertAll_congr same]
  · rw [twice, third]

/-- Neighbours that share a character, in a row and of two names; and places where no sigil
belongs. -/
theorem sigils_insert_once_neighbours :
    (∀ n ∈ ["a", "b"], ClassDecl.isIdentifier n.toList = true) ∧
    ((sigils ["a", "b"]).first 4).applyChars "a a a b,b,a (this.a, 'b', $a, ab) a".toList =
      "$a $a $a $b,$b,$a (this.a, 'b', $a, ab) a".toList := by
  have ids : ∀ n ∈ ["a", "b"], ClassDecl.isIdentifier n.toList = true := by decide
  have inserted : insertAll ["a", "b"] none "a a a b,b,a (this.a, 'b', $a, ab) a".toList =
      "$a $a $a $b,$b,$a (this.a, 'b', $a, ab) a".toList := by
    decide +kernel
  exact ⟨ids, (sigils_insert_once ["a", "b"] ids _).1.trans inserted⟩

end Ruleset

end Polyglot
