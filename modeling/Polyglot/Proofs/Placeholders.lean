import Polyglot.Proofs.Sigils
import Polyglot.Proofs.Slots

/-!
Placeholders and the rules for variables. A masked slot stands between characters that no name has,
and its word is no name itself, so the rules for sigils and for arrows edit only what stands between
the slots. Masking the slots, applying the rules and writing the slots in braces again therefore
keeps the slots as they are (`sigils_keep_slots`).
-/

namespace Polyglot

open Text Sigil Slotted

/-! ### Edits -/

/-- A text and an edited one: where `sigils` are allowed a dollar may be put in, and where `arrows`
are allowed a dot may have become an arrow. -/
inductive Edited (sigils arrows : Bool) : List Char → List Char → Prop
  | nil : Edited sigils arrows [] []
  | keep (c : Char) {s r : List Char} :
      Edited sigils arrows s r → Edited sigils arrows (c :: s) (c :: r)
  | sigil {s r : List Char} : sigils = true → Edited sigils arrows s r →
      Edited sigils arrows s ('$' :: r)
  | arrow {s r : List Char} : arrows = true → Edited sigils arrows s r →
      Edited sigils arrows ('.' :: s) ('-' :: '>' :: r)

namespace Edited

variable {sigils arrows : Bool} {s r t : List Char}

theorem append_left (w : List Char) (h : Edited sigils arrows s r) :
    Edited sigils arrows (w ++ s) (w ++ r) := by
  induction w with
  | nil => exact h
  | cons c w ih => exact .keep c ih

theorem mono (h : Edited sigils false s r) : Edited sigils true s r := by
  induction h with
  | nil => exact .nil
  | keep c _ ih => exact .keep c ih
  | sigil allowed _ ih => exact .sigil allowed ih
  | arrow never => cases never

/-- Arrows can be made after other edits. -/
theorem trans_arrows (h : Edited sigils true s r) (h' : Edited false true r t) :
    Edited sigils true s t := by
  induction h generalizing t with
  | nil =>
    cases h' with
    | nil => exact .nil
    | sigil never => cases never
  | keep c _ ih =>
    cases h' with
    | keep _ h' => exact .keep c (ih h')
    | sigil never => cases never
    | arrow allowed h' => exact .arrow allowed (ih h')
  | sigil allowed _ ih =>
    cases h' with
    | keep _ h' => exact .sigil allowed (ih h')
    | sigil never => cases never
  | arrow allowed _ ih =>
    cases h' with
    | sigil never => cases never
    | keep _ h' =>
      cases h' with
      | sigil never => cases never
      | keep _ h' => exact .arrow allowed (ih h')

/-- Edits put in no other characters. -/
theorem not_mem {c : Char} (h : Edited sigils arrows s r) (other : c ∉ ['$', '-', '>'])
    (none : c ∉ s) : c ∉ r := by
  simp only [List.mem_cons, List.not_mem_nil, or_false, not_or] at other
  induction h with
  | nil => exact none
  | keep d _ ih =>
    rw [List.mem_cons, not_or] at none ⊢
    exact ⟨none.1, ih none.2⟩
  | sigil _ _ ih =>
    rw [List.mem_cons, not_or]
    exact ⟨other.1, ih none⟩
  | arrow _ _ ih =>
    rw [List.mem_cons, not_or] at none
    simp only [List.mem_cons, not_or]
    exact ⟨other.2.1, other.2.2, ih none.2⟩

end Edited

namespace Slotted

/-- The slots are the same, and what stands between them is edited. -/
structure IsEdit (sigils arrows : Bool) (x y : Slotted) : Prop where
  first : Edited sigils arrows x.first y.first
  slots : List.Forall₂ (fun a b => b.1 = a.1 ∧ Edited sigils arrows a.2 b.2) x.slots y.slots

namespace IsEdit

variable {sigils : Bool} {x y z : Slotted}

theorem mono (h : IsEdit sigils false x y) : IsEdit sigils true x y :=
  ⟨h.first.mono, h.slots.imp fun _ _ both => ⟨both.1, both.2.mono⟩⟩

theorem trans_arrows (h : IsEdit sigils true x y) (h' : IsEdit false true y z) :
    IsEdit sigils true x z := by
  refine ⟨h.first.trans_arrows h'.first, ?_⟩
  obtain ⟨-, slots⟩ := h
  obtain ⟨-, slots'⟩ := h'
  generalize x.slots = a at slots
  generalize y.slots = b at slots slots'
  generalize z.slots = c at slots'
  induction slots generalizing c with
  | nil =>
    cases slots'
    exact .nil
  | cons both _ ih =>
    cases slots' with
    | cons both' rest => exact .cons ⟨both'.1.trans both.1, both.2.trans_arrows both'.2⟩ (ih _ rest)

end IsEdit

/-- The slots are words, and no character that masks them stands between them. -/
structure IsPlain (x : Slotted) : Prop where
  named : ∀ slot ∈ x.slots, IsAsciiName slot.1
  plain : ∀ field ∈ x.fields, '~' ∉ field

theorem IsEdit.isPlain {sigils arrows : Bool} {x y : Slotted} (h : IsEdit sigils arrows x y)
    (plain : x.IsPlain) : y.IsPlain := by
  obtain ⟨first, slots⟩ := x
  obtain ⟨first', slots'⟩ := y
  obtain ⟨hfirst, hslots⟩ := h
  obtain ⟨named, plain⟩ := plain
  obtain ⟨here, others⟩ := List.forall_mem_cons.mp plain
  have rest :
      (∀ slot ∈ slots', IsAsciiName slot.1) ∧ ∀ field ∈ slots'.map Prod.snd, '~' ∉ field := by
    clear hfirst plain here
    change List.Forall₂ _ slots slots' at hslots
    induction hslots with
    | nil => exact ⟨by simp, by simp⟩
    | cons both _ ih =>
      obtain ⟨hw, named⟩ := List.forall_mem_cons.mp named
      obtain ⟨hs, others⟩ := List.forall_mem_cons.mp others
      obtain ⟨named', plain'⟩ := ih named others
      exact ⟨List.forall_mem_cons.mpr ⟨both.1 ▸ hw, named'⟩,
        List.forall_mem_cons.mpr ⟨both.2.not_mem (by decide) hs, plain'⟩⟩
  exact ⟨rest.1, List.forall_mem_cons.mpr ⟨hfirst.not_mem (by decide) here, rest.2⟩⟩

end Slotted

/-! ### Sigils -/

/-- The word of a slot between the characters that mask it. -/
def maskedWord (w : List Char) : List Char :=
  '_' :: (w ++ ['_'])

theorem masked_append (w s : List Char) :
    masked w ++ s = ['~'] ++ (maskedWord w ++ (['~'] ++ s)) := by
  simp [masked, maskedWord]

theorem isAsciiName_maskedWord {w : List Char} (hw : IsAsciiName w) :
    IsAsciiName (maskedWord w) := by
  refine ⟨List.cons_ne_nil _ _, List.forall_mem_cons.mpr ⟨by decide, fun c hc => ?_⟩⟩
  rcases List.mem_append.mp hc with inside | last
  · exact hw.word c inside
  · rw [List.mem_singleton.mp last]
    decide

namespace Sigil

variable {names : List String}

/-- Sigils are put into a text one character after another. -/
theorem exists_insertAll_append (names : List String) (before : Option Char) (s k : List Char) :
    ∃ r b, Edited true false s r ∧ insertAll names before (s ++ k) = r ++ insertAll names b k := by
  induction s generalizing before with
  | nil => exact ⟨[], before, .nil, rfl⟩
  | cons c s ih =>
    obtain ⟨r, b, edited, rest⟩ := ih (some c)
    by_cases here : stands names before (c :: (s ++ k)) = true
    · refine ⟨'$' :: c :: r, b, .sigil rfl (.keep c edited), ?_⟩
      rw [List.cons_append, insertAll, if_pos here, rest]
      rfl
    · refine ⟨c :: r, b, .keep c edited, ?_⟩
      rw [List.cons_append, insertAll, if_neg here, rest]
      rfl

/-- A masked slot gets no sigil unless its masked word is a name. -/
theorem insertAll_masked (isName : ∀ n ∈ names, IsAsciiName n.toList) {w : List Char}
    (hw : IsAsciiName w) (unlisted : ∀ n ∈ names, n.toList ≠ maskedWord w) (before : Option Char)
    (k : List Char) :
    ∃ b, insertAll names before (masked w ++ k) = masked w ++ insertAll names b k := by
  have outside : ∀ c ∈ ['~'], isAsciiWord c = false := List.forall_mem_singleton.mpr (by decide)
  have hword := isAsciiName_maskedWord hw
  have never (b : Option Char) : stands names b (maskedWord w ++ (['~'] ++ k)) = false := by
    rw [stands_word isName hword rfl, Bool.and_eq_false_iff]
    left
    rw [List.any_eq_false]
    intro n hn same
    exact unlisted n hn (beq_iff_eq.mp same)
  obtain ⟨b, word⟩ := @insertAll_name names _ hword (some '~') (['~'] ++ k)
  rw [never, insertAll_between isName outside] at word
  refine ⟨['~'].getLast?.or (some b), ?_⟩
  rw [masked_append, masked_append, insertAll_between isName outside]
  exact congrArg (['~'] ++ ·) word

theorem exists_insertAll_textFrom (isName : ∀ n ∈ names, IsAsciiName n.toList)
    {slots : List (List Char × List Char)} (named : ∀ slot ∈ slots, IsAsciiName slot.1)
    (unlisted : ∀ n ∈ names, ∀ w, n.toList ≠ maskedWord w) (before : Option Char) :
    ∃ slots', List.Forall₂ (fun a b => b.1 = a.1 ∧ Edited true false a.2 b.2) slots slots' ∧
      insertAll names before (textFrom masked slots) = textFrom masked slots' := by
  induction slots generalizing before with
  | nil => exact ⟨[], .nil, rfl⟩
  | cons slot slots ih =>
    obtain ⟨w, s⟩ := slot
    obtain ⟨hw, named⟩ := List.forall_mem_cons.mp named
    obtain ⟨b, masking⟩ :=
      insertAll_masked isName hw (fun n hn => unlisted n hn w) before (s ++ textFrom masked slots)
    obtain ⟨r, b', edited, field⟩ := exists_insertAll_append names b s (textFrom masked slots)
    obtain ⟨slots', edits, rest⟩ := ih named b'
    refine ⟨(w, r) :: slots', .cons ⟨rfl, edited⟩ edits, ?_⟩
    rw [textFrom_cons, textFrom_cons, masking, field, rest]

/-- The rules for sigils edit what stands between masked slots. -/
theorem exists_insertAll_text (isName : ∀ n ∈ names, IsAsciiName n.toList) {x : Slotted}
    (plain : x.IsPlain) (unlisted : ∀ n ∈ names, ∀ w, n.toList ≠ maskedWord w) :
    ∃ y, IsEdit true false x y ∧ insertAll names none (x.text masked) = y.text masked := by
  obtain ⟨r, b, edited, field⟩ :=
    exists_insertAll_append names none x.first (textFrom masked x.slots)
  obtain ⟨slots', edits, rest⟩ := exists_insertAll_textFrom isName plain.named unlisted b
  exact ⟨⟨r, slots'⟩, ⟨edited, edits⟩, by rw [Slotted.text, field, rest]; rfl⟩

end Sigil

/-! ### Arrows -/

namespace Ruleset

open Pattern

/-- The characters that the rule for arrows allows before a name. -/
def near (c : Char) : Bool :=
  !isAsciiWord c && !(['.', '>', '\''].contains c)

def nearSet : CharSet :=
  .compl (.ofItems (letterOrDigit ++ [.single '.', .single '>', .single '\'', .single '_']))

theorem has_nearSet (c : Char) : nearSet.has c = near c := by
  rw [Bool.eq_iff_iff]
  simp [nearSet, CharSet.ofItems, letterOrDigit, near, isAsciiWord, isAsciiLetter,
    isAsciiDigit, CharSet.has]
  grind

theorem propertyPattern_eq (name : String) : (propertyRule name).matcher.pattern =
    seqAll (group 1 (alt (look .textStart) (char nearSet)) :: chars (name.toList ++ ['.'])) := by
  rw [chars, List.map_append]
  rfl

theorem isTame_propertyPattern (name : String) :
    (propertyRule name).matcher.pattern.isTame = true := by
  simp [propertyPattern_eq, isTame]

theorem nullable_propertyPattern (name : String) :
    (propertyRule name).matcher.pattern.nullable = false := by
  simp [propertyPattern_eq, nullable, chars]

section Name

variable {name : String}

/-- The rule matches a name before a dot, at the start of a text or behind a character. -/
theorem of_matchAt_property {before : Option Char} {s : List Char} {m : Match}
    (found : (propertyRule name).matcher.pattern.matchAt before s = some m) :
    (before = none ∧ ∃ r, s = name.toList ++ '.' :: r) ∨
      ∃ l r, s = l :: (name.toList ++ '.' :: r) ∧ near l = true := by
  obtain ⟨e, mem⟩ :=
    (isSome_matchAt_iff (isTame_propertyPattern name)).mp (Option.isSome_of_eq_some found)
  rw [propertyPattern_eq, ways_edge_cons] at mem
  rcases List.mem_append.mp mem with atStart | behind
  · left
    split at atStart
    · next start =>
      obtain ⟨r, rest, -⟩ := mem_ways_chars.mp atStart
      rw [List.append_assoc] at rest
      exact ⟨start, r, rest⟩
    · cases atStart
  · right
    obtain ⟨d, hd, behind⟩ := List.mem_flatMap.mp behind
    obtain ⟨l, t, hs, allowed, rfl⟩ := mem_ways_char.mp hd
    rw [has_nearSet] at allowed
    obtain ⟨r, rest, -⟩ := mem_ways_chars.mp behind
    rw [Cursor.leave_past_enter, Cursor.rest_noting 1 (r := t) hs] at rest
    refine ⟨l, r, ?_, allowed⟩
    have whole : s = l :: t := hs
    simp [whole, rest]

theorem matchAt_property_start (r : List Char) :
    (propertyRule name).matcher.pattern.matchAt none (name.toList ++ '.' :: r) =
      some ⟨name.toList ++ ['.'], [(1, [])]⟩ := by
  have here : ((Cursor.start none (name.toList ++ '.' :: r)).noting 1 []).rest =
      (name.toList ++ ['.']) ++ r :=
    List.append_cons _ _ _
  rw [matchAt_eq_ways (isTame_propertyPattern name), propertyPattern_eq, ways_edge_cons,
    Cursor.before_start, if_pos rfl, ways_chars here]
  rfl

/-- What the rule of a name leaves behind a character. -/
def arrowed (name : String) (before : Option Char) (s : List Char) : List Char :=
  (propertyRule name).matcher.pattern.replaceFrom
    (Template.expand [] (Template.parts (propertyRule name).template.toList)) before s

theorem apply_propertyRule_eq (s : List Char) : (propertyRule name).apply s = arrowed name none s :=
  replaceAll_eq_replaceFrom _ _ _

theorem arrowed_nil (before : Option Char) : arrowed name before [] = [] :=
  replaceFrom_nil (nullable_propertyPattern name)

theorem arrowed_cons {before : Option Char} {c : Char} {s : List Char}
    (start : before = none → ∀ r, c :: s ≠ name.toList ++ '.' :: r)
    (behind : near c = true → ∀ r, s ≠ name.toList ++ '.' :: r) :
    arrowed name before (c :: s) = c :: arrowed name (some c) s := by
  refine replaceFrom_cons ?_
  cases found : (propertyRule name).matcher.pattern.matchAt before (c :: s) with
  | none => rfl
  | some m =>
    rcases of_matchAt_property found with ⟨first, r, same⟩ | ⟨l, r, same, hl⟩
    · exact absurd same (start first r)
    · obtain ⟨rfl, rest⟩ := List.cons.inj same
      exact absurd rest (behind hl r)

variable (isName : IsAsciiName name.toList)

/-- The template keeps the group and the name, and turns the dot into an arrow. -/
theorem expand_propertyTemplate (plain : '$' ∉ name.toList) (m : Match) :
    Template.expand [] (Template.parts (propertyRule name).template.toList) m =
      m.group 1 ++ (name.toList ++ ['-', '>']) := by
  have first : "${1}".toList = ['$', '\x7b', '1', '\x7d'] := by decide
  have second : "->".toList = ['-', '>'] := by decide
  have template : (propertyRule name).template = "${1}" ++ name ++ "->" := rfl
  have spelled :
      (propertyRule name).template.toList = "${1}".toList ++ (name.toList ++ "->".toList) := by
    rw [template, String.toList_append, String.toList_append]
    exact List.append_assoc _ _ _
  have parts : Template.parts (propertyRule name).template.toList =
      .group 1 :: (name.toList ++ ['-', '>']).map .char := by
    have plain' : '$' ∉ name.toList ++ ['-', '>'] := by simpa using plain
    rw [spelled, first, second, Template.parts]
    simp only [List.cons_append, List.nil_append]
    rw [Template.partsFrom_digit (by decide), ← List.append_nil (name.toList ++ ['-', '>']),
      Template.partsFrom_append plain', List.append_nil]
    simp [Template.partsFrom, Template.number]
  rw [parts]
  change m.group 1 ++ Template.expand [] ((name.toList ++ ['-', '>']).map .char) m = _
  rw [Template.expand_chars]

include isName

theorem not_begins_property {c : Char} (outside : isAsciiWord c = false) (s r : List Char) :
    c :: s ≠ name.toList ++ '.' :: r := by
  intro same
  obtain ⟨d, w, hname⟩ := List.exists_cons_of_ne_nil isName.full
  have word := isName.word d (by simp [hname])
  rw [hname] at same
  rw [← (List.cons.inj same).1, outside] at word
  cases word

theorem matchAt_property_behind {l : Char} (hl : near l = true) (before : Option Char)
    (r : List Char) :
    (propertyRule name).matcher.pattern.matchAt before (l :: (name.toList ++ '.' :: r)) =
      some ⟨l :: (name.toList ++ ['.']), [(1, [l])]⟩ := by
  have outside : isAsciiWord l = false := by
    simp only [near, Bool.and_eq_true, Bool.not_eq_true'] at hl
    exact hl.1
  let c := Cursor.start before (l :: (name.toList ++ '.' :: r))
  have first : (seqAll (chars (name.toList ++ ['.']))).ways (c.noting 1 []) = [] := by
    refine ways_chars_eq_nil ?_
    rintro ⟨k, same⟩
    rw [List.append_assoc] at same
    exact not_begins_property isName outside _ _ same.symm
  have second : (char nearSet).ways c.enter = [c.enter.past [l]] :=
    ways_char rfl (by rw [has_nearSet, hl])
  have here : (c.noting 1 [l]).rest = (name.toList ++ ['.']) ++ r := List.append_cons _ _ _
  rw [matchAt_eq_ways (isTame_propertyPattern name), propertyPattern_eq, ways_edge_cons, first,
    ite_self, second, List.nil_append, List.flatMap_singleton,
    Cursor.leave_past_enter, ways_chars here]
  rfl

theorem arrowed_hit {before : Option Char} {m : Match} {r : List Char}
    (found : (propertyRule name).matcher.pattern.matchAt before (m.text ++ r) = some m) :
    arrowed name before (m.text ++ r) =
      m.group 1 ++ (name.toList ++ ['-', '>']) ++ arrowed name (m.text.getLast?.or before) r := by
  rw [arrowed, replaceFrom_hit (nullable_propertyPattern name) found,
    expand_propertyTemplate (not_mem_name isName)]
  rfl

theorem arrowed_start (r : List Char) :
    arrowed name none (name.toList ++ '.' :: r) =
      name.toList ++ '-' :: '>' :: arrowed name (some '.') r := by
  have hit := arrowed_hit isName (m := ⟨name.toList ++ ['.'], [(1, [])]⟩) (r := r)
    (by rw [List.append_assoc]; exact matchAt_property_start r)
  simpa [Match.group, Match.group?] using hit

theorem arrowed_behind {l : Char} (hl : near l = true) (before : Option Char) (r : List Char) :
    arrowed name before (l :: (name.toList ++ '.' :: r)) =
      l :: (name.toList ++ '-' :: '>' :: arrowed name (some '.') r) := by
  have hit := arrowed_hit isName (m := ⟨l :: (name.toList ++ ['.']), [(1, [l])]⟩) (r := r)
    (by rw [List.cons_append, List.append_assoc]; exact matchAt_property_behind isName hl before r)
  simpa [Match.group, Match.group?, List.getLast?_cons] using hit

/-! ### From one slot to the next -/

omit isName in
/-- A part of the text without the masking character that a masked slot or the end follows. -/
theorem exists_of_append {s k u r : List Char} (stop : k = [] ∨ k.head? = some '~')
    (plain : '~' ∉ u) (same : s ++ k = u ++ r) : ∃ s', s = u ++ s' ∧ r = s' ++ k := by
  rcases List.append_eq_append_iff.mp same with ⟨x, whole, rest⟩ | ⟨x, whole, rest⟩
  · rcases x with _ | ⟨c, x⟩
    · exact ⟨[], by simpa using whole.symm, by simpa using rest.symm⟩
    · rcases stop with rfl | head
      · cases rest
      · rw [rest] at head
        obtain rfl : c = '~' := Option.some.inj head
        exact absurd (whole ▸ List.mem_append_right _ List.mem_cons_self) plain
  · exact ⟨x, whole, rest⟩

theorem tilde_not_mem_name : '~' ∉ name.toList ++ ['.'] := by
  intro mem
  rcases List.mem_append.mp mem with inside | last
  · exact absurd (isName.word _ inside) (by decide)
  · exact absurd (List.mem_singleton.mp last) (by decide)

/-- Arrows are made in a text up to the slot that follows it. The induction is on the length of the
text, since a match takes several characters of it. -/
theorem exists_arrowed_append {s k : List Char} (stop : k = [] ∨ k.head? = some '~')
    (before : Option Char) :
    ∃ r b, Edited false true s r ∧ arrowed name before (s ++ k) = r ++ arrowed name b k := by
  have plain := tilde_not_mem_name isName
  have edited (s' r : List Char) (h : Edited false true s' r) :
      Edited false true (name.toList ++ '.' :: s') (name.toList ++ '-' :: '>' :: r) :=
    (Edited.arrow rfl h).append_left name.toList
  induction hlen : s.length using Nat.strongRecOn generalizing s before with
  | ind n ih =>
    cases s with
    | nil => exact ⟨[], before, .nil, rfl⟩
    | cons c s =>
      by_cases start : before = none ∧ ∃ r, c :: s ++ k = name.toList ++ '.' :: r
      · obtain ⟨rfl, r, same⟩ := start
        obtain ⟨s', whole, rfl⟩ := exists_of_append stop plain (same.trans (List.append_cons _ _ _))
        rw [List.append_assoc] at whole
        have short : s'.length < n := by
          rw [← hlen, whole]
          simp
          omega
        obtain ⟨r', b, h, rest⟩ := ih s'.length short (some '.') rfl
        refine ⟨name.toList ++ '-' :: '>' :: r', b, whole ▸ edited s' r' h, ?_⟩
        rw [same, arrowed_start isName, rest]
        simp
      · by_cases behind : near c = true ∧ ∃ r, s ++ k = name.toList ++ '.' :: r
        · obtain ⟨hc, r, same⟩ := behind
          obtain ⟨s', rfl, rfl⟩ := exists_of_append stop plain (same.trans (List.append_cons _ _ _))
          rw [List.append_assoc] at hlen ⊢
          have short : s'.length < n := by
            rw [← hlen]
            simp
            omega
          obtain ⟨r', b, h, rest⟩ := ih s'.length short (some '.') rfl
          refine ⟨c :: (name.toList ++ '-' :: '>' :: r'), b, .keep c (edited s' r' h), ?_⟩
          rw [List.cons_append, List.append_assoc]
          change arrowed name before (c :: (name.toList ++ '.' :: (s' ++ k))) = _
          rw [arrowed_behind isName hc, rest]
          simp
        · obtain ⟨r', b, h, rest⟩ := ih s.length (by simp [← hlen]) (some c) rfl
          refine ⟨c :: r', b, .keep c h, ?_⟩
          rw [List.cons_append, arrowed_cons, rest, List.cons_append]
          · exact fun first r same => start ⟨first, r, same⟩
          · exact fun hc r same => behind ⟨hc, r, same⟩

/-- The character that ends a masked slot may be the one before a name. -/
theorem exists_arrowed_behind {s k : List Char} (stop : k = [] ∨ k.head? = some '~')
    (before : Option Char) :
    ∃ r b, Edited false true s r ∧ arrowed name before ('~' :: (s ++ k)) =
      '~' :: (r ++ arrowed name b k) := by
  by_cases behind : ∃ r, s ++ k = name.toList ++ '.' :: r
  · obtain ⟨r, same⟩ := behind
    obtain ⟨s', rfl, rfl⟩ :=
      exists_of_append stop (tilde_not_mem_name isName) (same.trans (List.append_cons _ _ _))
    obtain ⟨r', b, h, rest⟩ := exists_arrowed_append isName (s := s') stop (some '.')
    refine ⟨name.toList ++ '-' :: '>' :: r', b, ?_, ?_⟩
    · rw [List.append_assoc]
      exact (Edited.arrow rfl h).append_left name.toList
    · rw [same, arrowed_behind isName (by decide), rest]
      simp
  · obtain ⟨r', b, h, rest⟩ := exists_arrowed_append isName (s := s) stop (some '~')
    refine ⟨r', b, h, ?_⟩
    rw [arrowed_cons, rest]
    · exact fun _ r same => not_begins_property isName (by decide) _ _ same
    · exact fun _ r same => behind ⟨r, same⟩

omit isName in
/-- Inside of a word no match begins. -/
theorem arrowed_word {w : List Char} (hw : ∀ c ∈ w, isAsciiWord c = true) (c : Char)
    (k : List Char) : ∃ b, arrowed name (some c) (w ++ k) = w ++ arrowed name (some b) k := by
  induction w generalizing c with
  | nil => exact ⟨c, rfl⟩
  | cons d w ih =>
    obtain ⟨hd, hw⟩ := List.forall_mem_cons.mp hw
    obtain ⟨b, rest⟩ := ih hw d
    refine ⟨b, ?_⟩
    rw [List.cons_append, arrowed_cons, rest, List.cons_append]
    · exact fun never => nomatch never
    · intro near_d
      simp [near, hd] at near_d

/-- No dot follows the word of a masked slot. -/
theorem exists_arrowed_between {w : List Char} (hw : IsAsciiName w) (before : Option Char)
    (k : List Char) :
    ∃ b, arrowed name before ('~' :: (w ++ '~' :: k)) =
      '~' :: (w ++ arrowed name b ('~' :: k)) := by
  obtain ⟨b, rest⟩ := @arrowed_word name w hw.word '~' ('~' :: k)
  refine ⟨some b, ?_⟩
  rw [arrowed_cons, rest]
  · exact fun _ r same => not_begins_property isName (by decide) _ _ same
  · intro _ r same
    obtain ⟨-, dot⟩ := run_unique (p := isAsciiWord) hw.word isName.word rfl rfl same
    exact absurd (List.cons.inj dot).1 (by decide)

theorem exists_arrowed_textFrom {slots : List (List Char × List Char)}
    (named : ∀ slot ∈ slots, IsAsciiName slot.1) (before : Option Char) :
    ∃ slots', List.Forall₂ (fun a b => b.1 = a.1 ∧ Edited false true a.2 b.2) slots slots' ∧
      arrowed name before (textFrom masked slots) = textFrom masked slots' := by
  induction slots generalizing before with
  | nil => exact ⟨[], .nil, arrowed_nil before⟩
  | cons slot slots ih =>
    obtain ⟨w, s⟩ := slot
    obtain ⟨hw, named⟩ := List.forall_mem_cons.mp named
    obtain ⟨b, word⟩ := exists_arrowed_between isName (isAsciiName_maskedWord hw) before
      (s ++ textFrom masked slots)
    obtain ⟨r, b', edited, field⟩ :=
      exists_arrowed_behind isName (s := s) (textFrom_masked_head slots) b
    obtain ⟨slots', edits, rest⟩ := ih named b'
    refine ⟨(w, r) :: slots', .cons ⟨rfl, edited⟩ edits, ?_⟩
    rw [textFrom_cons, textFrom_cons, masked_append, masked_append, ← rest]
    change arrowed name before ('~' :: (maskedWord w ++ '~' :: (s ++ textFrom masked slots))) = _
    rw [word, field]
    rfl

/-- The rule for arrows edits what stands between masked slots. -/
theorem exists_apply_propertyRule {x : Slotted} (plain : x.IsPlain) :
    ∃ y, IsEdit false true x y ∧ (propertyRule name).apply (x.text masked) = y.text masked := by
  obtain ⟨r, b, edited, field⟩ :=
    exists_arrowed_append isName (s := x.first) (textFrom_masked_head x.slots) none
  obtain ⟨slots', edits, rest⟩ := exists_arrowed_textFrom isName plain.named b
  exact ⟨⟨r, slots'⟩,
    ⟨edited, edits⟩, by rw [apply_propertyRule_eq, Slotted.text, field, rest]; rfl⟩

end Name

/-- One rule for arrows after another. -/
theorem exists_foldl_propertyRule {names : List String} (isName : ∀ n ∈ names, IsAsciiName n.toList)
    {x y : Slotted} (plain : x.IsPlain) (edit : IsEdit true true x y) :
    ∃ z, IsEdit true true x z ∧
      (names.map propertyRule).foldl (fun s rule => rule.apply s) (y.text masked) =
      z.text masked := by
  induction names generalizing y with
  | nil => exact ⟨y, edit, rfl⟩
  | cons n names ih =>
    obtain ⟨hn, isName⟩ := List.forall_mem_cons.mp isName
    obtain ⟨z, arrows, applied⟩ := exists_apply_propertyRule hn (edit.isPlain plain)
    obtain ⟨u, edits, rest⟩ := ih isName (edit.trans_arrows arrows)
    exact ⟨u, edits, by rw [List.map_cons, List.foldl_cons, applied, rest]⟩

/-- All rules for variables. -/
theorem exists_applyChars_sigils {names : List String} (isName : ∀ n ∈ names, IsAsciiName n.toList)
    (unlisted : ∀ n ∈ names, ∀ w, n.toList ≠ maskedWord w) {x : Slotted} (plain : x.IsPlain) :
    ∃ y, IsEdit true true x y ∧ (sigils names).applyChars (x.text masked) = y.text masked := by
  obtain ⟨y, edit, inserted⟩ := exists_insertAll_text isName plain unlisted
  obtain ⟨z, edits, arrows⟩ := exists_foldl_propertyRule isName plain edit.mono
  refine ⟨z, edits, ?_⟩
  have twice := (applyChars_sigils isName (x.text masked)).1
  rw [applyChars, (first_sigils names).2] at twice
  rw [applyChars, sigils, List.foldl_append, twice, inserted, arrows]

theorem unlisted_of_edges {n : String}
    (h : n.toList.head? ≠ some '_' ∨ n.toList.getLast? ≠ some '_') (w : List Char) :
    n.toList ≠ maskedWord w := by
  intro same
  rw [same] at h
  rcases h with first | last
  · exact first rfl
  · exact last (List.getLast?_concat (l := '_' :: w))

/-- Placeholders survive the rules for variables. A text is cut at its slots in one way. Masking
them, applying the rules and restoring them gives the same slots in the same order; between them
dollars have been put in and dots turned into arrows, as the rules do it between masked slots, and
nothing else. -/
theorem sigils_keep_slots (names : List String)
    (ids : ∀ n ∈ names, ClassDecl.isIdentifier n.toList = true)
    (edges : ∀ n ∈ names, n.toList.head? ≠ some '_' ∨ n.toList.getLast? ≠ some '_')
    (t : List Char) (plain : '~' ∉ t) :
    ∃ hide restore x y, ofTable "php-placeholders" [hidePlaceholder] = .ok hide ∧
      phpRestore = .ok restore ∧ (∀ x', IsCutAt t x' ↔ x' = x) ∧
      restore.applyChars ((sigils names).applyChars (hide.applyChars t)) = y.text braced ∧
      IsEdit true true x y ∧ (sigils names).applyChars (x.text masked) = y.text masked ∧
      (names = [] → y.text braced = t) := by
  have isName : ∀ n ∈ names, IsAsciiName n.toList :=
    fun n hn => isAsciiName_of_isIdentifier (ids n hn)
  obtain ⟨x, cut⟩ := exists_isCutAt t
  have plain_x : x.IsPlain := by
    refine ⟨cut.named, fun field mem tilde => plain ?_⟩
    rw [cut.whole]
    exact mem_text_of_mem_field mem tilde braced
  obtain ⟨y, edit, applied⟩ :=
    exists_applyChars_sigils isName (fun n hn => unlisted_of_edges (edges n hn)) plain_x
  have plain_y := edit.isPlain plain_x
  refine ⟨_, _, x, y, ofTable_hidePlaceholder, phpRestore_eq, fun x' => ?_, ?_, edit, applied, ?_⟩
  · constructor
    · exact fun cut' => cut'.unique cut
    · rintro rfl
      exact cut
  · change restoreRule.apply ((sigils names).applyChars (hideRule.apply t)) = _
    rw [apply_hideRule cut, applied, apply_restoreRule plain_y.named plain_y.plain]
  · rintro rfl
    have same : x.text masked = y.text masked := applied
    rw [← apply_restoreRule plain_y.named plain_y.plain, ← same,
      apply_restoreRule plain_x.named plain_x.plain, cut.whole]

/-- Two placeholders side by side, a name and a property around them, and a slot that looks masked
itself. -/
theorem sigils_keep_slots_adjacent :
    (∀ n ∈ ["id"], ClassDecl.isIdentifier n.toList = true) ∧
      (∀ n ∈ ["id"], n.toList.head? ≠ some '_' ∨ n.toList.getLast? ≠ some '_') ∧
      '~' ∉ "id \x7bid\x7d\x7b_id_\x7d id.x".toList ∧
      ∃ hide restore y, ofTable "php-placeholders" [hidePlaceholder] = .ok hide ∧
        phpRestore = .ok restore ∧
          restore.applyChars
            ((sigils ["id"]).applyChars (hide.applyChars "id \x7bid\x7d\x7b_id_\x7d id.x".toList)) =
          y.text braced ∧
        IsEdit true true
          ⟨['i', 'd', ' '],
            [(['i', 'd'], []), (['_', 'i', 'd', '_'], [' ', 'i', 'd', '.', 'x'])]⟩ y := by
  have ids : ∀ n ∈ ["id"], ClassDecl.isIdentifier n.toList = true := by decide
  have edges : ∀ n ∈ ["id"], n.toList.head? ≠ some '_' ∨ n.toList.getLast? ≠ some '_' := by decide
  have plain : '~' ∉ "id \x7bid\x7d\x7b_id_\x7d id.x".toList := by decide +kernel
  have cut : IsCutAt "id \x7bid\x7d\x7b_id_\x7d id.x".toList
      ⟨['i', 'd', ' '], [(['i', 'd'], []), (['_', 'i', 'd', '_'], [' ', 'i', 'd', '.', 'x'])]⟩ := by
    refine ⟨by decide +kernel, ?_, ?_⟩
    · simp only [List.forall_mem_cons]
      exact ⟨by decide, by decide, List.forall_mem_nil _⟩
    · simp only [Slotted.fields, List.map_cons, List.map_nil, List.forall_mem_cons]
      exact ⟨isSlotFree_of_not_mem (by decide), isSlotFree_of_not_mem (by decide),
        isSlotFree_of_not_mem (by decide), List.forall_mem_nil _⟩
  obtain ⟨hide, restore, x, y, readHide, readRestore, unique, result, edit, -⟩ :=
    sigils_keep_slots ["id"] ids edges _ plain
  obtain rfl := (unique _).mp cut
  exact ⟨ids, edges, plain, hide, restore, y, readHide, readRestore, result, edit⟩

end Ruleset

end Polyglot
