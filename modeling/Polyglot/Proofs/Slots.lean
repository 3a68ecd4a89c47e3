import Mathlib.Data.List.Forall2
import Polyglot.Proofs.Lines
import Polyglot.Proofs.Replacement
import Polyglot.Proofs.Results
import Polyglot.Ruleset.Php

/-!
Texts with slots. A slot is a word in braces, and a text is cut at its slots in one way only
(`IsCutAt.unique`). One rule masks the slots, which keeps off the rules for braces and for
variables, and another one writes them in braces again: `apply_hideRule` and `apply_restoreRule`.
-/

namespace Polyglot

open Text

/-! ### Cutting a text at its slots -/

/-- A text with slots: what stands before the first slot, and each slot with what stands behind
it. -/
structure Slotted where
  first : List Char
  slots : List (List Char × List Char)
  deriving DecidableEq, Repr

namespace Slotted

/-- A slot as it is written. -/
def braced (w : List Char) : List Char :=
  '{' :: (w ++ ['}'])

/-- A slot in its masked form. -/
def masked (w : List Char) : List Char :=
  '~' :: ('_' :: (w ++ ['_'])) ++ ['~']

/-- Slots with what stands behind each of them. -/
def textFrom (wrap : List Char → List Char) (slots : List (List Char × List Char)) : List Char :=
  slots.flatMap fun slot => wrap slot.1 ++ slot.2

def text (wrap : List Char → List Char) (x : Slotted) : List Char :=
  x.first ++ textFrom wrap x.slots

/-- What stands outside of the slots. -/
def fields (x : Slotted) : List (List Char) :=
  x.first :: x.slots.map Prod.snd

theorem textFrom_cons (wrap : List Char → List Char) (w s : List Char)
    (slots : List (List Char × List Char)) :
    textFrom wrap ((w, s) :: slots) = wrap w ++ (s ++ textFrom wrap slots) := by
  rw [textFrom, List.flatMap_cons, List.append_assoc]
  rfl

/-- A text of slots is empty or begins as a slot does. -/
theorem textFrom_head {wrap : List Char → List Char} {c : Char} (h : ∀ w, ∃ r, wrap w = c :: r)
    (slots : List (List Char × List Char)) :
    textFrom wrap slots = [] ∨ (textFrom wrap slots).head? = some c := by
  cases slots with
  | nil => exact .inl rfl
  | cons slot slots =>
    obtain ⟨r, begun⟩ := h slot.1
    right
    rw [textFrom, List.flatMap_cons, begun]
    rfl

theorem textFrom_braced_head (slots : List (List Char × List Char)) :
    textFrom braced slots = [] ∨ (textFrom braced slots).head? = some '{' :=
  textFrom_head (fun _ => ⟨_, rfl⟩) slots

theorem textFrom_masked_head (slots : List (List Char × List Char)) :
    textFrom masked slots = [] ∨ (textFrom masked slots).head? = some '~' :=
  textFrom_head (fun _ => ⟨_, rfl⟩) slots

theorem mem_text_of_mem_field {x : Slotted} {field : List Char} {c : Char}
    (mem : field ∈ x.fields) (hc : c ∈ field) (wrap : List Char → List Char) : c ∈ x.text wrap := by
  rcases List.mem_cons.mp mem with rfl | later
  · exact List.mem_append_left _ hc
  · obtain ⟨slot, hslot, rfl⟩ := List.mem_map.mp later
    exact List.mem_append_right _ (List.mem_flatMap.mpr ⟨slot, hslot, List.mem_append_right _ hc⟩)

end Slotted

open Slotted

/-- There is no slot in the text. -/
def IsSlotFree (s : List Char) : Prop :=
  ∀ u w v, s = u ++ (braced w ++ v) → ¬ IsAsciiName w

theorem isSlotFree_of_not_mem {s : List Char} (h : '{' ∉ s) : IsSlotFree s := by
  rintro u w v rfl -
  exact h (List.mem_append_right _ (List.mem_append_left _ List.mem_cons_self))

/-- The text is cut at all of its slots. -/
structure IsCutAt (t : List Char) (x : Slotted) : Prop where
  whole : t = x.text braced
  named : ∀ slot ∈ x.slots, IsAsciiName slot.1
  free : ∀ field ∈ x.fields, IsSlotFree field

theorem braced_append_inj {v w r s : List Char} (hv : IsAsciiName v) (hw : IsAsciiName w)
    (same : braced v ++ r = braced w ++ s) : v = w ∧ r = s := by
  have inner : v ++ '}' :: r = w ++ '}' :: s := by simpa [braced] using same
  obtain ⟨rfl, rest⟩ := run_unique (p := isAsciiWord) hv.word hw.word (by rfl) (by rfl) inner
  exact ⟨rfl, (List.cons.inj rest).2⟩

/-- A slot that begins in a text without slots does not end behind it, where another slot begins. -/
theorem IsSlotFree.not_begins {s v w r rest : List Char} (free : IsSlotFree s)
    (hv : v <:+ s) (full : v ≠ []) (stop : rest = [] ∨ rest.head? = some '{') (hw : IsAsciiName w) :
    v ++ rest ≠ braced w ++ r := by
  intro same
  obtain ⟨u, rfl⟩ := hv
  rcases List.append_eq_append_iff.mp same with ⟨x, slot, behind⟩ | ⟨x, inside, -⟩
  · rcases x with _ | ⟨c, x⟩
    · rw [List.append_nil] at slot
      exact free u w [] (by rw [slot, List.append_nil]) hw
    · -- The first character of the rest would be one of the word, or the brace that ends it.
      have brace : c = '{' := by
        rcases stop with rfl | head
        · cases behind
        · rw [behind] at head
          exact Option.some.inj head
      obtain ⟨d, v, rfl⟩ := List.exists_cons_of_ne_nil full
      have inner : w ++ ['}'] = v ++ c :: x := (List.cons.inj slot).2
      have mem : c ∈ w ++ ['}'] := inner ▸ List.mem_append_right _ List.mem_cons_self
      subst brace
      rcases List.mem_append.mp mem with word | last
      · exact absurd (hw.word _ word) (by decide)
      · exact absurd (List.mem_singleton.mp last) (by decide)
  · exact free u w x (by rw [inside]) hw

/-- Every text can be cut. -/
theorem exists_isCutAt (t : List Char) : ∃ x, IsCutAt t x := by
  induction hlen : t.length using Nat.strongRecOn generalizing t with
  | ind n ih =>
    by_cases begins : ∃ w r, t = braced w ++ r ∧ IsAsciiName w
    · obtain ⟨w, r, rfl, hw⟩ := begins
      obtain ⟨⟨first, slots⟩, cut⟩ := ih r.length (by simp [← hlen, braced]; omega) r rfl
      refine ⟨⟨[], (w, first) :: slots⟩, ?_, List.forall_mem_cons.mpr ⟨hw, cut.named⟩, ?_⟩
      · rw [cut.whole, text, text, textFrom_cons]
        rfl
      · refine List.forall_mem_cons.mpr ⟨fun u w' v same => ?_, cut.free⟩
        simp [braced] at same
    · cases t with
      | nil =>
        refine ⟨⟨[], []⟩, rfl, by simp, List.forall_mem_singleton.mpr fun u w v same => ?_⟩
        simp [braced] at same
      | cons c t =>
        obtain ⟨⟨first, slots⟩, cut⟩ := ih t.length (by simp [← hlen]) t rfl
        obtain ⟨free, others⟩ := List.forall_mem_cons.mp cut.free
        refine ⟨⟨c :: first, slots⟩,
          by rw [cut.whole]; rfl, cut.named, List.forall_mem_cons.mpr ⟨?_, others⟩⟩
        intro u w v same hw
        rcases u with _ | ⟨d, u⟩
        · refine begins ⟨w, v ++ textFrom braced slots, ?_, hw⟩
          rw [cut.whole]
          change c :: first ++ textFrom braced slots = _
          rw [show c :: first = _ from same, List.nil_append, List.append_assoc]
        · exact free u w v (List.cons.inj same).2 hw

namespace IsCutAt

variable {t : List Char} {x y : Slotted}

theorem first_length_le (h : IsCutAt t x) (h' : IsCutAt t y) : y.first.length ≤ x.first.length := by
  refine Nat.le_of_not_lt fun short => ?_
  obtain ⟨v, longer⟩ :=
    List.prefix_of_prefix_length_le ⟨_, h.whole.symm⟩ ⟨_, h'.whole.symm⟩ (Nat.le_of_lt short)
  have full : v ≠ [] := by
    rintro rfl
    rw [← longer, List.append_nil] at short
    exact Nat.lt_irrefl _ short
  have same := h.whole.symm.trans h'.whole
  rw [text, text, ← longer, List.append_assoc, List.append_cancel_left_eq] at same
  cases slots : x.slots with
  | nil =>
    rw [slots] at same
    exact full (List.append_eq_nil_iff.mp same.symm).1
  | cons slot rest =>
    have hw : IsAsciiName slot.1 := h.named slot (by rw [slots]; exact List.mem_cons_self)
    rw [slots] at same
    have begun := same.symm.trans (textFrom_cons braced slot.1 slot.2 rest)
    exact (h'.free _ List.mem_cons_self).not_begins ⟨_, longer⟩ full
      (textFrom_braced_head y.slots) hw begun

theorem first_eq (h : IsCutAt t x) (h' : IsCutAt t y) :
    x.first = y.first ∧ textFrom braced x.slots = textFrom braced y.slots :=
  List.append_inj (h.whole.symm.trans h'.whole) (Nat.le_antisymm (h'.first_length_le h)
    (h.first_length_le h'))

/-- The text behind a slot is cut as well. -/
theorem tail {first w s : List Char} {slots : List (List Char × List Char)}
    (h : IsCutAt t ⟨first, (w, s) :: slots⟩) : IsCutAt (s ++ textFrom braced slots) ⟨s, slots⟩ :=
  ⟨rfl, (List.forall_mem_cons.mp h.named).2, (List.forall_mem_cons.mp h.free).2⟩

/-- There is one way only to cut a text at its slots. -/
theorem unique (h : IsCutAt t x) (h' : IsCutAt t y) : x = y := by
  obtain ⟨first, slots⟩ := x
  obtain ⟨first', slots'⟩ := y
  induction slots generalizing t first first' slots' with
  | nil =>
    obtain ⟨same, rest⟩ := h.first_eq h'
    cases slots' with
    | nil => exact congrArg (Slotted.mk · []) same
    | cons slot slots' => cases rest
  | cons slot slots ih =>
    obtain ⟨same, rest⟩ := h.first_eq h'
    cases slots' with
    | nil => cases rest
    | cons slot' slots' =>
      obtain ⟨w, s⟩ := slot
      obtain ⟨w', s'⟩ := slot'
      rw [textFrom_cons, textFrom_cons] at rest
      obtain ⟨word, behind⟩ :=
        braced_append_inj (h.named _ List.mem_cons_self) (h'.named _ List.mem_cons_self) rest
      have cut' := h'.tail
      rw [← behind] at cut'
      obtain ⟨rfl, rfl⟩ := Slotted.mk.inj (ih _ h.tail _ _ cut')
      obtain rfl : first = first' := same
      obtain rfl : w = w' := word
      rfl

end IsCutAt

/-! ### Rules for slots -/

namespace Ruleset

open Pattern

/-- The characters of words. -/
def wordSet : CharSet :=
  .ofItems (letterOrDigit ++ [.single '_'])

theorem has_wordSet (c : Char) : wordSet.has c = isAsciiWord c := by
  rw [Bool.eq_iff_iff]
  simp [wordSet, CharSet.ofItems, letterOrDigit, isAsciiWord, isAsciiLetter,
    isAsciiDigit, CharSet.has]

/-- A word between two texts, as short as possible. -/
def slotPattern (opening closing : List Char) : Pattern :=
  seqAll (chars opening ++ group 1 (plus false (char wordSet)) :: chars closing)

section Slot

variable {opening closing : List Char}

theorem isTame_slotPattern : (slotPattern opening closing).isTame = true := by
  simp [slotPattern, isTame, endsInChar]

theorem looks_slotPattern : (slotPattern opening closing).looks = false := by
  simp [slotPattern, looks]

theorem nullable_slotPattern : (slotPattern opening closing).nullable = false := by
  simp [slotPattern, nullable]

/-- A word is matched whole if what closes a slot does not begin in it. -/
theorem matchAt_slotPattern {w : List Char} (hw : IsAsciiName w) (r : List Char)
    (late : ∀ u v, w = u ++ v → v ≠ [] → ¬ closing <+: v ++ (closing ++ r)) :
    (slotPattern opening closing).matchAt none (opening ++ (w ++ (closing ++ r))) =
      some ⟨opening ++ (w ++ closing), [(1, w)]⟩ := by
  let c := Cursor.start none (opening ++ (w ++ (closing ++ r)))
  have rest : (c.past opening).rest = w ++ (closing ++ r) := Cursor.rest_past rfl
  have all : ∀ d ∈ w, wordSet.has d = true := fun d hd => by rw [has_wordSet, hw.word d hd]
  have fails (u : List Char) (_ : u ≠ []) (begins : u <+: w) (short : u ≠ w) :
      (seqAll (chars closing)).ways ((c.past opening).noting 1 u) = [] := by
    obtain ⟨v, rfl⟩ := begins
    refine ways_chars_eq_nil fun closed => late u v rfl (fun empty => short (by simp [empty])) ?_
    rwa [Cursor.rest_noting 1 (by rw [rest, List.append_assoc])] at closed
  obtain ⟨more, grown⟩ := ways_group_plus_lazy_cons 1 hw.full rest all fails
  rw [matchAt_eq_ways isTame_slotPattern, slotPattern, ways_chars_append (c := c) rfl, grown,
    ways_chars (Cursor.rest_noting 1 rest)]
  simp [c, Cursor.toMatch, Cursor.noting, Cursor.start, Cursor.past]

theorem of_matchAt_slotPattern {before : Option Char} {s : List Char} {m : Match}
    (found : (slotPattern opening closing).matchAt before s = some m) :
    ∃ w r, IsAsciiName w ∧ s = opening ++ (w ++ (closing ++ r)) := by
  obtain ⟨e, mem⟩ := (isSome_matchAt_iff isTame_slotPattern).mp (Option.isSome_of_eq_some found)
  obtain ⟨r, hs, rest, mem⟩ := mem_ways_chars_append mem
  obtain ⟨w, r', full, hr, behind, all, mem⟩ := mem_ways_group_plus_cons mem
  obtain ⟨r'', hr', -⟩ := mem_ways_chars.mp mem
  rw [rest] at hr
  rw [behind] at hr'
  exact ⟨w, r'', ⟨full, fun c hc => by rw [← has_wordSet, all c hc]⟩,
    by rw [← Cursor.rest_start before s, hs, hr, hr']⟩

end Slot

/-- A rule that rewrites the slots and finds nothing in the texts between them. -/
theorem replaceAll_textFrom {p : Pattern} (tame : p.isTame = true) (blind : p.looks = false)
    (solid : p.nullable = false) {f : Match → List Char} {wrap wrap' : List Char → List Char}
    (hit : ∀ w r, IsAsciiName w → ∃ m, m.text = wrap w ∧ p.matchAt none (wrap w ++ r) =
      some m ∧ f m = wrap' w)
    {x : Slotted} (named : ∀ slot ∈ x.slots, IsAsciiName slot.1)
    (none : ∀ field ∈ x.fields, ∀ v slots, v <:+ field → v ≠ [] →
      p.matchAt none (v ++ textFrom wrap slots) = none) :
    p.replaceAll f (x.text wrap) = x.text wrap' := by
  obtain ⟨first, slots⟩ := x
  induction slots generalizing first with
  | nil =>
    have copied := replaceAll_copy tame blind (f := f) (s := []) fun v hv full =>
      none first List.mem_cons_self v [] hv full
    rw [replaceAll_nil solid] at copied
    exact copied
  | cons slot slots ih =>
    obtain ⟨w, s⟩ := slot
    obtain ⟨hw, named⟩ := List.forall_mem_cons.mp named
    obtain ⟨m, whole, found, put⟩ := hit w (s ++ textFrom wrap slots) hw
    have rest := ih s named (List.forall_mem_cons.mp none).2
    rw [Slotted.text, textFrom_cons, replaceAll_copy tame blind]
    · rw [← whole] at found
      rw [← whole, replaceAll_hit tame blind solid found, put, Slotted.text, textFrom_cons]
      exact congrArg (fun t => first ++ (wrap' w ++ t)) rest
    · intro v hv full
      rw [← textFrom_cons]
      exact none first List.mem_cons_self v _ hv full

/-! ### The two rules -/

def hideRule : Rule :=
  ⟨⟨hidePlaceholder.1, slotPattern ['{'] ['}'], []⟩, hidePlaceholder.2⟩

def restoreRule : Rule :=
  ⟨⟨restorePlaceholder.1, slotPattern ['~', '_'] ['_', '~'], []⟩, restorePlaceholder.2⟩

theorem hidePattern_spelled :
    (Pattern.ofSource hidePlaceholder.1.toList).toOption = some (slotPattern ['{'] ['}'], []) := by
  decide +kernel

theorem restorePattern_spelled :
    (Pattern.ofSource restorePlaceholder.1.toList).toOption =
    some (slotPattern ['~', '_'] ['_', '~'], []) := by
  decide +kernel

/-- A table of one rule. -/
theorem ofTable_singleton {row : String × String} {p : Pattern} (name : String)
    (spelled : (Pattern.ofSource row.1.toList).toOption = some (p, [])) :
    ofTable name [row] = .ok ⟨name, [⟨⟨row.1, p, []⟩, row.2⟩]⟩ := by
  have read : Matcher.ofSource row.1 = .ok ⟨row.1, p, []⟩ := by
    rw [Matcher.ofSource, eq_ok_of_toOption spelled]
    rfl
  have rule : Rule.ofTexts row.1 row.2 = .ok ⟨⟨row.1, p, []⟩, row.2⟩ := by
    rw [Rule.ofTexts, read]
  rw [ofTable, List.mapM_cons, List.mapM_nil, rule]
  rfl

theorem ofTable_hidePlaceholder :
    ofTable "php-placeholders" [hidePlaceholder] = .ok ⟨"php-placeholders", [hideRule]⟩ :=
  ofTable_singleton _ hidePattern_spelled

theorem phpRestore_eq : phpRestore = .ok ⟨"php-placeholders", [restoreRule]⟩ :=
  ofTable_singleton _ restorePattern_spelled

theorem expand_hideTemplate (m : Match) :
    Template.expand hideRule.matcher.names (Template.parts hideRule.template.toList) m =
      masked (m.group 1) := by
  have parts : Template.parts hideRule.template.toList =
      [.char '~', .char '_', .group 1, .char '_', .char '~'] := by
    decide +kernel
  rw [parts]
  simp [Template.expand, Template.Part.expand, masked]

theorem expand_restoreTemplate (m : Match) :
    Template.expand restoreRule.matcher.names (Template.parts restoreRule.template.toList) m =
      braced (m.group 1) := by
  have parts : Template.parts restoreRule.template.toList = [.char '{', .group 1, .char '}'] := by
    decide +kernel
  rw [parts]
  simp [Template.expand, Template.Part.expand, braced]

/-- Hiding writes the slots in their masked form, and leaves the texts between them. -/
theorem apply_hideRule {t : List Char} {x : Slotted} (cut : IsCutAt t x) :
    hideRule.apply t = x.text masked := by
  rw [cut.whole]
  refine replaceAll_textFrom isTame_slotPattern looks_slotPattern nullable_slotPattern
    (fun w r hw => ?_) cut.named fun field mem v slots hv full => ?_
  · have late (u v : List Char) (hv : w = u ++ v) (full : v ≠ []) :
        ¬ ['}'] <+: v ++ (['}'] ++ r) := by
      rintro ⟨s, same⟩
      obtain ⟨c, v, rfl⟩ := List.exists_cons_of_ne_nil full
      have word := hw.word c (by simp [hv])
      rw [← (List.cons.inj same).1] at word
      exact absurd word (by decide)
    refine ⟨⟨braced w, [(1, w)]⟩, rfl, ?_, ?_⟩
    · have found : (slotPattern ['{'] ['}']).matchAt none (['{'] ++ (w ++ (['}'] ++ r))) = _ :=
        matchAt_slotPattern hw r late
      simpa [braced] using found
    · rw [expand_hideTemplate]
      simp [Match.group, Match.group?]
  · cases found : (slotPattern ['{'] ['}']).matchAt none (v ++ textFrom braced slots) with
    | none => rfl
    | some m =>
      obtain ⟨w, r, hw, same⟩ := of_matchAt_slotPattern found
      refine absurd ?_ ((cut.free field mem).not_begins hv full
        (textFrom_braced_head slots) hw (r := r))
      simpa [braced] using same

/-- Restoring writes the slots in braces, and leaves the texts between them. -/
theorem apply_restoreRule {x : Slotted} (named : ∀ slot ∈ x.slots, IsAsciiName slot.1)
    (plain : ∀ field ∈ x.fields, '~' ∉ field) :
    restoreRule.apply (x.text masked) = x.text braced := by
  refine replaceAll_textFrom isTame_slotPattern looks_slotPattern nullable_slotPattern
    (fun w r hw => ?_) named fun field mem v slots hv full => ?_
  · have late (u v : List Char) (hv : w = u ++ v) (full : v ≠ []) :
        ¬ ['_', '~'] <+: v ++ (['_', '~'] ++ r) := by
      rintro ⟨s, same⟩
      obtain ⟨c, v, rfl⟩ := List.exists_cons_of_ne_nil full
      have behind : '~' :: s = v ++ (['_', '~'] ++ r) := (List.cons.inj same).2
      rcases v with _ | ⟨d, v⟩
      · exact absurd (List.cons.inj behind).1 (by decide)
      · have word := hw.word d (by simp [hv])
        rw [← (List.cons.inj behind).1] at word
        exact absurd word (by decide)
    refine ⟨⟨masked w, [(1, w)]⟩, rfl, ?_, ?_⟩
    · have found :
          (slotPattern ['~', '_'] ['_', '~']).matchAt none
          (['~', '_'] ++ (w ++ (['_', '~'] ++ r))) = _ :=
        matchAt_slotPattern hw r late
      simpa [masked] using found
    · rw [expand_restoreTemplate]
      simp [Match.group, Match.group?]
  · cases found : (slotPattern ['~', '_'] ['_', '~']).matchAt none (v ++ textFrom masked slots) with
    | none => rfl
    | some m =>
      obtain ⟨w, r, hw, same⟩ := of_matchAt_slotPattern found
      obtain ⟨c, v, rfl⟩ := List.exists_cons_of_ne_nil full
      obtain rfl : c = '~' := (List.cons.inj same).1
      exact absurd (hv.mem List.mem_cons_self) (plain field mem)

end Ruleset

end Polyglot
