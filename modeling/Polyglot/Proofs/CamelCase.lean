import Mathlib.Data.List.Forall2
import Polyglot.Name.Case
import Polyglot.Proofs.Replacement

/-!
Names in camel case and their spelling with underscores. The conversion keeps to word characters,
and what it has made without an underscore it does not change again (`underscoredChars_fixed`): a
name that no underscore was put into has no place for one after its capitals are gone.
-/

namespace Polyglot

namespace Pattern

/-! ### Sequences of sets -/

variable {sets : List CharSet}

theorem mem_ways_sets {qs : List Pattern} {c e : Cursor} :
    e ∈ (seqAll (sets.map char ++ qs)).ways c ↔
      ∃ w r, c.rest = w ++ r ∧ List.Forall₂ (fun set d => set.has d = true) sets w ∧
        e ∈ (seqAll qs).ways (c.past w) := by
  induction sets generalizing c with
  | nil =>
    constructor
    · intro mem
      exact ⟨[], c.rest, rfl, .nil, by rw [Cursor.past_nil]; exact mem⟩
    · rintro ⟨w, r, -, fits, mem⟩
      cases fits
      rwa [Cursor.past_nil] at mem
  | cons set sets ih =>
    rw [List.map_cons, List.cons_append]
    constructor
    · intro mem
      obtain ⟨d, r, hr, behind, has, further⟩ := mem_ways_char_cons mem
      obtain ⟨w, r', hr', fits, mem⟩ := ih.mp further
      rw [behind] at hr'
      refine ⟨d :: w, r', by rw [hr, hr', List.cons_append], .cons has fits, ?_⟩
      rwa [Cursor.past_past] at mem
    · rintro ⟨w, r, hr, fits, mem⟩
      cases fits with
      | cons has fits =>
        rename_i d w
        rw [ways_char_cons hr has]
        refine ih.mpr ⟨w, r, Cursor.rest_past (w := [d]) hr, fits, ?_⟩
        rwa [Cursor.past_past]

theorem isMatch_sets (sets : List CharSet) {s : List Char} :
    (seqAll (sets.map char)).isMatch s = true ↔
      ∃ u w r, s = u ++ (w ++ r) ∧ List.Forall₂ (fun set d => set.has d = true) sets w := by
  have tame : (seqAll (sets.map char)).isTame = true := by simp [isTame]
  simp only [isMatch_iff, isSome_matchAt_iff tame]
  rw [← List.append_nil (sets.map char)]
  constructor
  · rintro ⟨u, v, rfl, e, mem⟩
    obtain ⟨w, r, hv, fits, -⟩ := mem_ways_sets.mp mem
    exact ⟨u, w, r, by rw [← hv]; rfl, fits⟩
  · rintro ⟨u, w, r, rfl, fits⟩
    exact ⟨u, w ++ r, rfl, _, mem_ways_sets.mpr ⟨w, r, rfl, fits, List.mem_singleton_self _⟩⟩

theorem isMatch_sets_textEnd (sets : List CharSet) {s : List Char} :
    (seqAll (sets.map char ++ [look .textEnd])).isMatch s = true ↔
      ∃ u w, s = u ++ w ∧ List.Forall₂ (fun set d => set.has d = true) sets w := by
  have tame : (seqAll (sets.map char ++ [look .textEnd])).isTame = true := by simp [isTame]
  simp only [isMatch_iff, isSome_matchAt_iff tame]
  constructor
  · rintro ⟨u, v, rfl, e, mem⟩
    obtain ⟨w, r, hv, fits, behind⟩ := mem_ways_sets.mp mem
    rw [ways_look_cons, Cursor.rest_past hv] at behind
    cases r with
    | nil => exact ⟨u, w, by rw [← List.append_nil w, ← hv]; rfl, fits⟩
    | cons d r => cases behind
  · rintro ⟨u, w, rfl, fits⟩
    refine ⟨u, w, rfl, (Cursor.start u.getLast? w).past w,
      mem_ways_sets.mpr ⟨w, [], by simp, fits, ?_⟩⟩
    rw [ways_look_cons, Cursor.rest_past (r := []) (by simp)]
    exact List.mem_singleton_self _

end Pattern

namespace Name

open Pattern Text

/-- A letter, then letters and digits, all ASCII. -/
def isCamel : List Char → Bool
  | [] => false
  | c :: w => isAsciiLetter c && w.all fun d => isAsciiLetter d || isAsciiDigit d

theorem ne_nil_of_isCamel {w : List Char} (h : isCamel w = true) : w ≠ [] := by
  rintro rfl
  cases h

theorem alnum_of_isCamel {w : List Char} (h : isCamel w = true) {c : Char} (hc : c ∈ w) :
    (isAsciiLetter c || isAsciiDigit c) = true := by
  cases w with
  | nil => cases hc
  | cons d w =>
    simp only [isCamel, Bool.and_eq_true, List.all_eq_true] at h
    rcases List.mem_cons.mp hc with rfl | later
    · rw [h.1, Bool.true_or]
    · exact h.2 c later

theorem isAsciiWord_of_isCamel {w : List Char} (h : isCamel w = true) {c : Char} (hc : c ∈ w) :
    isAsciiWord c = true := by
  rw [isAsciiWord, alnum_of_isCamel h hc, Bool.true_or]

theorem not_mem_of_isCamel {w : List Char} (h : isCamel w = true) : '_' ∉ w := by
  intro mem
  have := alnum_of_isCamel h mem
  revert this
  decide

/-! ### Small letters -/

theorem lowercaseAfter_eq_map (before : List Char) {s : List Char} (h : ∀ c ∈ s, c.toNat < 128) :
    lowercaseAfter before s = s.map lowerChar := by
  induction s generalizing before with
  | nil => rfl
  | cons c s ih =>
    obtain ⟨here, later⟩ := List.forall_mem_cons.mp h
    have sigma : c ≠ 'Σ' := by
      rintro rfl
      revert here
      decide
    have dotted : c ≠ 'İ' := by
      rintro rfl
      revert here
      decide
    rw [lowercaseAfter, if_neg sigma, if_neg dotted, ih _ later]
    rfl

theorem lowercase_eq_map {s : List Char} (h : ∀ c ∈ s, isAsciiWord c = true) :
    lowercase s = s.map lowerChar := by
  apply lowercaseAfter_eq_map
  intro c hc
  exact toNat_lt_of_isAsciiWord (h c hc)

section LowerChar

variable {c : Char} (hc : isAsciiWord c = true)
include hc

theorem isAsciiWord_lowerChar : isAsciiWord (lowerChar c) = true :=
  forall_isAsciiWord (P := fun c => isAsciiWord (lowerChar c) = true) (by decide) hc

theorem lowerChar_lowerChar : lowerChar (lowerChar c) = lowerChar c :=
  forall_isAsciiWord (P := fun c => lowerChar (lowerChar c) = lowerChar c) (by decide) hc

theorem not_capital_lowerChar : capital.has (lowerChar c) = false :=
  forall_isAsciiWord (P := fun c => capital.has (lowerChar c) = false) (by decide) hc

theorem figure_of_lowerChar (h : figure.has (lowerChar c) = true) : figure.has c = true :=
  forall_isAsciiWord (P := fun c => figure.has (lowerChar c) = true → figure.has c = true)
    (by decide) hc h

theorem letter_of_lowerChar (h : small.has (lowerChar c) = true) :
    small.has c = true ∨ capital.has c = true :=
  forall_isAsciiWord
    (P := fun c => small.has (lowerChar c) = true → small.has c = true ∨ capital.has c = true)
    (by decide) hc h

end LowerChar

/-! ### Splitting -/

section Split

variable {p : Pattern} {s : List Char} {c : Char}

theorem mem_splitAfterFirst_of_mem (h : c ∈ s) : c ∈ splitAfterFirst p s := by
  rw [← p.scan_source s] at h
  obtain ⟨piece, hpiece, hc⟩ := List.mem_flatMap.mp h
  refine List.mem_flatMap.mpr ⟨piece, hpiece, ?_⟩
  cases piece with
  | copy d => exact hc
  | hit m =>
    have : c ∈ m.text.take 1 ++ m.text.drop 1 := by rwa [List.take_append_drop]
    rcases List.mem_append.mp this with first | later
    · exact List.mem_append_left _ first
    · exact List.mem_append_right _ (List.mem_cons_of_mem _ later)

theorem mem_of_mem_splitAfterFirst (h : c ∈ splitAfterFirst p s) : c ∈ s ∨ c = '_' := by
  obtain ⟨piece, hpiece, hc⟩ := List.mem_flatMap.mp h
  have source (mem : c ∈ piece.source) : c ∈ s := by
    rw [← p.scan_source s]
    exact List.mem_flatMap.mpr ⟨piece, hpiece, mem⟩
  cases piece with
  | copy d => exact .inl (source hc)
  | hit m =>
    rcases List.mem_append.mp hc with first | later
    · exact .inl (source (List.mem_of_mem_take first))
    · rcases List.mem_cons.mp later with mark | rest
      · exact .inr mark
      · exact .inl (source (List.mem_of_mem_drop rest))

/-- Every match leaves an underscore. -/
theorem mem_splitAfterFirst_of_isMatch (h : p.isMatch s = true) : '_' ∈ splitAfterFirst p s := by
  have some : p.findAll s ≠ [] := by simpa [isMatch] using h
  obtain ⟨m, hm⟩ := List.exists_mem_of_ne_nil _ some
  obtain ⟨piece, hpiece, found⟩ := List.mem_filterMap.mp hm
  refine List.mem_flatMap.mpr ⟨piece, hpiece, ?_⟩
  cases piece with
  | copy d => cases found
  | hit m => exact List.mem_append_right _ List.mem_cons_self

theorem splitAfterFirst_of_not_mem (h : '_' ∉ splitAfterFirst p s) :
    splitAfterFirst p s = s ∧ p.isMatch s = false := by
  have none : p.isMatch s = false := by
    cases found : p.isMatch s with
    | false => rfl
    | true => exact absurd (mem_splitAfterFirst_of_isMatch found) h
  exact ⟨replaceAll_of_not_isMatch none, none⟩

end Split

/-! ### Converted names -/

/-- The three ways to split a name, one after another. -/
def splitWords (s : List Char) : List Char :=
  splitAfterFirst lastDigitPattern
    (splitAfterFirst acronymPattern (splitAfterFirst wordStartPattern s))

theorem underscoredChars_eq (s : List Char) :
    underscoredChars s = if allCapsPattern.isMatch s then s else lowercase (splitWords s) := rfl

theorem isAsciiWord_of_mem_splitWords {s : List Char} (h : ∀ c ∈ s, isAsciiWord c = true) :
    ∀ c ∈ splitWords s, isAsciiWord c = true := by
  have step {p : Pattern} {t : List Char} (ht : ∀ c ∈ t, isAsciiWord c = true) :
      ∀ c ∈ splitAfterFirst p t, isAsciiWord c = true := by
    intro c hc
    rcases mem_of_mem_splitAfterFirst hc with old | rfl
    · exact ht c old
    · decide
  exact step (step (step h))

theorem splitWords_ne_nil {s : List Char} (h : s ≠ []) : splitWords s ≠ [] := by
  obtain ⟨c, hc⟩ := List.exists_mem_of_ne_nil _ h
  exact List.ne_nil_of_mem
    (mem_splitAfterFirst_of_mem (mem_splitAfterFirst_of_mem (mem_splitAfterFirst_of_mem hc)))

/-- A converted name consists of word characters. -/
theorem isAsciiWord_of_mem_underscoredChars {s : List Char} (h : ∀ c ∈ s, isAsciiWord c = true) :
    ∀ c ∈ underscoredChars s, isAsciiWord c = true := by
  intro c hc
  rw [underscoredChars_eq] at hc
  split at hc
  · exact h c hc
  · rw [lowercase_eq_map (isAsciiWord_of_mem_splitWords h)] at hc
    obtain ⟨d, hd, rfl⟩ := List.mem_map.mp hc
    exact isAsciiWord_lowerChar (isAsciiWord_of_mem_splitWords h d hd)

theorem underscoredChars_ne_nil {s : List Char} (h : ∀ c ∈ s, isAsciiWord c = true)
    (full : s ≠ []) : underscoredChars s ≠ [] := by
  rw [underscoredChars_eq]
  split
  · exact full
  · rw [lowercase_eq_map (isAsciiWord_of_mem_splitWords h)]
    exact List.map_eq_nil_iff.not.mpr (splitWords_ne_nil full)

/-- None of the patterns that split a name matches. -/
structure IsUnsplit (s : List Char) : Prop where
  wordStart : wordStartPattern.isMatch s = false
  acronym : acronymPattern.isMatch s = false
  lastDigit : lastDigitPattern.isMatch s = false

theorem IsUnsplit.splitWords {s : List Char} (h : IsUnsplit s) : splitWords s = s := by
  have first : splitAfterFirst wordStartPattern s = s := replaceAll_of_not_isMatch h.wordStart
  have second : splitAfterFirst acronymPattern s = s := replaceAll_of_not_isMatch h.acronym
  have third : splitAfterFirst lastDigitPattern s = s := replaceAll_of_not_isMatch h.lastDigit
  rw [Name.splitWords, first, second, third]

/-- Without an underscore in the result there was no place to split. -/
theorem isUnsplit_of_not_mem {s : List Char} (h : '_' ∉ splitWords s) : IsUnsplit s := by
  obtain ⟨third, lastDigit⟩ := splitAfterFirst_of_not_mem h
  rw [splitWords, third] at h
  obtain ⟨second, acronym⟩ := splitAfterFirst_of_not_mem h
  rw [second] at h lastDigit
  obtain ⟨first, wordStart⟩ := splitAfterFirst_of_not_mem h
  rw [first] at acronym lastDigit
  exact ⟨wordStart, acronym, lastDigit⟩

/-! ### Names without a place to split -/

theorem isMatch_allCaps {s : List Char} (full : s ≠ [])
    (h : ∀ c ∈ s, (CharSet.union capital (.union figure (.single '_'))).has c = true) :
    allCapsPattern.isMatch s = true := by
  have tame : allCapsPattern.isTame = true := by decide
  have barred : Bars [look .textEnd] (.union capital (.union figure (.single '_'))) := by
    intro d hd
    rw [ways_look_cons]
    cases hrest : d.rest with
    | nil => simp [hrest] at hd
    | cons x r => rfl
  refine isMatch_iff.mpr ⟨[],
    s, rfl, (isSome_matchAt_iff tame).mpr ⟨(Cursor.start none s).past s, ?_⟩⟩
  have run := ways_plus_cons (c := .start none s) _ barred full (List.append_nil s).symm h rfl
  have start : allCapsPattern.ways (.start none s) = (seqAll [look .textEnd]).ways
      ((Cursor.start none s).past s) := by
    rw [← run]
    exact ways_look_cons .textStart _ (.start none s)
  change _ ∈ allCapsPattern.ways (.start none s)
  rw [start, ways_look_cons, Cursor.rest_past (r := []) (by simp)]
  exact List.mem_singleton_self _

section Unsplit

variable {w : List Char}

theorem not_wordStart {u r : List Char} {x y : Char} (h : wordStartPattern.isMatch w = false)
    (hw : w = u ++ x :: y :: r) (hx : small.has x = true ∨ figure.has x = true) :
    capital.has y = false := by
  cases hy : capital.has y with
  | false => rfl
  | true =>
    have found : wordStartPattern.isMatch w = true := by
      refine (isMatch_sets [.union small figure, capital]).mpr
        ⟨u, [x, y], r, hw, .cons ?_ (.cons hy .nil)⟩
      rcases hx with hx | hx <;> simp [hx]
    rw [h] at found
    cases found

theorem small_or_figure_or_capital {c : Char} (h : (isAsciiLetter c || isAsciiDigit c) = true) :
    (small.has c = true ∨ figure.has c = true) ∨ capital.has c = true := by
  simp only [isAsciiLetter, isAsciiDigit, Bool.or_eq_true] at h
  rcases h with (lower | upper) | digit
  · exact .inl (.inl lower)
  · exact .inr upper
  · exact .inl (.inr digit)

/-- Where no small letter or digit stands before a capital, all that precedes a capital are
capitals. -/
theorem capitals_of_not_wordStart (h : wordStartPattern.isMatch w = false)
    (alnum : ∀ c ∈ w, (isAsciiLetter c || isAsciiDigit c) = true) {a u r : List Char} {x : Char}
    (hw : w = a ++ (u ++ x :: r)) (hx : capital.has x = true) : ∀ c ∈ u, capital.has c = true := by
  induction u generalizing a with
  | nil =>
    intro c hc
    cases hc
  | cons d u ih =>
    have later := ih (a := a ++ [d]) (by rw [hw]; simp)
    obtain ⟨y, s, hy, next⟩ : ∃ y s, capital.has y = true ∧ u ++ x :: r = y :: s := by
      cases u with
      | nil => exact ⟨x, r, hx, rfl⟩
      | cons y u => exact ⟨y, u ++ x :: r, later y List.mem_cons_self, rfl⟩
    rw [List.cons_append, next] at hw
    intro c hc
    rcases List.mem_cons.mp hc with rfl | mem
    · rcases small_or_figure_or_capital (alnum c (by simp [hw])) with other | upper
      · rw [not_wordStart h hw other] at hy
        cases hy
      · exact upper
    · exact later c mem

theorem exists_of_isMatch_map (sets : List CharSet)
    (found : (seqAll (sets.map char)).isMatch (w.map lowerChar) = true) :
    ∃ u v r, w = u ++ (v ++ r) ∧
      List.Forall₂ (fun set c => set.has (lowerChar c) = true) sets v := by
  obtain ⟨u, v, r, hw, fits⟩ := (isMatch_sets sets).mp found
  obtain ⟨u, v', rfl, -, hv⟩ := List.map_eq_append_iff.mp hw
  obtain ⟨v, r, rfl, rfl, -⟩ := List.map_eq_append_iff.mp hv
  exact ⟨u, v, r, rfl, List.forall₂_map_right_iff.mp fits⟩

theorem exists_of_isMatch_map_textEnd (sets : List CharSet)
    (found : (seqAll (sets.map char ++ [look .textEnd])).isMatch (w.map lowerChar) = true) :
    ∃ u v, w = u ++ v ∧ List.Forall₂ (fun set c => set.has (lowerChar c) = true) sets v := by
  obtain ⟨u, v, hw, fits⟩ := (isMatch_sets_textEnd sets).mp found
  obtain ⟨u, v, rfl, -, rfl⟩ := List.map_eq_append_iff.mp hw
  exact ⟨u, v, rfl, List.forall₂_map_right_iff.mp fits⟩

section Lowered

variable (camel : isCamel w = true)
include camel

theorem not_wordStart_map_lowerChar : wordStartPattern.isMatch (w.map lowerChar) = false := by
  cases found : wordStartPattern.isMatch (w.map lowerChar) with
  | false => rfl
  | true =>
    obtain ⟨u, v, r, rfl, fits⟩ := exists_of_isMatch_map [.union small figure, capital] found
    match v, fits with
    | [x, y], .cons _ (.cons hy .nil) =>
      rw [not_capital_lowerChar (isAsciiWord_of_isCamel camel (by simp))] at hy
      cases hy

/-- Two digits before a letter were there already, and the letter was split off if it was a
capital. -/
theorem not_acronym_map_lowerChar (h : IsUnsplit w) :
    acronymPattern.isMatch (w.map lowerChar) = false := by
  cases found : acronymPattern.isMatch (w.map lowerChar) with
  | false => rfl
  | true =>
    obtain ⟨u, v, r, hw, fits⟩ := exists_of_isMatch_map [.union capital figure,
      .union capital figure, small, .compl (.single '$')] found
    match v, fits with
    | [x, y, z, t], .cons hx (.cons hy (.cons hz (.cons _ .nil))) =>
      have ascii {c : Char} (hc : c ∈ [x, y, z, t]) : isAsciiWord c = true :=
        isAsciiWord_of_isCamel camel
          (by rw [hw]; exact List.mem_append_right _ (List.mem_append_left _ hc))
      have digit {c : Char} (hc : c ∈ [x, y, z, t])
          (has : (CharSet.union capital figure).has (lowerChar c) = true) :
          figure.has c = true := by
        rw [CharSet.has_union, not_capital_lowerChar (ascii hc), Bool.false_or] at has
        exact figure_of_lowerChar (ascii hc) has
      have hx := digit (by simp) hx
      have hy := digit (by simp) hy
      rcases letter_of_lowerChar (ascii (by simp)) hz with lower | upper
      · have plain : t ≠ '$' :=
          forall_isAsciiWord (P := fun c => c ≠ '$') (by decide) (ascii (by simp))
        have here : acronymPattern.isMatch w = true :=
          (isMatch_sets [.union capital figure, .union capital figure, small,
            .compl (.single '$')]).mpr ⟨u, [x, y, z, t], r, hw,
              .cons (by simp [hx])
              (.cons (by simp [hy]) (.cons lower (.cons (by simp [plain]) .nil)))⟩
        rw [h.acronym] at here
        cases here
      · have next : w = (u ++ [x]) ++ y :: z :: (t :: r) := by rw [hw]; simp
        rw [not_wordStart h.wordStart next (.inr hy)] at upper
        cases upper

/-- A capital before the last digit has only capitals before it. -/
theorem not_lastDigit_map_lowerChar (caps : allCapsPattern.isMatch w = false) (h : IsUnsplit w) :
    lastDigitPattern.isMatch (w.map lowerChar) = false := by
  cases found : lastDigitPattern.isMatch (w.map lowerChar) with
  | false => rfl
  | true =>
    obtain ⟨u, v, hw, fits⟩ := exists_of_isMatch_map_textEnd [small, figure] found
    match v, fits with
    | [x, y], .cons hx (.cons hy .nil) =>
      have hx := letter_of_lowerChar (isAsciiWord_of_isCamel camel (by simp [hw])) hx
      have hy := figure_of_lowerChar (isAsciiWord_of_isCamel camel (by simp [hw])) hy
      rcases hx with lower | upper
      · have here : lastDigitPattern.isMatch w = true :=
          (isMatch_sets_textEnd [small, figure]).mpr
            ⟨u, [x, y], hw, .cons lower (.cons hy .nil)⟩
        rw [h.lastDigit] at here
        cases here
      · have before : ∀ c ∈ u, capital.has c = true :=
          capitals_of_not_wordStart (a := []) h.wordStart
            (fun c hc => alnum_of_isCamel camel hc) hw upper
        have whole : allCapsPattern.isMatch w = true := by
          refine isMatch_allCaps (ne_nil_of_isCamel camel) fun c hc => ?_
          rw [hw] at hc
          rcases List.mem_append.mp hc with first | last
          · simp [before c first]
          · rcases List.mem_cons.mp last with rfl | last
            · simp [upper]
            · rw [List.mem_singleton.mp last]
              simp [hy]
        rw [caps] at whole
        cases whole

end Lowered

end Unsplit

/-- A conversion that puts no underscore into a name is not undone or continued by a second one. -/
theorem underscoredChars_fixed {w : List Char} (camel : isCamel w = true)
    (plain : '_' ∉ underscoredChars w) :
    underscoredChars (underscoredChars w) = underscoredChars w := by
  have ascii : ∀ c ∈ w, isAsciiWord c = true := fun c hc => isAsciiWord_of_isCamel camel hc
  cases caps : allCapsPattern.isMatch w with
  | true =>
    have same : underscoredChars w = w := by rw [underscoredChars_eq, caps, if_pos rfl]
    rw [same, same]
  | false =>
    have converted : underscoredChars w = (splitWords w).map lowerChar := by
      rw [underscoredChars_eq, caps, if_neg Bool.false_ne_true,
        lowercase_eq_map (isAsciiWord_of_mem_splitWords ascii)]
    have unsplit : IsUnsplit w := by
      refine isUnsplit_of_not_mem fun mem => plain ?_
      rw [converted]
      exact List.mem_map.mpr ⟨'_', mem, by decide⟩
    rw [unsplit.splitWords] at converted
    have lowered : IsUnsplit (w.map lowerChar) :=
      ⟨not_wordStart_map_lowerChar camel, not_acronym_map_lowerChar camel unsplit,
        not_lastDigit_map_lowerChar camel caps unsplit⟩
    rw [converted, underscoredChars_eq]
    split
    · rfl
    · rw [lowered.splitWords, lowercase_eq_map, List.map_map]
      · exact List.map_congr_left fun c hc => lowerChar_lowerChar (ascii c hc)
      · intro c hc
        obtain ⟨d, hd, rfl⟩ := List.mem_map.mp hc
        exact isAsciiWord_lowerChar (ascii d hd)

end Name

end Polyglot
