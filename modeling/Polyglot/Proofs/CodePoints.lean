import Mathlib.Data.List.Chain
import Polyglot.Pattern.CodePoints

/-!
The ranges of a set of characters are its characters. `Ranges.Covers` is the plain meaning of a list
of ranges, and `has_iff_covers` says that the ranges computed for a set cover what the set has. So a
set with the one range of a character has only that one (`has_of_only?`), and sets with one list of
ranges have the same characters (`has_eq_of_same`).

Ranges hold code points, and the surrogates among these are no characters. What keeps them apart is
that no range begins or ends inside the surrogates (`Whole`).
-/

namespace Polyglot

namespace Text.Ranges

/-- The code point lies in one of the ranges. -/
def Covers (a : Ranges) (n : Nat) : Prop :=
  ∃ r ∈ a, r.1 ≤ n ∧ n ≤ r.2

instance (a : Ranges) (n : Nat) : Decidable (Covers a n) :=
  decidable_of_iff ((a.any fun r => decide (r.1 ≤ n) && decide (n ≤ r.2)) = true) (by simp [Covers])

/-- A range of code points that holds all the surrogates if it holds one. -/
def Whole (r : Nat × Nat) : Prop :=
  r.1 ≤ r.2 ∧ r.2 ≤ 0x10FFFF ∧ (r.1 ≤ 0xD800 ∨ 0xE000 ≤ r.1) ∧ (r.2 < 0xD800 ∨ 0xDFFF ≤ r.2)

instance (r : Nat × Nat) : Decidable (Whole r) :=
  inferInstanceAs (Decidable (_ ∧ _ ∧ _ ∧ _))

/-- Ranges that increase and do not overlap. -/
structure Sound (a : Ranges) : Prop where
  ascending : a.Pairwise fun r s => r.2 < s.1
  whole : ∀ r ∈ a, Whole r

variable {a b : Ranges} {r : Nat × Nat} {n : Nat}

@[simp] theorem not_covers_nil : ¬Covers [] n := by
  rintro ⟨r, mem, -⟩
  cases mem

@[simp] theorem covers_cons : Covers (r :: a) n ↔ (r.1 ≤ n ∧ n ≤ r.2) ∨ a.Covers n := by
  simp [Covers]

namespace Sound

theorem nil : Sound [] :=
  ⟨.nil, fun _ mem => nomatch mem⟩

theorem single (whole : Whole r) : Sound [r] :=
  ⟨List.pairwise_singleton _ _, fun _ mem => List.mem_singleton.mp mem ▸ whole⟩

theorem tail (h : Sound (r :: a)) : a.Sound :=
  ⟨h.ascending.of_cons, fun s mem => h.whole s (List.mem_cons_of_mem r mem)⟩

theorem lt_of_mem (h : Sound (r :: a)) {s : Nat × Nat} (mem : s ∈ a) : r.2 < s.1 :=
  List.rel_of_pairwise_cons h.ascending mem

/-- The ranges start in increasing order. -/
theorem sorted (h : a.Sound) : a.Pairwise fun r s => r.1 ≤ s.1 :=
  h.ascending.imp_of_mem fun mem _ before => Nat.le_trans (h.whole _ mem).1 before.le

/-- Neighbours are enough to look at. -/
theorem of_isChain (chain : a.IsChain fun r s => r.1 ≤ r.2 ∧ r.2 < s.1) (whole : ∀ r ∈ a, Whole r) :
    a.Sound := by
  have : IsTrans (Nat × Nat) fun r s => r.1 ≤ r.2 ∧ r.2 < s.1 :=
    ⟨fun r s t first second => ⟨first.1, by omega⟩⟩
  exact ⟨(List.isChain_iff_pairwise.mp chain).imp And.right, whole⟩

end Sound

/-- The ranges that increase may be looked through from the first on. -/
theorem has_iff_covers_of_sound (h : a.Sound) {c : Char} : a.has c = true ↔ a.Covers c.toNat := by
  induction a with
  | nil => simp [has]
  | cons r a ih =>
    have first : r.1 ≤ r.2 := (h.whole r List.mem_cons_self).1
    have later : Covers a c.toNat → r.1 ≤ c.toNat := by
      rintro ⟨s, mem, low, -⟩
      have := h.lt_of_mem mem
      omega
    simp only [has, Bool.and_eq_true, Bool.or_eq_true, decide_eq_true_eq, ih h.tail, covers_cons]
    grind

/-! ### Union -/

theorem merge_eq (a b : Ranges) : a.merge b = List.merge a b fun r s => decide (r.1 ≤ s.1) := by
  induction a generalizing b with
  | nil => simp [merge]
  | cons r a iha =>
    induction b with
    | nil => simp [merge, merge.insertInto, iha]
    | cons s b ihb =>
      rw [merge, merge.insertInto, List.cons_merge_cons]
      rw [merge] at ihb
      by_cases first : r.1 ≤ s.1
      · simp [first, iha]
      · simp [first, ihb]

theorem covers_merge : (a.merge b).Covers n ↔ a.Covers n ∨ b.Covers n := by
  simp only [Covers, merge_eq, List.mem_merge]
  grind

theorem pairwise_merge (ha : a.Sound) (hb : b.Sound) :
    (a.merge b).Pairwise fun r s => r.1 ≤ s.1 := by
  rw [merge_eq]
  refine (List.pairwise_merge ?_ ?_ a b ?_ ?_).imp of_decide_eq_true
  · intro r s t first second
    exact decide_eq_true ((of_decide_eq_true first).trans (of_decide_eq_true second))
  · intro r s
    simpa using Nat.le_total r.1 s.1
  · exact ha.sorted.imp decide_eq_true
  · exact hb.sorted.imp decide_eq_true

/-- Ranges in the order of their beginnings become ranges that do not overlap. The first of them
begins where it did. -/
theorem sound_coalesce_go (sorted : (r :: a).Pairwise fun r s => r.1 ≤ s.1)
    (whole : ∀ s ∈ r :: a, Whole s) :
    (coalesce.go r a).Sound ∧ ∀ s ∈ coalesce.go r a, r.1 ≤ s.1 := by
  induction a generalizing r with
  | nil => exact ⟨.single (whole r List.mem_cons_self), fun s mem => by simp_all [coalesce.go]⟩
  | cons s a ih =>
    obtain ⟨first, others⟩ := List.pairwise_cons.mp sorted
    have wholeR := whole r List.mem_cons_self
    have wholeS := whole s (by simp)
    rw [coalesce.go]
    split
    · refine ih (List.pairwise_cons.mpr ⟨fun t mem => first t (List.mem_cons_of_mem s mem),
        others.of_cons⟩) ?_
      intro t mem
      rcases List.mem_cons.mp mem with rfl | mem
      · unfold Whole at *
        grind
      · exact whole t (by simp [mem])
    · next apart =>
      obtain ⟨sound, from'⟩ := ih others fun t mem => whole t (List.mem_cons_of_mem r mem)
      refine ⟨⟨List.pairwise_cons.mpr ⟨fun t mem => ?_, sound.ascending⟩, ?_⟩, ?_⟩
      · have := from' t mem
        omega
      · intro t mem
        rcases List.mem_cons.mp mem with rfl | mem
        · exact wholeR
        · exact sound.whole t mem
      · intro t mem
        rcases List.mem_cons.mp mem with rfl | mem
        · exact Nat.le_refl _
        · exact (first s List.mem_cons_self).trans (from' t mem)

theorem covers_coalesce_go (sorted : (r :: a).Pairwise fun r s => r.1 ≤ s.1) :
    (coalesce.go r a).Covers n ↔ Covers (r :: a) n := by
  induction a generalizing r with
  | nil => rfl
  | cons s a ih =>
    obtain ⟨first, others⟩ := List.pairwise_cons.mp sorted
    have before := first s List.mem_cons_self
    rw [coalesce.go]
    split
    · have firstOf : ∀ t ∈ a, (r.1, max r.2 s.2).1 ≤ t.1 :=
        fun t mem => first t (List.mem_cons_of_mem s mem)
      rw [ih (List.pairwise_cons.mpr ⟨firstOf, others.of_cons⟩)]
      simp only [covers_cons]
      grind
    · rw [covers_cons, ih others, covers_cons (a := s :: a)]

theorem Sound.union (ha : a.Sound) (hb : b.Sound) : (a.union b).Sound := by
  have sorted := pairwise_merge ha hb
  have whole : ∀ r ∈ a.merge b, Whole r := by
    intro r mem
    rw [merge_eq, List.mem_merge] at mem
    exact mem.elim (ha.whole r) (hb.whole r)
  unfold Ranges.union coalesce
  split
  · exact .nil
  · next same =>
    rw [same] at sorted whole
    exact (sound_coalesce_go sorted whole).1

theorem covers_union (ha : a.Sound) (hb : b.Sound) :
    (a.union b).Covers n ↔ a.Covers n ∨ b.Covers n := by
  have sorted := pairwise_merge ha hb
  rw [← covers_merge, Ranges.union]
  unfold coalesce
  split
  · next none => rw [none]
  · next same =>
    rw [same] at sorted ⊢
    exact covers_coalesce_go sorted

/-! ### Complement -/

/-- The gaps from a code point on, if no range begins before it. -/
theorem sound_gapsFrom {lo : Nat} (h : a.Sound) (behind : ∀ r ∈ a, lo ≤ r.1)
    (start : lo ≤ 0xD800 ∨ 0xE000 ≤ lo) :
    (gapsFrom lo a).Sound ∧ ∀ s ∈ gapsFrom lo a, lo ≤ s.1 := by
  induction a generalizing lo with
  | nil =>
    unfold gapsFrom
    split
    · next last => exact ⟨.single ⟨last, Nat.le_refl _, start, by omega⟩, by simp⟩
    · exact ⟨.nil, by simp⟩
  | cons r a ih =>
    obtain ⟨ordered, last, first, second⟩ := h.whole r List.mem_cons_self
    have after : r.2 + 1 ≤ 0xD800 ∨ 0xE000 ≤ r.2 + 1 := by omega
    obtain ⟨sound, from'⟩ := ih h.tail (fun s mem => h.lt_of_mem mem) after
    have here := behind r List.mem_cons_self
    rw [gapsFrom]
    split
    · next gap =>
      refine ⟨⟨List.pairwise_cons.mpr ⟨fun s mem => ?_, sound.ascending⟩, ?_⟩, ?_⟩
      · have := from' s mem
        omega
      · intro s mem
        rcases List.mem_cons.mp mem with rfl | mem
        · exact ⟨by omega, by omega, start, by omega⟩
        · exact sound.whole s mem
      · intro s mem
        rcases List.mem_cons.mp mem with rfl | mem
        · exact Nat.le_refl _
        · have := from' s mem
          omega
    · refine ⟨sound, fun s mem => ?_⟩
      have := from' s mem
      omega

theorem covers_gapsFrom {lo : Nat} (h : a.Sound) (behind : ∀ r ∈ a, lo ≤ r.1) :
    (gapsFrom lo a).Covers n ↔ lo ≤ n ∧ n ≤ 0x10FFFF ∧ ¬a.Covers n := by
  induction a generalizing lo with
  | nil =>
    unfold gapsFrom
    split
    · simp
    · simp
      omega
  | cons r a ih =>
    obtain ⟨ordered, last, -, -⟩ := h.whole r List.mem_cons_self
    have here := behind r List.mem_cons_self
    have later : Covers a n → r.2 < n := by
      rintro ⟨s, mem, low, -⟩
      have := h.lt_of_mem mem
      omega
    have rest : (gapsFrom (r.2 + 1) a).Covers n ↔ _ := ih h.tail fun s mem => h.lt_of_mem mem
    rw [gapsFrom]
    split
    · rw [covers_cons, covers_cons, rest]
      grind
    · rw [covers_cons, rest]
      grind

theorem Sound.compl (h : a.Sound) : a.compl.Sound :=
  (sound_gapsFrom h (fun _ _ => Nat.zero_le _) (.inl (Nat.zero_le _))).1

theorem covers_compl (h : a.Sound) : a.compl.Covers n ↔ n ≤ 0x10FFFF ∧ ¬a.Covers n := by
  rw [Ranges.compl, covers_gapsFrom h fun _ _ => Nat.zero_le _]
  simp

theorem Sound.filter (h : a.Sound) (keep : Nat × Nat → Bool) : Sound (a.filter keep) :=
  ⟨h.ascending.filter keep, fun r mem => h.whole r (List.mem_filter.mp mem).1⟩

end Text.Ranges

open Text Text.Ranges

/-! ### The named classes -/

namespace Text

theorem sound_blankRanges : blankRanges.Sound :=
  .of_isChain (by decide +kernel) (by decide +kernel)

theorem sound_digitRanges : digitRanges.Sound :=
  .of_isChain (by decide +kernel) (by decide +kernel)

theorem sound_wordRanges : wordRanges.Sound :=
  .of_isChain (by decide +kernel) (by decide +kernel)

end Text

namespace CharSet

theorem covers_compl_toNat {a : Ranges} (h : a.Sound) {c : Char} :
    a.compl.Covers c.toNat ↔ ¬a.Covers c.toNat := by
  have valid : c.toNat < 0xD800 ∨ 0xDFFF < c.toNat ∧ c.toNat < 0x110000 := c.valid
  rw [covers_compl h, and_iff_right (by omega)]

/-- The surrogates cover no character. -/
theorem covers_filter_isSurrogates {a : Ranges} {c : Char} :
    Covers (a.filter (!isSurrogates ·)) c.toNat ↔ a.Covers c.toNat := by
  have valid : c.toNat < 0xD800 ∨ 0xDFFF < c.toNat ∧ c.toNat < 0x110000 := c.valid
  constructor
  · rintro ⟨r, mem, inside⟩
    exact ⟨r, (List.mem_filter.mp mem).1, inside⟩
  · rintro ⟨r, mem, inside⟩
    refine ⟨r, List.mem_filter.mpr ⟨mem, ?_⟩, inside⟩
    simp only [isSurrogates, Bool.not_eq_true', Bool.and_eq_false_iff, decide_eq_false_iff_not]
    omega

theorem sound_ranges (s : CharSet) : s.ranges.Sound := by
  induction s with
  | none => exact .nil
  | range lo hi =>
    rw [ranges]
    split
    · next ordered =>
      have first : lo.toNat < 0xD800 ∨ 0xDFFF < lo.toNat ∧ lo.toNat < 0x110000 := lo.valid
      have last : hi.toNat < 0xD800 ∨ 0xDFFF < hi.toNat ∧ hi.toNat < 0x110000 := hi.valid
      have ordered : lo.toNat ≤ hi.toNat := ordered
      refine .single ⟨ordered, ?_, ?_, ?_⟩
      · show hi.toNat ≤ 0x10FFFF
        omega
      · show lo.toNat ≤ 0xD800 ∨ 0xE000 ≤ lo.toNat
        omega
      · show hi.toNat < 0xD800 ∨ 0xDFFF ≤ hi.toNat
        omega
    · exact .nil
  | blank => exact sound_blankRanges
  | digit => exact sound_digitRanges
  | word => exact sound_wordRanges
  | union a b iha ihb => exact iha.union ihb
  | inter a b iha ihb => exact (iha.compl.union ihb.compl).compl
  | compl a ih => exact ih.compl.filter _

/-- A set has exactly the characters that its ranges cover. -/
theorem has_iff_covers (s : CharSet) (c : Char) : s.has c = true ↔ s.ranges.Covers c.toNat := by
  induction s with
  | none => simp [ranges]
  | range lo hi =>
    have low : lo ≤ c ↔ lo.toNat ≤ c.toNat := Iff.rfl
    have high : c ≤ hi ↔ c.toNat ≤ hi.toNat := Iff.rfl
    have both : lo ≤ hi ↔ lo.toNat ≤ hi.toNat := Iff.rfl
    simp only [has, Bool.and_eq_true, decide_eq_true_eq, low, high, ranges, both]
    split
    · simp
    · simp
      omega
  | blank => exact has_iff_covers_of_sound sound_blankRanges
  | digit =>
    rw [has, isDigit, Bool.or_eq_true, has_iff_covers_of_sound sound_digitRanges]
    refine or_iff_right_iff_imp.mpr fun digit => ?_
    rw [isAsciiDigit, Bool.and_eq_true, decide_eq_true_eq, decide_eq_true_eq] at digit
    exact ⟨(48, 57), List.mem_cons_self, digit⟩
  | word =>
    rw [has, isWord, Bool.or_eq_true, has_iff_covers_of_sound sound_wordRanges]
    refine or_iff_right_iff_imp.mpr fun word => ?_
    simp only [isAsciiWord, isAsciiLetter, isAsciiDigit, Bool.or_eq_true, Bool.and_eq_true,
      decide_eq_true_eq, beq_iff_eq] at word
    rcases word with ((small | large) | digit) | rfl
    · exact ⟨(97, 122), by decide, small⟩
    · exact ⟨(65, 90), by decide, large⟩
    · exact ⟨(48, 57), by decide, digit⟩
    · exact ⟨(95, 95), by decide, by decide⟩
  | union a b iha ihb =>
    rw [has_union, Bool.or_eq_true, iha, ihb]
    exact (covers_union a.sound_ranges b.sound_ranges).symm
  | inter a b iha ihb =>
    have sa := a.sound_ranges
    have sb := b.sound_ranges
    rw [has, Bool.and_eq_true, iha, ihb, ranges, covers_compl_toNat (sa.compl.union sb.compl),
      covers_union sa.compl sb.compl, covers_compl_toNat sa, covers_compl_toNat sb, not_or,
      not_not, not_not]
  | compl a ih =>
    rw [has_compl, Bool.not_eq_true', ← Bool.not_eq_true, ih, ranges, covers_filter_isSurrogates,
      covers_compl_toNat a.sound_ranges]

/-- A set that counts as one character has no other. -/
theorem has_of_only? {s : CharSet} {c : Char} (h : s.only? = some c) (d : Char) :
    s.has d = true ↔ d = c := by
  unfold only? at h
  split at h
  · next lo hi same =>
    split at h
    · next equal =>
      have whole := s.sound_ranges.whole (lo, hi) (by simp [same])
      obtain rfl := Option.some.inj h
      subst equal
      obtain ⟨-, top, first, last⟩ := whole
      have valid : lo.isValidChar := by
        simp only at top first last
        unfold Nat.isValidChar
        omega
      have code : (Char.ofNat lo).toNat = lo := by
        rw [Char.ofNat, dif_pos valid]
        rfl
      have covered : Covers [(lo, lo)] d.toNat ↔ d.toNat = lo := by
        simp only [covers_cons, not_covers_nil, or_false]
        omega
      rw [has_iff_covers, same, covered]
      constructor
      · intro equal
        rw [← equal, Char.ofNat_toNat]
      · rintro rfl
        exact code
    · cases h
  · cases h

/-- Sets that count as the same have the same characters. -/
theorem has_eq_of_same {a b : CharSet} (h : a.same b = true) (c : Char) : a.has c = b.has c := by
  rw [same, Bool.or_eq_true, beq_iff_eq, beq_iff_eq] at h
  rcases h with rfl | ranges
  · rfl
  · rw [Bool.eq_iff_iff, has_iff_covers, has_iff_covers, ranges]

end CharSet

end Polyglot
