import Polyglot.Proofs.Hits
import Polyglot.Proofs.Runs
import Polyglot.Stale

/-!
The endings of file names. A base name is a name without a dot and the small letters behind it, and
the generated files of a kind are those whose name has one of its few endings.
-/

namespace Polyglot

namespace Pattern

theorem mem_ways_textEnd {c e : Cursor} :
    e ∈ (seqAll [look .textEnd]).ways c ↔ c.rest = [] ∧ e = c := by
  rw [ways_look_cons]
  cases hrest : c.rest with
  | nil => exact ⟨fun mem => ⟨rfl, List.mem_singleton.mp mem⟩,
    fun h => h.2 ▸ List.mem_singleton_self _⟩
  | cons d r => exact ⟨fun mem => (List.not_mem_nil mem).elim, fun h => by cases h.1⟩

end Pattern

namespace Stale

open Pattern

/-- One small letter or more, and nothing else. -/
structure IsSmall (w : List Char) : Prop where
  full : w ≠ []
  small : ∀ c ∈ w, 'a' ≤ c ∧ c ≤ 'z'

theorem isSmall_iff_all {w : List Char} :
    IsSmall w ↔ w ≠ [] ∧ w.all (fun c => decide ('a' ≤ c ∧ c ≤ 'z')) = true := by
  rw [List.all_eq_true]
  constructor
  · intro h
    exact ⟨h.full, fun c hc => decide_eq_true (h.small c hc)⟩
  · intro h
    exact ⟨h.1, fun c hc => of_decide_eq_true (h.2 c hc)⟩

instance (w : List Char) : Decidable (IsSmall w) :=
  decidable_of_iff _ isSmall_iff_all.symm

theorem has_letter (c : Char) :
    (CharSet.ofItems [.range 'a' 'z']).has c = true ↔ 'a' ≤ c ∧ c ≤ 'z' := by
  simp [CharSet.ofItems, CharSet.has]

theorem not_small_dot : ¬ ('a' ≤ '.' ∧ '.' ≤ 'z') := by
  decide

theorem mem_ways_endingPattern {c e : Cursor} :
    e ∈ endingPattern.ways c ↔ ∃ w, c.rest = '.' :: w ∧ IsSmall w ∧ e = c.past ('.' :: w) := by
  constructor
  · intro mem
    obtain ⟨r, hr, rest, mem⟩ := mem_ways_chars_append (w := ['.']) mem
    obtain ⟨w, r', full, hw, behind, letters, mem⟩ := mem_ways_plus_cons mem
    obtain ⟨stop, rfl⟩ := mem_ways_textEnd.mp mem
    rw [behind] at stop
    rw [rest, stop, List.append_nil] at hw
    subst hw
    exact ⟨r, hr, ⟨full, fun c hc => (has_letter c).mp (letters c hc)⟩, Cursor.past_past _ _ _⟩
  · rintro ⟨w, hw, small, rfl⟩
    have bars : Bars [look .textEnd] (CharSet.ofItems [.range 'a' 'z']) := by
      intro d hd
      refine List.eq_nil_iff_forall_not_mem.mpr fun e mem => ?_
      simp [(mem_ways_textEnd.mp mem).1] at hd
    have behind : (c.past ['.']).rest = w ++ [] := by
      rw [List.append_nil]
      exact Cursor.rest_past (w := ['.']) hw
    change _ ∈ (seqAll (chars ['.'] ++ [plus true (char _), look .textEnd])).ways c
    rw [ways_chars_append (w := ['.']) hw,
      ways_plus_cons _ bars small.full behind (fun c hc =>
        (has_letter c).mpr (small.small c hc)) rfl,
      Cursor.past_past, mem_ways_textEnd]
    exact ⟨Cursor.rest_past (r := []) (by simpa using hw), rfl⟩

theorem isTame_endingPattern : endingPattern.isTame = true := rfl

theorem matchAt_ending {w : List Char} (h : IsSmall w) (before : Option Char) :
    endingPattern.matchAt before ('.' :: w) = some ⟨'.' :: w, []⟩ := by
  rw [matchAt_eq_ways isTame_endingPattern]
  have mem := (mem_ways_endingPattern (c := .start before ('.' :: w))).mpr ⟨w, rfl, h, rfl⟩
  cases ways : endingPattern.ways (.start before ('.' :: w)) with
  | nil =>
    rw [ways] at mem
    cases mem
  | cons e es =>
    obtain ⟨w', same, -, rfl⟩ := mem_ways_endingPattern.mp (ways ▸ List.mem_cons_self)
    obtain rfl : w = w' := (List.cons.inj same).2
    rfl

theorem matchAt_ending_eq_none {before : Option Char} {s : List Char}
    (h : ∀ w, s = '.' :: w → ¬ IsSmall w) : endingPattern.matchAt before s = none := by
  rw [matchAt_eq_ways isTame_endingPattern, List.head?_eq_none_iff.mpr]
  · rfl
  · refine List.eq_nil_iff_forall_not_mem.mpr fun e mem => ?_
    obtain ⟨w, hs, small, -⟩ := mem_ways_endingPattern.mp mem
    exact h w hs small

/-- A name is its base name, a dot and small letters. -/
theorem baseName_append (base : String) {ending : List Char} (h : IsSmall ending) :
    baseName (base ++ String.ofList ('.' :: ending)) = base := by
  have found := matchAt_ending h base.toList.getLast?
  rw [baseName, String.toList_append, String.toList_ofList, ← List.append_nil ('.' :: ending),
    replaceFirst_hit (m := ⟨'.' :: ending, []⟩) _ (List.cons_ne_nil _ _) ?_
    (by rwa [List.append_nil])]
  · simp
  · -- the first dot that only letters follow is the last one
    intro u v _ full
    refine matchAt_ending_eq_none fun w hw small => not_small_dot ?_
    obtain ⟨c, v, rfl⟩ := List.exists_cons_of_ne_nil full
    have behind : v ++ ('.' :: ending ++ []) = w := (List.cons.inj hw).2
    exact small.small '.' (by simp [← behind])

/-! ### Kinds -/

/-- What the names of a kind end in. -/
def Kind.endings : Kind → List String
  | python => [".py", ".pyc"]
  | php => [".php"]

theorem Kind.isTame_extension (kind : Kind) : kind.extension.isTame = true := by
  cases kind <;> rfl

theorem Kind.mem_ways_extension {kind : Kind} {c : Cursor} :
    (∃ e, e ∈ kind.extension.ways c) ↔ ∃ ending ∈ kind.endings, c.rest = ending.toList := by
  cases kind with
  | php =>
    have plain : Kind.php.extension = seqAll (chars ".php".toList ++ [look .textEnd]) := rfl
    rw [plain]
    constructor
    · rintro ⟨e, mem⟩
      obtain ⟨r, hr, rest, mem⟩ := mem_ways_chars_append mem
      rw [(mem_ways_textEnd.mp mem).1] at rest
      exact ⟨".php", List.mem_singleton_self _, by rw [hr, ← rest, List.append_nil]⟩
    · rintro ⟨ending, mem, hr⟩
      rw [List.mem_singleton.mp mem] at hr
      refine ⟨c.past ".php".toList, ?_⟩
      rw [ways_chars_append (r := []) (by rw [hr, List.append_nil]), mem_ways_textEnd]
      exact ⟨Cursor.rest_past (r := []) (by rw [hr, List.append_nil]), rfl⟩
  | python =>
    have plain : Kind.python.extension =
        seqAll (chars ".py".toList ++ [alt (char (.single 'c')) empty, look .textEnd]) := rfl
    have both (d : Cursor) : (seqAll [alt (char (.single 'c')) empty, look .textEnd]).ways d =
        (seqAll [char (.single 'c'), look .textEnd]).ways d ++ (seqAll [look .textEnd]).ways d := by
      have split :
          (alt (char (.single 'c')) empty).ways d = (char (.single 'c')).ways d ++ [d] := rfl
      rw [ways_seqAll_cons, split, List.flatMap_append, List.flatMap_singleton, ← ways_seqAll_cons]
    rw [plain]
    constructor
    · rintro ⟨e, mem⟩
      obtain ⟨r, hr, rest, mem⟩ := mem_ways_chars_append mem
      rw [both] at mem
      rcases List.mem_append.mp mem with compiled | plain
      · obtain ⟨d, r', hd, behind, has, mem⟩ := mem_ways_char_cons compiled
        obtain rfl : d = 'c' := by simpa using has
        rw [(mem_ways_textEnd.mp mem).1] at behind
        rw [rest, ← behind] at hd
        exact ⟨".pyc", by simp [endings], by rw [hr, hd]; rfl⟩
      · rw [(mem_ways_textEnd.mp plain).1] at rest
        exact ⟨".py", by simp [endings], by rw [hr, ← rest, List.append_nil]⟩
    · rintro ⟨ending, mem, hr⟩
      rcases List.mem_cons.mp mem with rfl | compiled
      · refine ⟨c.past ".py".toList, ?_⟩
        rw [ways_chars_append (r := []) (by rw [hr, List.append_nil]), both]
        refine List.mem_append_right _ (mem_ways_textEnd.mpr ⟨?_, rfl⟩)
        exact Cursor.rest_past (r := []) (by rw [hr, List.append_nil])
      · rw [List.mem_singleton.mp compiled] at hr
        have rest : (c.past ".py".toList).rest = ['c'] := Cursor.rest_past hr
        refine ⟨(c.past ".py".toList).past ['c'], ?_⟩
        rw [ways_chars_append (r := ['c']) hr, both]
        refine List.mem_append_left _ ?_
        rw [ways_char_cons (r := []) rest (by decide), mem_ways_textEnd]
        exact ⟨Cursor.rest_past (r := []) rest, rfl⟩

theorem Kind.isMatch_extension {kind : Kind} {name : String} :
    kind.extension.isMatch name.toList = true ↔ ∃ base, ∃ ending ∈ kind.endings,
      name = base ++ ending := by
  simp only [isMatch_iff, isSome_matchAt_iff kind.isTame_extension, mem_ways_extension]
  constructor
  · rintro ⟨u, v, whole, ending, mem, hv⟩
    refine ⟨String.ofList u, ending, mem, String.toList_inj.mp ?_⟩
    rw [String.toList_append, String.toList_ofList, whole, ← hv]
    rfl
  · rintro ⟨base, ending, mem, rfl⟩
    exact ⟨base.toList, ending.toList, String.toList_append, ending, mem, rfl⟩

theorem Kind.baseName_append {kind : Kind} {ending : String} (h : ending ∈ kind.endings)
    (base : String) : baseName (base ++ ending) = base := by
  have small : ∃ w, IsSmall w ∧ ending = String.ofList ('.' :: w) := by
    cases kind with
    | python =>
      rcases List.mem_cons.mp h with rfl | rest
      · exact ⟨"py".toList, by decide, by decide⟩
      · rw [List.mem_singleton.mp rest]
        exact ⟨"pyc".toList, by decide, by decide⟩
    | php =>
      rw [List.mem_singleton.mp h]
      exact ⟨"php".toList, by decide, by decide⟩
  obtain ⟨w, small, rfl⟩ := small
  exact Stale.baseName_append base small

end Stale

end Polyglot
