import Polyglot.ErrorModules
import Polyglot.Proofs.FirstPlaces
import Polyglot.Proofs.Replacement

/-!
Regions between two delimiters. A region ends where its closing delimiter stands for the first time,
so what is found at a place is determined (`IsRegion.matchAt`), and the first region of a text can
be exchanged for another (`Cut.exchange`).

To put a text in the place of the first region and then again changes something the second time,
unless that text is itself one region or there is no region left (`splice_splice_eq_iff`).
-/

namespace Polyglot

open Pattern

/-- How regions begin and end. No beginning of the opening delimiter is also an end of it, so that
two of them never share characters. -/
structure Delimiters where
  opening : List Char
  closing : List Char
  apart : ((List.range opening.length).all fun i =>
    i == 0 || !(opening.drop i).isPrefixOf opening) = true

namespace Delimiters

variable {d : Delimiters}

theorem not_border {x y : List Char} (cut : d.opening = x ++ y) (hx : x ≠ []) (hy : y ≠ []) :
    ¬ y <+: d.opening := by
  intro begins
  have here := List.all_eq_true.mp d.apart x.length (by
    rw [List.mem_range, cut, List.length_append]
    have := List.length_pos_iff.mpr hy
    omega)
  have inside : (d.opening.drop x.length).isPrefixOf d.opening = true := by
    rw [List.isPrefixOf_iff_prefix, cut, List.drop_left, ← cut]
    exact begins
  rw [inside] at here
  simp [hx] at here

/-- The delimiters and anything between them, as little as possible. -/
def pattern (d : Delimiters) : Pattern :=
  seqAll (chars d.opening ++ ErrorModules.gapPattern :: chars d.closing)

/-- The text is one region: the closing delimiter stands at its end, and nowhere before behind some
character. -/
def IsRegion (d : Delimiters) (f : List Char) : Prop :=
  ∃ g, f = d.opening ++ (g ++ d.closing) ∧ g ≠ [] ∧
    ∀ g', g' ≠ [] → g' ++ d.closing <+: g ++ d.closing → g' = g

/-- The text begins with a region. -/
def Begins (d : Delimiters) (s : List Char) : Prop :=
  ∃ g r, g ≠ [] ∧ s = d.opening ++ (g ++ (d.closing ++ r))

theorem IsRegion.ne_nil {f : List Char} (h : d.IsRegion f) : f ≠ [] := by
  obtain ⟨g, rfl, full, -⟩ := h
  simp [full]

/-- Of the places where a region could end one is the first. -/
theorem Begins.exists_isRegion {s : List Char} (h : d.Begins s) :
    ∃ f r, d.IsRegion f ∧ s = f ++ r := by
  obtain ⟨g, r, full, rfl⟩ := h
  induction hn : g.length using Nat.strongRecOn generalizing g r with
  | ind n ih =>
    by_cases sooner : ∃ g', g' ≠ [] ∧ g' ++ d.closing <+: g ++ d.closing ∧ g' ≠ g
    · obtain ⟨g', full', ⟨x, longer⟩, ne⟩ := sooner
      have short : g'.length < g.length := by
        have lengths := congrArg List.length longer
        simp only [List.length_append] at lengths
        refine Nat.lt_of_le_of_ne (by omega) fun equal => ne ?_
        rw [List.append_assoc] at longer
        exact (List.append_inj longer equal).1
      have whole : g ++ (d.closing ++ r) = g' ++ (d.closing ++ (x ++ r)) := by
        rw [← List.append_assoc, ← longer]
        simp only [List.append_assoc]
      rw [whole]
      exact ih g'.length (hn ▸ short) g' (x ++ r) full' rfl
    · refine ⟨d.opening ++ (g ++ d.closing), r, ⟨g, rfl, full, fun g' full' begins => ?_⟩,
        by simp only [List.append_assoc]⟩
      exact Classical.byContradiction fun ne => sooner ⟨g', full', begins, ne⟩

theorem isTame_pattern (d : Delimiters) : d.pattern.isTame = true := by
  rw [pattern, isTame_seqAll, List.all_append, List.all_cons]
  simp only [all_isTame_chars]
  rfl

/-! ### Searching for a region -/

theorem has_any (c : Char) : (CharSet.compl .none).has c = true := rfl

/-- A region is found whole, and nothing behind it. -/
theorem IsRegion.matchAt {f : List Char} (h : d.IsRegion f) (before : Option Char) (r : List Char) :
    d.pattern.matchAt before (f ++ r) = some ⟨f, []⟩ := by
  obtain ⟨g, rfl, full, shortest⟩ := h
  obtain ⟨x, g, rfl⟩ := List.exists_cons_of_ne_nil full
  let start := Cursor.start before (d.opening ++ (x :: g ++ d.closing) ++ r)
  have here : start.rest = d.opening ++ (x :: (g ++ (d.closing ++ r))) := by simp [start]
  have behind := Cursor.rest_past here
  have begun := Cursor.rest_past_cons behind
  -- the gap does not end earlier, because no earlier place has the closing delimiter
  have fails : ∀ u, u <+: g → u ≠ g →
      (seqAll (chars d.closing)).ways (((start.past d.opening).past [x]).past u) = [] := by
    rintro u ⟨v, rfl⟩ short
    rw [List.append_assoc] at begun
    refine ways_chars_eq_nil fun closes =>
      short (List.cons.inj (shortest (x :: u) (List.cons_ne_nil _ _) ?_)).2
    rw [Cursor.rest_past begun] at closes
    have there : (x :: u) ++ d.closing <+: x :: (u ++ v) ++ d.closing ++ r := by
      simpa only [List.cons_append, List.append_assoc, List.cons_prefix_cons, true_and,
        List.prefix_append_right_inj] using closes
    exact List.prefix_of_prefix_length_le there (List.prefix_append _ _) (by simp)
  obtain ⟨more, first⟩ := flatMap_ways_star_lazy begun (fun c _ => has_any c) fails
  rw [matchAt_eq_ways d.isTame_pattern, pattern, ways_chars_append here, ways_seqAll_cons,
    ErrorModules.gapPattern, ways_plus_char_cons false behind (has_any x), first,
    ways_chars (Cursor.rest_past begun)]
  simp [Cursor.toMatch, start, Cursor.start]

/-- What is found begins with a region. -/
theorem begins_of_matchAt {before : Option Char} {s : List Char} {m : Match}
    (h : d.pattern.matchAt before s = some m) : d.Begins s := by
  rw [matchAt_eq_ways d.isTame_pattern] at h
  obtain ⟨e, he, -⟩ := Option.map_eq_some_iff.mp h
  obtain ⟨r, hr, rest, mem⟩ := mem_ways_chars_append (List.mem_of_mem_head? he)
  obtain ⟨g, r', full, hg, rest', -, mem⟩ := mem_ways_plus_cons mem
  obtain ⟨r'', hr'', -⟩ := mem_ways_chars.mp mem
  refine ⟨g, r'', full, ?_⟩
  rw [← Cursor.rest_start before s, hr, ← rest, hg, ← rest', hr'']

/-- The pattern matches where a region begins. -/
theorem finds_pattern (d : Delimiters) : d.pattern.Finds d.Begins := by
  intro before s
  constructor
  · intro found
    obtain ⟨m, found⟩ := Option.isSome_iff_exists.mp found
    exact begins_of_matchAt found
  · intro begins
    obtain ⟨f, r, region, rfl⟩ := begins.exists_isRegion
    rw [region.matchAt]
    rfl

/-! ### The first region of a text -/

/-- The text is cut at its first region. -/
structure Cut (d : Delimiters) (s a f b : List Char) : Prop where
  whole : s = a ++ (f ++ b)
  region : d.IsRegion f
  place : FirstPlace d.Begins (fun _ => True) a (f ++ b)

theorem exists_cut {s : List Char} (h : d.pattern.isMatch s = true) : ∃ a f b, d.Cut s a f b := by
  obtain ⟨u, v, whole, begins⟩ := d.finds_pattern.isMatch_iff.mp h
  obtain ⟨a, behind, same, place⟩ :=
    FirstPlace.exists_of_begins (P := fun _ => True) (u := u) trivial begins
  obtain ⟨f, b, region, rfl⟩ := place.begins.exists_isRegion
  exact ⟨a, f, b, whole.trans same, region, place⟩

/-- The text with something else in the place of its first region. -/
def splice (d : Delimiters) (w s : List Char) : List Char :=
  d.pattern.replaceFirst (fun _ => w) s

theorem Cut.splice {s a f b : List Char} (h : d.Cut s a f b) (w : List Char) :
    d.splice w s = a ++ (w ++ b) := by
  rw [Delimiters.splice, h.whole]
  exact d.finds_pattern.replaceFirst (m := ⟨f, []⟩) h.place h.region.ne_nil (h.region.matchAt _ _) w

theorem splice_of_not_isMatch {s : List Char} (h : d.pattern.isMatch s = false) (w : List Char) :
    d.splice w s = s := by
  have none (u v : List Char) (cut : s = u ++ v) (b : Option Char) :
      d.pattern.matchAt b v = Option.none :=
    d.finds_pattern.matchAt_eq_none (fun begins =>
      Bool.false_ne_true (h.symm.trans (d.finds_pattern.isMatch_iff.mpr ⟨u, v, cut, begins⟩))) b
  have free (u v : List Char) (cut : s = u ++ v) (_ : v ≠ []) :
      d.pattern.matchAt (u.getLast?.or Option.none) (v ++ []) = Option.none := by
    rw [List.append_nil]
    exact none u v cut _
  obtain ⟨adjacent, copied⟩ := scanFrom_copy Option.none false free
  rw [List.append_nil] at copied
  rw [splice, replaceFirst, scan_eq_scanFrom, copied, replaceFirst_go_copy, scanFrom,
    none s [] (List.append_nil s).symm]
  exact List.append_nil s

theorem IsRegion.begins {f : List Char} (h : d.IsRegion f) (r : List Char) : d.Begins (f ++ r) := by
  obtain ⟨g, rfl, full, -⟩ := h
  exact ⟨g, r, full, by simp only [List.append_assoc]⟩

/-- A region in the place of the first one is the first one. -/
theorem Cut.exchange {s a old b f : List Char} (h : d.Cut s a old b) (region : d.IsRegion f) :
    d.Cut (a ++ (f ++ b)) a f b := by
  refine ⟨rfl, region, h.place.exchange (region.begins b) fun v full begins => ?_⟩
  obtain ⟨g, r, hg, same⟩ := begins
  -- the delimiter cannot reach into the region, since it would share characters with that of the
  -- region
  have before : d.opening <+: v := by
    rcases List.append_eq_append_iff.mp same with ⟨c, opening, hf⟩ | ⟨c, rfl, -⟩
    · by_cases hc : c = []
      · exact ⟨[], by rw [opening, hc, List.append_nil, List.append_nil]⟩
      · obtain ⟨g', rfl, -⟩ := region
        refine absurd ?_ (not_border opening full hc)
        refine List.prefix_of_prefix_length_le ⟨_, hf.symm⟩ ⟨g' ++ d.closing ++ b,
          by simp only [List.append_assoc]⟩ ?_
        rw [opening, List.length_append]
        exact Nat.le_add_left _ _
    · exact List.prefix_append _ _
  -- so it stands before the region, and the old region would have been found from there
  obtain ⟨c, rfl⟩ := before
  obtain ⟨g', rfl, full', -⟩ := h.region
  exact ⟨c ++ (d.opening ++ g'), b, by simp [full'], by simp only [List.append_assoc]⟩

/-- Splicing again changes nothing exactly if the text that was put in is a region, or no region is
left. -/
theorem splice_splice_eq_iff (w s : List Char) :
    d.splice w (d.splice w s) = d.splice w s ↔ d.pattern.isMatch (d.splice w s) =
      false ∨ d.IsRegion w := by
  constructor
  · intro same
    by_cases found : d.pattern.isMatch (d.splice w s) = true
    · obtain ⟨a, f, b, cut⟩ := exists_cut found
      rw [cut.splice, cut.whole, List.append_cancel_left_eq, List.append_cancel_right_eq] at same
      exact .inr (same ▸ cut.region)
    · exact .inl (Bool.eq_false_iff.mpr found)
  · rintro (none | region)
    · exact splice_of_not_isMatch none w
    · by_cases found : d.pattern.isMatch s = true
      · obtain ⟨a, f, b, cut⟩ := exists_cut found
        rw [cut.splice]
        exact (cut.exchange region).splice w
      · rw [splice_of_not_isMatch (Bool.eq_false_iff.mpr found),
          splice_of_not_isMatch (Bool.eq_false_iff.mpr found)]

end Delimiters

end Polyglot
