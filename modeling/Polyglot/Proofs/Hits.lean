import Polyglot.Pattern.Scan

/-!
Where a scan finds its matches. The first match of a text is the match at the first place that has
one, and a scan passes over the places without a match and over the text of each match.
-/

namespace Polyglot.Pattern

theorem getLast?_cons_or (c : Char) (w : List Char) (before : Option Char) :
    (c :: w).getLast?.or before = w.getLast?.or (some c) := by
  rw [List.getLast?_cons]
  cases w.getLast? <;> rfl

section Scan

variable {find : Option Char → List Char → Option Match}

theorem scanFrom_skip (before : Option Char) (adjacent : Bool) (w r : List Char) :
    scanFrom find before w.length adjacent (w ++ r) =
      scanFrom find (w.getLast?.or before) 0 adjacent r := by
  induction w generalizing before with
  | nil => rfl
  | cons c w ih =>
    rw [List.length_cons, List.cons_append, scanFrom, ih, getLast?_cons_or]

/-- A part of the text in which no match begins is copied. -/
theorem scanFrom_copy (before : Option Char) (adjacent : Bool) {w r : List Char}
    (none : ∀ u v, w = u ++ v → v ≠ [] → find (u.getLast?.or before) (v ++ r) = none) :
    ∃ adjacent', scanFrom find before 0 adjacent (w ++ r) =
      w.map .copy ++ scanFrom find (w.getLast?.or before) 0 adjacent' r := by
  induction w generalizing before adjacent with
  | nil => exact ⟨adjacent, rfl⟩
  | cons c w ih =>
    have here : find before (c :: (w ++ r)) = Option.none :=
      none [] (c :: w) rfl (List.cons_ne_nil _ _)
    obtain ⟨adjacent', further⟩ := ih (some c) false fun u v hw full => by
      rw [← getLast?_cons_or c u before]
      exact none (c :: u) v (by rw [hw, List.cons_append]) full
    refine ⟨adjacent', ?_⟩
    simp only [List.cons_append, scanFrom, here, further, getLast?_cons_or, List.map_cons]

/-- A match that is not empty is one piece, and the scan goes on behind it. -/
theorem scanFrom_hit {before : Option Char} (adjacent : Bool) {m : Match} {r : List Char}
    (full : m.text ≠ []) (h : find before (m.text ++ r) = some m) :
    scanFrom find before 0 adjacent (m.text ++ r) =
      .hit m :: scanFrom find (m.text.getLast?.or before) 0 true r := by
  obtain ⟨c, w, htext⟩ := List.exists_cons_of_ne_nil full
  rw [htext, List.cons_append] at h
  rw [htext, List.cons_append, scanFrom, h]
  simp only [htext, List.isEmpty_cons, Bool.false_eq_true, ↓reduceIte, List.length_cons,
    Nat.add_sub_cancel]
  rw [scanFrom_skip, getLast?_cons_or]

theorem head?_hits_cons {before : Option Char} {c : Char} {s : List Char} :
    ((scanFrom find before 0 false (c :: s)).filterMap Piece.match?).head? =
      (find before (c :: s)).or
        ((scanFrom find (some c) 0 false s).filterMap Piece.match?).head? := by
  rw [scanFrom]
  cases hfind : find before (c :: s) with
  | none => rw [Option.none_or, List.filterMap_cons_none rfl]
  | some m => by_cases empty : m.text.isEmpty = true <;> simp [empty, Piece.match?]

/-- The first match is found at the first place that has one. -/
theorem head?_hits {before : Option Char} {s : List Char} {m : Match} :
    ((scanFrom find before 0 false s).filterMap Piece.match?).head? = some m ↔
      ∃ u v, s = u ++ v ∧ find (u.getLast?.or before) v = some m ∧
        ∀ u' v', s = u' ++ v' → u'.length < u.length → find (u'.getLast?.or before) v' = none := by
  induction s generalizing before with
  | nil =>
    have run :
        ((scanFrom find before 0 false []).filterMap Piece.match?).head? = find before [] := by
      rw [scanFrom]
      cases find before [] <;> rfl
    rw [run]
    constructor
    · intro h
      exact ⟨[], [], rfl, h, fun u' v' _ short => absurd short (Nat.not_lt_zero _)⟩
    · rintro ⟨u, v, hs, h, -⟩
      obtain ⟨rfl, rfl⟩ := List.append_eq_nil_iff.mp hs.symm
      exact h
  | cons c s ih =>
    rw [head?_hits_cons]
    cases here : find before (c :: s) with
    | some m' =>
      constructor
      · intro h
        exact ⟨[], c :: s, rfl, here.trans h, fun u' v' _ short => absurd short (Nat.not_lt_zero _)⟩
      · rintro ⟨u, v, hs, h, first⟩
        cases u with
        | nil =>
          obtain rfl : v = c :: s := hs.symm
          exact here.symm.trans h
        | cons d u =>
          have := first [] (c :: s) rfl (by simp)
          rw [List.getLast?_nil, Option.none_or, here] at this
          cases this
    | none =>
      rw [Option.none_or, ih]
      constructor
      · rintro ⟨u, v, rfl, h, first⟩
        refine ⟨c :: u, v, rfl, by rw [getLast?_cons_or]; exact h, fun u' v' hs short => ?_⟩
        cases u' with
        | nil =>
          obtain rfl : v' = c :: (u ++ v) := hs.symm
          exact here
        | cons d u' =>
          simp only [List.cons_append, List.cons.injEq] at hs
          obtain ⟨rfl, hs⟩ := hs
          rw [getLast?_cons_or]
          exact first u' v' hs (by simpa using short)
      · rintro ⟨u, v, hs, h, first⟩
        cases u with
        | nil =>
          obtain rfl : v = c :: s := hs.symm
          rw [List.getLast?_nil, Option.none_or, here] at h
          cases h
        | cons d u =>
          simp only [List.cons_append, List.cons.injEq] at hs
          obtain ⟨rfl, rfl⟩ := hs
          rw [getLast?_cons_or] at h
          refine ⟨u, v, rfl, h, fun u' v' hs short => ?_⟩
          rw [← getLast?_cons_or c u' before]
          exact first (c :: u') v' (by rw [hs, List.cons_append]) (by simpa using short)

theorem head?_hits_eq_none {before : Option Char} {s : List Char} :
    ((scanFrom find before 0 false s).filterMap Piece.match?).head? = none ↔
      ∀ u v, s = u ++ v → find (u.getLast?.or before) v = none := by
  induction s generalizing before with
  | nil =>
    have run :
        ((scanFrom find before 0 false []).filterMap Piece.match?).head? = find before [] := by
      rw [scanFrom]
      cases find before [] <;> rfl
    rw [run]
    constructor
    · intro h u v hs
      obtain ⟨rfl, rfl⟩ := List.append_eq_nil_iff.mp hs.symm
      exact h
    · intro h
      exact h [] [] rfl
  | cons c s ih =>
    rw [head?_hits_cons, Option.or_eq_none_iff, ih]
    constructor
    · rintro ⟨here, later⟩ u v hs
      cases u with
      | nil =>
        obtain rfl : v = c :: s := hs.symm
        exact here
      | cons d u =>
        simp only [List.cons_append, List.cons.injEq] at hs
        obtain ⟨rfl, hs⟩ := hs
        rw [getLast?_cons_or]
        exact later u v hs
    · intro h
      refine ⟨h [] (c :: s) rfl, fun u v hs => ?_⟩
      rw [← getLast?_cons_or c u before]
      exact h (c :: u) v (by rw [hs, List.cons_append])

/-- A scan makes up no matches. -/
theorem exists_find_of_hit {before : Option Char} {skip : Nat} {adjacent : Bool}
    {s : List Char} {m : Match} (h : Piece.hit m ∈ scanFrom find before skip adjacent s) :
    ∃ b r, find b r = some m := by
  induction s generalizing before skip adjacent with
  | nil =>
    rw [scanFrom] at h
    split at h
    · next found =>
      split at h
      · cases h
      · obtain rfl := Piece.hit.inj (List.mem_singleton.mp h)
        exact ⟨before, [], found⟩
    · cases h
  | cons c s ih =>
    have later {k : Nat} {a : Bool} (h : Piece.hit m ∈ Piece.copy c ::
      scanFrom find (some c) k a s) :
        ∃ b r, find b r = some m := by
      rcases List.mem_cons.mp h with here | later
      · cases here
      · exact ih later
    cases skip with
    | succ skip => exact ih h
    | zero =>
      rw [scanFrom] at h
      split at h
      · exact later h
      · next found =>
        split at h
        · split at h
          · exact later h
          · rcases List.mem_cons.mp h with here | behind
            · exact ⟨before, c :: s, Piece.hit.inj here ▸ found⟩
            · exact later behind
        · rcases List.mem_cons.mp h with here | behind
          · exact ⟨before, c :: s, Piece.hit.inj here ▸ found⟩
          · exact ih behind

end Scan

variable {p : Pattern}

theorem exists_matchAt_of_hit {s : List Char} {m : Match} (h : Piece.hit m ∈ p.scan s) :
    ∃ before rest, p.matchAt before rest = some m := by
  rw [scan_eq_scanFrom] at h
  exact exists_find_of_hit h

theorem find?_eq_some {s : List Char} {m : Match} :
    p.find? s = some m ↔
      ∃ u v, s = u ++ v ∧ p.matchAt u.getLast? v = some m ∧
        ∀ u' v', s = u' ++ v' → u'.length < u.length → p.matchAt u'.getLast? v' = none := by
  rw [find?, findAll, scan_eq_scanFrom, head?_hits]
  simp only [Option.or_none]

theorem find?_eq_none {s : List Char} :
    p.find? s = none ↔ ∀ u v, s = u ++ v → p.matchAt u.getLast? v = none := by
  rw [find?, findAll, scan_eq_scanFrom, head?_hits_eq_none]
  simp only [Option.or_none]

theorem isMatch_iff {s : List Char} :
    p.isMatch s = true ↔ ∃ u v, s = u ++ v ∧ (p.matchAt u.getLast? v).isSome = true := by
  have found : p.isMatch s = (p.find? s).isSome := by
    rw [isMatch, find?]
    cases p.findAll s <;> rfl
  rw [found]
  constructor
  · intro h
    obtain ⟨m, hm⟩ := Option.isSome_iff_exists.mp h
    obtain ⟨u, v, hs, here, -⟩ := find?_eq_some.mp hm
    exact ⟨u, v, hs, by rw [here]; rfl⟩
  · rintro ⟨u, v, hs, here⟩
    cases none : p.find? s with
    | some m => rfl
    | none =>
      rw [find?_eq_none.mp none u v hs] at here
      cases here

/-- A text with a match has all that a match needs. -/
theorem occurs_of_isMatch {p : Pattern} {run : List CharSet} {s : List Char}
    (needed : run ∈ runs p.outline) (h : p.isMatch s = true) : occurs run s = true := by
  obtain ⟨u, v, rfl, found⟩ := isMatch_iff.mp h
  obtain ⟨m, hm⟩ := Option.isSome_iff_exists.mp found
  obtain ⟨t, ht, -⟩ := Option.map_eq_some_iff.mp hm
  have possible := isPossible_of_mem_ends (List.mem_of_mem_head? ht)
  exact occurs_append_left (List.all_eq_true.mp possible run needed) u

theorem replaceFirst_go_copy (f : Match → List Char) (w : List Char) (pieces : List Piece) :
    replaceFirst.go f (w.map .copy ++ pieces) = w ++ replaceFirst.go f pieces := by
  induction w with
  | nil => rfl
  | cons c w ih => exact congrArg (c :: ·) ih

/-- Up to the first match the text is copied, and so is all behind it. -/
theorem replaceFirst_hit (f : Match → List Char) {w r : List Char} {m : Match} (full : m.text ≠ [])
    (none : ∀ u v, w = u ++ v → v ≠ [] → p.matchAt u.getLast? (v ++ (m.text ++ r)) = none)
    (here : p.matchAt w.getLast? (m.text ++ r) = some m) :
    p.replaceFirst f (w ++ (m.text ++ r)) = w ++ (f m ++ r) := by
  have free : ∀ u v, w = u ++ v → v ≠ [] →
      p.matchAt (u.getLast?.or .none) (v ++ (m.text ++ r)) = .none := by
    intro u v hw hv
    rw [Option.or_none]
    exact none u v hw hv
  obtain ⟨adjacent, copied⟩ := scanFrom_copy .none false free
  rw [Option.or_none] at copied
  have behind :
      (scanFrom p.matchAt (m.text.getLast?.or w.getLast?) 0 true r).flatMap Piece.source = r :=
    scanFrom_source (fun _ _ _ => take_length_of_matchAt) _ 0 true r
  rw [replaceFirst, scan_eq_scanFrom, copied, scanFrom_hit adjacent full here, replaceFirst_go_copy,
    replaceFirst.go, behind]

end Polyglot.Pattern
