import Polyglot.Pattern.Template
import Polyglot.Proofs.Hits
import Polyglot.Proofs.Runs

/-!
Replacing as a recursion over the text: a place without a match gives its character, a place with a
match gives the replacement, and the rest of the text comes behind. `replaceFrom` is this recursion
from any place on. For patterns that do not look at what precedes a place the recursion is over the
text alone, and `replaceAll_cons`, `replaceAll_copy` and `replaceAll_hit` are its steps.
-/

namespace Polyglot

namespace Cursor

/-- The same place, without what precedes it. -/
def hide (c : Cursor) : Cursor :=
  { c with before := none }

end Cursor

namespace Pattern

/-! ### Properties of sequences -/

/-- Whether some part tests the place it stands at. -/
def looks : Pattern → Bool
  | empty => false
  | char _ => false
  | look _ => true
  | seq p q => looks p || looks q
  | alt p q => looks p || looks q
  | star _ p => looks p
  | plus _ p => looks p
  | group _ p => looks p

@[simp] theorem isTame_seqAll (ps : List Pattern) : (seqAll ps).isTame = ps.all isTame := by
  induction ps with
  | nil => rfl
  | cons p ps ih =>
    cases ps with
    | nil => exact (Bool.and_true _).symm
    | cons q qs => rw [seqAll, isTame, ih, List.all_cons (a := p)]; simp

@[simp] theorem nullable_seqAll (ps : List Pattern) : (seqAll ps).nullable = ps.all nullable := by
  induction ps with
  | nil => rfl
  | cons p ps ih =>
    cases ps with
    | nil => exact (Bool.and_true _).symm
    | cons q qs => rw [seqAll, nullable, ih, List.all_cons (a := p)]; simp

@[simp] theorem looks_seqAll (ps : List Pattern) : (seqAll ps).looks = ps.any looks := by
  induction ps with
  | nil => rfl
  | cons p ps ih =>
    cases ps with
    | nil => exact (Bool.or_false _).symm
    | cons q qs => rw [seqAll, looks, ih, List.any_cons (a := p)]; simp

@[simp] theorem all_isTame_chars (w : List Char) : (chars w).all isTame = true := by
  simp [chars, isTame]

@[simp] theorem any_looks_chars (w : List Char) : (chars w).any looks = false := by
  simp [chars, looks]

/-! ### Patterns that do not look around -/

theorem map_hide_flatMap {k : Cursor → List Cursor}
    (hk : ∀ c, (k c).map Cursor.hide = (k c.hide).map Cursor.hide)
    {cs ds : List Cursor} (h : cs.map Cursor.hide = ds.map Cursor.hide) :
    (cs.flatMap k).map Cursor.hide = (ds.flatMap k).map Cursor.hide := by
  have through (l : List Cursor) :
      (l.flatMap k).map Cursor.hide = (l.map Cursor.hide).flatMap fun c =>
      (k c).map Cursor.hide := by
    rw [List.map_flatMap, List.flatMap_map]
    exact flatMap_eq_of_forall fun c _ => hk c
  rw [through, through, h]

theorem map_hide_laps {greedy : Bool} {step : Cursor → List Cursor}
    (h : ∀ c, (step c).map Cursor.hide = (step c.hide).map Cursor.hide) (fuel : Nat) (c : Cursor) :
    (laps greedy step fuel c).map Cursor.hide = (laps greedy step fuel c.hide).map Cursor.hide := by
  induction fuel generalizing c with
  | zero => rfl
  | succ fuel ih =>
    have further := map_hide_flatMap (k := laps greedy step fuel) ih (h c)
    cases greedy
    · simp only [laps, Bool.false_eq_true, ↓reduceIte, List.map_cons, further]
      rfl
    · simp only [laps, ↓reduceIte, List.map_append, further]
      rfl

theorem map_hide_ways {p : Pattern} (blind : p.looks = false) (c : Cursor) :
    (p.ways c).map Cursor.hide = (p.ways c.hide).map Cursor.hide := by
  induction p generalizing c with
  | empty => rfl
  | char set =>
    cases hrest : c.rest with
    | nil => rw [ways_char_of_nil set hrest, ways_char_of_nil (c := c.hide) set hrest]
    | cons d r =>
      rw [ways_char_of_cons set hrest, ways_char_of_cons (c := c.hide) set hrest]
      split <;> rfl
  | look test => cases blind
  | seq p q ihp ihq =>
    simp only [looks, Bool.or_eq_false_iff] at blind
    exact map_hide_flatMap (ihq blind.2) (ihp blind.1 c)
  | alt p q ihp ihq =>
    simp only [looks, Bool.or_eq_false_iff] at blind
    simp only [ways, List.map_append, ihp blind.1 c, ihq blind.2 c]
  | star greedy p ih => exact map_hide_laps (ih blind) c.rest.length c
  | plus greedy p ih =>
    exact map_hide_flatMap (fun d => map_hide_laps (ih blind) d.rest.length d) (ih blind c)
  | group index p ih =>
    have outer (d : Cursor) (cs : List Cursor) :
        (cs.map (d.leave index)).map Cursor.hide = (cs.map Cursor.hide).map fun e =>
        (d.hide.leave index e).hide := by
      rw [List.map_map, List.map_map]
      rfl
    rw [ways_group, ways_group, outer, outer, ih blind c.enter]
    rfl

/-- What precedes a place matters only to patterns that look. -/
theorem matchAt_eq_of_not_looks {p : Pattern} (tame : p.isTame = true) (blind : p.looks = false)
    (before before' : Option Char) (s : List Char) : p.matchAt before s = p.matchAt before' s := by
  have shown (b : Option Char) : p.matchAt b s =
      (((p.ways (.start none s)).map Cursor.hide).head?.map Cursor.toMatch) := by
    have same : Cursor.start none s = (Cursor.start b s).hide := rfl
    rw [matchAt_eq_ways tame, same, ← map_hide_ways blind, List.head?_map, Option.map_map]
    rfl
  rw [shown, shown]

/-! ### Matches that are not empty -/

theorem length_lt_of_mem_ends {n : Nat} {p : Pattern} {s t : State} (solid : p.nullable = false)
    (mem : t ∈ p.ends n s) : t.rest.length < s.rest.length := by
  induction p generalizing n s t with
  | empty => cases solid
  | char set =>
    simp only [ends] at mem
    split at mem
    · cases mem
    · next c rest hrest =>
      split at mem
      · rw [List.mem_singleton.mp mem, hrest]
        exact Nat.lt_succ_self _
      · cases mem
  | look test => cases solid
  | seq p q ihp ihq =>
    obtain ⟨u, hu, hut⟩ := List.mem_flatMap.mp mem
    have first := (reaches_of_mem_ends hu).length_le
    have second := (reaches_of_mem_ends hut).length_le
    rcases Bool.and_eq_false_iff.mp solid with hp | hq
    · have := ihp hp hu
      omega
    · have := ihq hq hut
      omega
  | alt p q ihp ihq =>
    simp only [nullable, Bool.or_eq_false_iff] at solid
    simp only [ends] at mem
    split at mem
    · cases mem
    · next u hu =>
      have same : u.rest = s.rest := by rw [(State.pass?_eq_some.mp hu).2]
      rw [← same]
      rcases List.mem_append.mp mem with first | second
      · exact ihp solid.1 first
      · exact ihq solid.2 second
  | star greedy p ih => cases solid
  | plus greedy p ih =>
    obtain ⟨u, hu, hut⟩ := List.mem_flatMap.mp mem
    have further := (reaches_of_mem_rounds (fun s t => reaches_of_mem_ends) hut).length_le
    have := ih solid hu
    omega
  | group index p ih =>
    obtain ⟨u, hu, rfl⟩ := List.mem_map.mp mem
    rw [State.leave_rest]
    exact ih (s := s.enter) solid hu

theorem text_ne_nil_of_matchAt {p : Pattern} (solid : p.nullable = false) {before : Option Char}
    {rest : List Char} {m : Match} (h : p.matchAt before rest = some m) : m.text ≠ [] := by
  obtain ⟨t, ht, rfl⟩ := Option.map_eq_some_iff.mp h
  have mem := List.mem_of_mem_head? ht
  have shorter := length_lt_of_mem_ends solid mem
  obtain ⟨w, hw, hcount, -⟩ := reaches_of_mem_ends mem
  simp only [State.start, Nat.zero_add] at hw hcount shorter
  intro none
  have : t.count = 0 ∨ rest = [] := by simpa [Match.ofState] using none
  rcases this with zero | empty
  · obtain rfl : w = [] := List.eq_nil_of_length_eq_zero (hcount ▸ zero)
    rw [hw, List.nil_append] at shorter
    exact Nat.lt_irrefl _ shorter
  · rw [empty] at shorter
    exact Nat.not_lt_zero _ shorter

/-! ### The recursion -/

/-- What is put for a piece of a text. -/
def putFor (f : Match → List Char) : Piece → List Char
  | .copy c => [c]
  | .hit m => f m

/-- The replacement of the matches from a place on. -/
def replaceFrom (p : Pattern) (f : Match → List Char) (before : Option Char) (s : List Char) :
    List Char :=
  (scanFrom p.matchAt before 0 false s).flatMap (putFor f)

theorem replaceAll_eq_replaceFrom (p : Pattern) (f : Match → List Char) (s : List Char) :
    p.replaceAll f s = p.replaceFrom f none s := by
  rw [replaceAll, scan_eq_scanFrom, replaceFrom]
  refine flatMap_eq_of_forall fun piece _ => ?_
  cases piece <;> rfl

section Solid

variable {p : Pattern} {f : Match → List Char} {before : Option Char} {s : List Char}

theorem matchAt_nil (solid : p.nullable = false) : p.matchAt before [] = none := by
  cases h : p.matchAt before [] with
  | none => rfl
  | some m =>
    have covered := take_length_of_matchAt h
    rw [List.take_nil] at covered
    exact absurd covered.symm (text_ne_nil_of_matchAt solid h)

theorem scan_nil (solid : p.nullable = false) : p.scan [] = [] := by
  rw [scan_eq_scanFrom, scanFrom, matchAt_nil solid]

/-- Without empty matches it does not matter whether a match ends at the place. -/
theorem scanFrom_adjacent (solid : p.nullable = false) (adjacent : Bool) :
    scanFrom p.matchAt before 0 adjacent s = scanFrom p.matchAt before 0 false s := by
  cases s with
  | nil => rw [scanFrom, scanFrom, matchAt_nil solid]
  | cons c s =>
    rw [scanFrom, scanFrom]
    cases h : p.matchAt before (c :: s) with
    | none => rfl
    | some m =>
      have full : m.text.isEmpty = false := by simpa using text_ne_nil_of_matchAt solid h
      simp only [full, Bool.false_eq_true, ↓reduceIte]

theorem replaceFrom_nil (solid : p.nullable = false) : p.replaceFrom f before [] = [] := by
  rw [replaceFrom, scanFrom, matchAt_nil solid]
  rfl

theorem replaceFrom_cons {c : Char} (h : p.matchAt before (c :: s) = none) :
    p.replaceFrom f before (c :: s) = c :: p.replaceFrom f (some c) s := by
  simp only [replaceFrom, scanFrom, h, List.flatMap_cons, putFor, List.singleton_append]

/-- A part of the text in which no match begins stays. -/
theorem replaceFrom_copy {w : List Char}
    (h : ∀ u v, w = u ++ v → v ≠ [] → p.matchAt (u.getLast?.or before) (v ++ s) = none) :
    p.replaceFrom f before (w ++ s) = w ++ p.replaceFrom f (w.getLast?.or before) s := by
  induction w generalizing before with
  | nil => rfl
  | cons c w ih =>
    have here : p.matchAt before (c :: (w ++ s)) = none := h [] (c :: w) rfl (List.cons_ne_nil _ _)
    rw [List.cons_append, replaceFrom_cons here, ih, getLast?_cons_or, List.cons_append]
    intro u v hw full
    rw [← getLast?_cons_or c u before]
    exact h (c :: u) v (by rw [hw, List.cons_append]) full

theorem replaceFrom_hit (solid : p.nullable = false) {m : Match}
    (h : p.matchAt before (m.text ++ s) = some m) :
    p.replaceFrom f before (m.text ++ s) =
      f m ++ p.replaceFrom f (m.text.getLast?.or before) s := by
  rw [replaceFrom, scanFrom_hit false (text_ne_nil_of_matchAt solid h) h, List.flatMap_cons,
    scanFrom_adjacent solid]
  rfl

end Solid

section Blind

variable {p : Pattern} {f : Match → List Char}

theorem scanFrom_eq_of_not_looks (tame : p.isTame = true) (blind : p.looks = false)
    (before : Option Char) (s : List Char) :
    scanFrom p.matchAt before 0 false s = scanFrom p.matchAt none 0 false s := by
  cases s with
  | nil => rw [scanFrom, scanFrom, matchAt_eq_of_not_looks tame blind before none]
  | cons c s => rw [scanFrom, scanFrom, matchAt_eq_of_not_looks tame blind before none]

theorem replaceFrom_eq_replaceAll (tame : p.isTame = true) (blind : p.looks = false)
    (before : Option Char) (s : List Char) : p.replaceFrom f before s = p.replaceAll f s := by
  rw [replaceAll_eq_replaceFrom, replaceFrom, scanFrom_eq_of_not_looks tame blind, replaceFrom]

variable (tame : p.isTame = true) (blind : p.looks = false) {s : List Char}
include tame blind

theorem replaceAll_cons {c : Char} (h : p.matchAt none (c :: s) = none) :
    p.replaceAll f (c :: s) = c :: p.replaceAll f s := by
  rw [replaceAll_eq_replaceFrom, replaceFrom_cons h, replaceFrom_eq_replaceAll tame blind]

theorem replaceAll_copy {w : List Char}
    (h : ∀ v, v <:+ w → v ≠ [] → p.matchAt none (v ++ s) = none) :
    p.replaceAll f (w ++ s) = w ++ p.replaceAll f s := by
  rw [replaceAll_eq_replaceFrom, replaceFrom_copy, replaceFrom_eq_replaceAll tame blind]
  intro u v hw full
  rw [matchAt_eq_of_not_looks tame blind _ none]
  exact h v ⟨u, hw.symm⟩ full

theorem replaceAll_hit (solid : p.nullable = false) {m : Match}
    (h : p.matchAt none (m.text ++ s) = some m) :
    p.replaceAll f (m.text ++ s) = f m ++ p.replaceAll f s := by
  rw [replaceAll_eq_replaceFrom, replaceFrom_hit solid h, replaceFrom_eq_replaceAll tame blind]

end Blind

theorem replaceAll_nil {p : Pattern} {f : Match → List Char} (solid : p.nullable = false) :
    p.replaceAll f [] = [] := by
  rw [replaceAll_eq_replaceFrom, replaceFrom_nil solid]

end Pattern

/-! ### Templates -/

namespace Template

/-- Characters other than the dollar stand for themselves. -/
theorem partsFrom_append {w : List Char} (h : '$' ∉ w) (s : List Char) :
    partsFrom 0 (w ++ s) = w.map .char ++ partsFrom 0 s := by
  induction w with
  | nil => rfl
  | cons c w ih =>
    have other : c ≠ '$' := by
      rintro rfl
      exact h List.mem_cons_self
    rw [List.cons_append, partsFrom, ih fun mem => h (List.mem_cons_of_mem _ mem)]
    · rfl
    · intro rest same
      exact absurd same other
    · exact other

/-- Two dollars stand for one. -/
theorem partsFrom_dollars (s : List Char) :
    partsFrom 0 ('$' :: '$' :: s) = .char '$' :: partsFrom 0 s := by
  rw [partsFrom, partsFrom]

/-- A digit in braces refers to a group. -/
theorem partsFrom_digit {c : Char} (hc : Text.isAsciiDigit c = true) (s : List Char) :
    partsFrom 0 ('$' :: '\x7b' :: c :: '\x7d' :: s) = .group (number [c]) :: partsFrom 0 s := by
  have other : c ≠ '\x7d' := by
    rintro rfl
    cases hc
  have sign : c ≠ '+' := by
    rintro rfl
    cases hc
  have read : reference? ('\x7b' :: c :: '\x7d' :: s) = some (.group (number [c]), s) := by
    simp [reference?, Part.ofName, other, sign, hc]
  rw [partsFrom, read]
  · change _ :: partsFrom (s.length + 3 - s.length) _ = _
    rw [Nat.add_sub_cancel_left]
    rfl
  · intro rest same
    cases same

theorem expand_append (names : List (List Char × Nat)) (ps qs : List Part) (m : Match) :
    expand names (ps ++ qs) m = expand names ps m ++ expand names qs m := by
  rw [expand, List.flatMap_append]
  rfl

theorem expand_chars (names : List (List Char × Nat)) (w : List Char) (m : Match) :
    expand names (w.map .char) m = w := by
  rw [expand, List.flatMap_map]
  exact List.flatMap_singleton' w

end Template

end Polyglot
