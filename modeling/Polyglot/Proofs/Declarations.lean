import Mathlib.Data.List.Chain
import Polyglot.Proofs.FirstPlaces
import Polyglot.Proofs.Runs
import Polyglot.Roster.Manifest

/-!
Declarations in a text. They are a prefix code and none begins inside another, so a text is cut in
one way only at its first run of them, and the cut is still the same when other declarations take
the place of the run.
-/

namespace Polyglot.Roster

open Pattern

/-! ### Declarations -/

/-- Some characters, and none of them blank. -/
structure IsSolid (w : List Char) : Prop where
  full : w ≠ []
  solid : ∀ c ∈ w, Text.isBlank c = false

theorem isSolid_iff_all {w : List Char} :
    IsSolid w ↔ w ≠ [] ∧ w.all (fun c => !Text.isBlank c) = true := by
  rw [List.all_eq_true]
  constructor
  · intro h
    exact ⟨h.full, fun c hc => by simp [h.solid c hc]⟩
  · intro h
    exact ⟨h.1, fun c hc => by simpa using h.2 c hc⟩

instance (w : List Char) : Decidable (IsSolid w) :=
  decidable_of_iff _ isSolid_iff_all.symm

/-- A declaration with its line end. -/
structure Declaration where
  name : List Char
  base : List Char
  /-- Whether a carriage return stands before the line end. -/
  returns : Bool
  name_isSolid : IsSolid name
  base_isSolid : IsSolid base

namespace Declaration

/-- What stands before the name. -/
def opening : List Char :=
  [' ', ' ', ' ', ' ', 'e', 'x', 'p', 'o', 'r', 't', ' ', 'c', 'l', 'a', 's', 's', ' ']

/-- What stands between the name and the base. -/
def middle : List Char :=
  [' ', 'e', 'x', 't', 'e', 'n', 'd', 's', ' ']

/-- What stands between the base and the line end. -/
def closing : List Char :=
  [' ', '{', '}']

def lineEnd (d : Declaration) : List Char :=
  if d.returns then ['\r', '\n'] else ['\n']

def text (d : Declaration) : List Char :=
  opening ++ (d.name ++ (middle ++ (d.base ++ (closing ++ d.lineEnd))))

/-- The name and the base. -/
def entry (d : Declaration) : String × String :=
  (String.ofList d.name, String.ofList d.base)

/-- The declaration that is written for a class. -/
def ofEntry (c : String × String) (name : IsSolid c.1.toList) (base : IsSolid c.2.toList) :
    Declaration :=
  ⟨c.1.toList, c.2.toList, false, name, base⟩

theorem text_ne_nil (d : Declaration) : d.text ≠ [] := by
  simp [text, opening]

end Declaration

/-- The text begins with a declaration. -/
def Begins (s : List Char) : Prop :=
  ∃ (d : Declaration) (r : List Char), s = d.text ++ r

theorem begins_text (d : Declaration) (r : List Char) : Begins (d.text ++ r) :=
  ⟨d, r, rfl⟩

/-- Two words that are followed by blanks. -/
theorem IsSolid.append_inj {v w r s : List Char} {b c : Char} (hv : IsSolid v) (hw : IsSolid w)
    (hb : Text.isBlank b = true) (hc : Text.isBlank c = true) (same : v ++ b :: r = w ++ c :: s) :
    v = w ∧ b :: r = c :: s := by
  have solid {u : List Char} (hu : IsSolid u) : ∀ x ∈ u, (CharSet.compl .blank).has x = true := by
    intro x hx
    simp [CharSet.has, hu.solid x hx]
  have left := prefix_of_run same.symm (solid hv) (by simp [CharSet.has, hc])
  have right := prefix_of_run same (solid hw) (by simp [CharSet.has, hb])
  obtain rfl := left.eq_of_length_le right.length_le
  exact ⟨rfl, List.append_cancel_left same⟩

/-- Declarations are a prefix code. -/
theorem Declaration.text_append_inj {d e : Declaration} {r s : List Char}
    (same : d.text ++ r = e.text ++ s) : d = e ∧ r = s := by
  obtain ⟨name, base, returns, hname, hbase⟩ := d
  obtain ⟨name', base', returns', hname', hbase'⟩ := e
  simp only [text, List.append_assoc] at same
  obtain ⟨rfl, same⟩ :=
    hname.append_inj hname' (by decide) (by decide) (List.append_cancel_left same)
  have same : base ++ (closing ++ _) = base' ++ (closing ++ _) :=
    List.append_cancel_left (show middle ++ _ = middle ++ _ from same)
  obtain ⟨rfl, same⟩ := hbase.append_inj hbase' (by decide) (by decide) same
  have same := List.append_cancel_left (show closing ++ _ = closing ++ _ from same)
  cases returns <;> cases returns' <;> simp_all [lineEnd]

/-! ### Regions -/

/-- A text cut at its first run of declarations, which is as long as it can be. Only places behind a
text with `P` count. -/
structure Region (P : List Char → Prop) (s before : List Char) (run : List Declaration)
    (after : List Char) : Prop where
  whole : s = before ++ (run.flatMap Declaration.text ++ after)
  place : FirstPlace Begins P before (run.flatMap Declaration.text ++ after)
  maximal : ¬ Begins after

theorem begins_run {run : List Declaration} (full : run ≠ []) (after : List Char) :
    Begins (run.flatMap Declaration.text ++ after) := by
  obtain ⟨d, ds, rfl⟩ := List.exists_cons_of_ne_nil full
  rw [List.flatMap_cons, List.append_assoc]
  exact begins_text d _

theorem run_inj {ds es : List Declaration} {r s : List Char} (hr : ¬ Begins r) (hs : ¬ Begins s)
    (same : ds.flatMap Declaration.text ++ r = es.flatMap Declaration.text ++ s) :
    ds = es ∧ r = s := by
  induction ds generalizing es with
  | nil =>
    cases es with
    | nil => exact ⟨rfl, same⟩
    | cons e es =>
      rw [List.flatMap_nil, List.nil_append] at same
      exact absurd (same ▸ begins_run (List.cons_ne_nil _ _) s) hr
  | cons d ds ih =>
    cases es with
    | nil =>
      rw [List.flatMap_nil, List.nil_append] at same
      exact absurd (same ▸ begins_run (List.cons_ne_nil _ _) r) hs
    | cons e es =>
      rw [List.flatMap_cons, List.flatMap_cons, List.append_assoc, List.append_assoc] at same
      obtain ⟨rfl, rest⟩ := Declaration.text_append_inj same
      obtain ⟨rfl, rfl⟩ := ih rest
      exact ⟨rfl, rfl⟩

namespace Region

variable {P : List Char → Prop} {s before before' after after' : List Char}
    {run run' : List Declaration}

theorem full (h : Region P s before run after) : run ≠ [] := by
  rintro rfl
  exact h.maximal h.place.begins

/-- There is one cut only. -/
theorem unique (h : Region P s before run after) (h' : Region P s before' run' after') :
    before = before' ∧ run = run' ∧ after = after' := by
  obtain ⟨rfl, same⟩ := h.place.unique h'.place (h.whole.symm.trans h'.whole)
  obtain ⟨rfl, rfl⟩ := run_inj h.maximal h'.maximal same
  exact ⟨rfl, rfl, rfl⟩

theorem iff_eq (h : Region P s before run after) :
    Region P s before' run' after' ↔ before' = before ∧ run' = run ∧ after' = after := by
  constructor
  · exact fun h' => h'.unique h
  · rintro ⟨rfl, rfl, rfl⟩
    exact h

end Region

/-- What a run takes from the beginning of a text. -/
theorem exists_run (s : List Char) :
    ∃ (run : List Declaration) (after : List Char), s = run.flatMap Declaration.text ++
      after ∧ ¬ Begins after := by
  induction hlen : s.length using Nat.strongRecOn generalizing s with
  | ind n ih =>
    by_cases begins : Begins s
    · obtain ⟨d, r, rfl⟩ := begins
      have short : r.length < n := by
        have := List.length_pos_iff.mpr d.text_ne_nil
        rw [List.length_append] at hlen
        omega
      obtain ⟨run, after, rfl, maximal⟩ := ih r.length short r rfl
      exact ⟨d :: run, after, by rw [List.flatMap_cons, List.append_assoc], maximal⟩
    · exact ⟨[], s, rfl, begins⟩

/-- Where there is a declaration there is a first run of them. -/
theorem exists_region {P : List Char → Prop} {s u v : List Char} (whole : s = u ++ v) (here : P u)
    (begins : Begins v) : ∃ before run after, Region P s before run after := by
  obtain ⟨before, behind, same, place⟩ := FirstPlace.exists_of_begins here begins
  obtain ⟨run, after, rfl, maximal⟩ := exists_run behind
  exact ⟨before, run, after, whole.trans same, place, maximal⟩

/-! ### Declarations do not overlap -/

/-- Two spaces do not stand side by side. -/
def IsSpaced (s : List Char) : Prop :=
  s.IsChain fun a b => ¬ (a = ' ' ∧ b = ' ')

instance (s : List Char) : Decidable (IsSpaced s) :=
  inferInstanceAs (Decidable (s.IsChain fun a b => ¬ (a = ' ' ∧ b = ' ')))

theorem isSpaced_of_not_mem {s : List Char} (h : ' ' ∉ s) : IsSpaced s := by
  induction s with
  | nil => exact .nil
  | cons c s ih =>
    rw [List.mem_cons, not_or] at h
    exact List.isChain_cons.mpr ⟨fun _ _ both => h.1 both.1.symm, ih h.2⟩

theorem IsSpaced.append {s r : List Char} (hs : IsSpaced s) (hr : IsSpaced r)
    (apart : s.getLast? ≠ some ' ' ∨ r.head? ≠ some ' ') : IsSpaced (s ++ r) := by
  refine List.isChain_append.mpr ⟨hs, hr, ?_⟩
  rintro a last b first ⟨rfl, rfl⟩
  exact apart.elim (· last) (· first)

namespace IsSolid

variable {w : List Char} (h : IsSolid w)
include h

theorem space_not_mem : ' ' ∉ w := by
  intro mem
  exact absurd (h.solid _ mem) (by decide)

/-- A word between texts with single spaces. -/
theorem isSpaced_append {s r : List Char} (hs : IsSpaced s) (hr : IsSpaced r) :
    IsSpaced (s ++ (w ++ r)) := by
  have outer : IsSpaced (w ++ r) := by
    refine (isSpaced_of_not_mem h.space_not_mem).append hr (.inl fun last => ?_)
    exact h.space_not_mem (List.mem_of_getLast? last)
  refine hs.append outer (.inr fun first => ?_)
  rw [List.head?_append_of_ne_nil _ h.full] at first
  exact h.space_not_mem (List.mem_of_mem_head? first)

end IsSolid

namespace Declaration

/-- Behind the indentation there are single spaces only. -/
theorem isSpaced_drop (d : Declaration) : IsSpaced (d.text.drop 4) := by
  have closed : IsSpaced (closing ++ d.lineEnd) := by
    rw [lineEnd]
    cases d.returns <;> decide
  exact d.name_isSolid.isSpaced_append (s := opening.drop 4) (by decide)
    (d.base_isSolid.isSpaced_append (s := middle) (by decide) closed)

theorem getLast?_text (d : Declaration) : d.text.getLast? = some '\n' := by
  rw [text, lineEnd]
  cases d.returns <;> simp

theorem exists_text (d : Declaration) : ∃ r, d.text = ' ' :: ' ' :: ' ' :: ' ' :: 'e' :: r :=
  ⟨_, rfl⟩

/-- No declaration begins inside another: the indentation is found at the beginning only. -/
theorem not_text_inside {d e : Declaration} {v w x r : List Char}
    (cut : d.text = v ++ w) (hv : v ≠ []) (hw : w ≠ []) (behind : w ++ x = e.text ++ r) :
    False := by
  have last : w.getLast? = some '\n' := by
    have := d.getLast?_text
    rwa [cut, List.getLast?_append_of_ne_nil _ hw] at this
  have spaced := d.isSpaced_drop
  rw [cut] at spaced
  obtain ⟨inner, shape⟩ := d.exists_text
  obtain ⟨inner', shape'⟩ := e.exists_text
  rw [shape] at cut
  rw [shape'] at behind
  rcases v with _ | ⟨_, _ | ⟨_, _ | ⟨_, _ | ⟨_, v⟩⟩⟩⟩
  · exact hv rfl
  -- Not all of the indentation is left in the first three cases.
  · simp only [List.cons_append, List.nil_append, List.cons.injEq] at cut
    simp [← cut.2] at behind
  · simp only [List.cons_append, List.nil_append, List.cons.injEq] at cut
    simp [← cut.2.2] at behind
  · simp only [List.cons_append, List.nil_append, List.cons.injEq] at cut
    simp [← cut.2.2.2] at behind
  · rcases w with _ | ⟨a, _ | ⟨b, w⟩⟩
    · exact hw rfl
    · have newline : a = '\n' := by simpa using last
      have space : a = ' ' := by simpa using (List.cons.inj behind).1
      exact absurd (newline.symm.trans space) (by decide)
    · simp only [List.cons_append, List.cons.injEq] at behind
      exact (List.isChain_append_cons_cons.mp spaced).2.1 ⟨behind.1, behind.2.1⟩

end Declaration

/-- The cut stays when other declarations take the place of the run. -/
theorem Region.exchange {P : List Char → Prop} {s before after : List Char}
    {run run' : List Declaration} (h : Region P s before run after) (full : run' ≠ []) :
    Region P (before ++ (run'.flatMap Declaration.text ++ after)) before run' after := by
  refine ⟨rfl, h.place.exchange (begins_run full after) fun v hv begins => ?_, h.maximal⟩
  obtain ⟨d, r, same⟩ := begins
  have apart {w : List Char} (inside : v = d.text ++ w) :
      Begins (v ++ (run.flatMap Declaration.text ++ after)) := by
    rw [inside, List.append_assoc]
    exact begins_text d _
  rcases List.append_eq_append_iff.mp same with ⟨w, text, behind⟩ | ⟨w, inside, -⟩
  · by_cases hw : w = []
    · exact apart (w := []) (by rw [text, hw, List.append_nil, List.append_nil])
    · obtain ⟨e, es, rfl⟩ := List.exists_cons_of_ne_nil full
      rw [List.flatMap_cons, List.append_assoc] at behind
      exact (Declaration.not_text_inside text hv hw behind.symm).elim
  · exact apart inside

end Polyglot.Roster
