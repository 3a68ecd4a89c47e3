import Polyglot.Pattern.Form
import Polyglot.Proofs.CodePoints
import Polyglot.Proofs.Language

/-!
What forms match. Putting forms together changes them: texts grow together, single characters become
sets, and a common beginning is taken out of alternatives. None of it changes what is matched: forms
joined match one after another (`takes_join`), and a choice of forms matches what one of them does
(`takes_choose`).

Both are stated with relations between places, where one form after another is the composition.
-/

namespace Polyglot

open Relation

namespace Pattern

theorem takes_seqAll_cons (p : Pattern) (ps : List Pattern) :
    (seqAll (p :: ps)).Takes = Comp p.Takes (seqAll ps).Takes := by
  cases ps with
  | nil => exact comp_eq.symm
  | cons q ps => rfl

theorem takes_seqAll_append (ps qs : List Pattern) :
    (seqAll (ps ++ qs)).Takes = Comp (seqAll ps).Takes (seqAll qs).Takes := by
  induction ps with
  | nil => exact eq_comp.symm
  | cons p ps ih => rw [List.cons_append, takes_seqAll_cons, takes_seqAll_cons, ih, comp_assoc]

variable {p q : Pattern}

theorem takes_opt (greedy : Bool) (s t : Site) :
    (opt greedy p).Takes s t ↔ s = t ∨ p.Takes s t := by
  unfold opt
  split
  · exact or_comm
  · exact Iff.rfl

theorem takes_copies_congr (h : p.Takes = q.Takes) (fuel n : Nat) :
    (copies fuel n p).Takes = (copies fuel n q).Takes := by
  induction fuel generalizing n with
  | zero => exact h
  | succ fuel ih =>
    unfold copies
    split
    · rfl
    · split
      · exact h
      · exact congrArg₂ Comp (ih _) (ih _)

theorem takes_upTo_succ (greedy : Bool) (n : Nat) (s t : Site) :
    (upTo greedy p (n + 1)).Takes s t ↔ s = t ∨ Comp p.Takes (upTo greedy p n).Takes s t := by
  cases n with
  | zero =>
    have once : Comp p.Takes (upTo greedy p 0).Takes = p.Takes := comp_eq
    rw [once]
    exact takes_opt greedy s t
  | succ n => exact takes_opt greedy s t

theorem takes_upTo_congr (h : p.Takes = q.Takes) (greedy : Bool) (n : Nat) :
    (upTo greedy p n).Takes = (upTo greedy q n).Takes := by
  induction n with
  | zero => rfl
  | succ n ih =>
    funext s t
    rw [takes_upTo_succ, takes_upTo_succ, h, ih]

theorem takes_opt_plus (greedy : Bool) :
    (opt greedy (plus greedy p)).Takes = (star greedy p).Takes := by
  funext s t
  have loops : (star greedy p).Takes s t ↔ t = s ∨ (plus greedy p).Takes s t :=
    reflTransGen_iff_eq_or_transGen
  rw [takes_opt, loops, eq_comm (a := s)]

end Pattern

theorem CharSet.has_ofItems (items : List CharSet) (c : Char) :
    (ofItems items).has c = true ↔ ∃ item ∈ items, item.has c = true := by
  have gathered (set : CharSet) : (items.foldl union set).has c = true ↔
      set.has c = true ∨ ∃ item ∈ items, item.has c = true := by
    induction items generalizing set with
    | nil => simp
    | cons item items ih => simp [ih, or_assoc]
  rw [ofItems, gathered]
  simp

namespace Form

/-- The form matches the text from the first place up to the second. -/
def Takes (f : Form) : Site → Site → Prop :=
  f.toPattern.Takes

theorem takes_seq (a b : Form) : (seq a b).Takes = Comp a.Takes b.Takes :=
  Pattern.takes_seqAll_append _ _

theorem takes_alt (a b : Form) (s t : Site) :
    (alt a b).Takes s t ↔ a.Takes s t ∨ b.Takes s t := Iff.rfl

theorem takes_set (set : CharSet) (s t : Site) :
    (Form.set set).Takes s t ↔ ∃ c r, s.rest = c :: r ∧ set.has c = true ∧ t =
    ⟨some c, r⟩ := Iff.rfl

theorem takes_text_append (v w : List Char) :
    (text (v ++ w)).Takes = Comp (text v).Takes (text w).Takes := by
  have split : (text (v ++ w)).patterns = (text v).patterns ++ (text w).patterns := List.map_append
  rw [Takes, toPattern, split, Pattern.takes_seqAll_append]
  rfl

/-- One character is matched as the set of it is. -/
theorem takes_char (c : Char) : (text [c]).Takes = (Form.set (.single c)).Takes := rfl

theorem takes_repeated_congr {p q : Pattern} (h : p.Takes = q.Takes) (n : Nat) :
    (Pattern.seqAll (repeated n p)).Takes = (Pattern.seqAll (repeated n q)).Takes := by
  unfold repeated
  split
  · rfl
  · exact Pattern.takes_copies_congr h n n

/-- Whether the iterations are known to consume a character makes no difference to what is
matched. -/
theorem takes_rep_zero (greedy : Bool) (f : Form) :
    (rep 0 none greedy f).Takes = (Pattern.star greedy f.toPattern).Takes := by
  rw [Takes, toPattern, patterns]
  split
  · rfl
  · exact Pattern.takes_opt_plus greedy

/-- What a repetition matches depends on what its body matches, and not on how the body is
spelled. -/
theorem takes_rep_congr {a b : Form} (h : a.Takes = b.Takes) (min : Nat) (max : Option Nat)
    (greedy : Bool) : (rep min max greedy a).Takes = (rep min max greedy b).Takes := by
  have plus : (Pattern.plus greedy a.toPattern).Takes = (Pattern.plus greedy b.toPattern).Takes :=
    congrArg TransGen h
  cases max with
  | none =>
    cases min with
    | zero =>
      rw [takes_rep_zero, takes_rep_zero]
      exact congrArg ReflTransGen h
    | succ n =>
      simp only [Takes, toPattern, patterns, Pattern.takes_seqAll_append]
      exact congrArg₂ Comp (takes_repeated_congr h n) plus
  | some m =>
    simp only [Takes, toPattern, patterns, Pattern.takes_seqAll_append]
    refine congrArg₂ Comp (takes_repeated_congr h min) ?_
    split
    · rfl
    · exact Pattern.takes_upTo_congr h greedy _

/-! ### Sequences -/

/-- The forms match one after another. -/
def Follow (fs : List Form) : Site → Site → Prop :=
  fs.foldr (fun f later => Comp f.Takes later) Eq

theorem follow_cons (f : Form) (fs : List Form) : Follow (f :: fs) = Comp f.Takes (Follow fs) := rfl

theorem follow_singleton (f : Form) : Follow [f] = f.Takes :=
  comp_eq

theorem follow_append (fs gs : List Form) : Follow (fs ++ gs) = Comp (Follow fs) (Follow gs) := by
  induction fs with
  | nil => exact eq_comp.symm
  | cons f fs ih => rw [List.cons_append, follow_cons, follow_cons, ih, comp_assoc]

theorem takes_ofParts (fs : List Form) : (ofParts fs).Takes = Follow fs := by
  induction fs with
  | nil => rfl
  | cons f fs ih =>
    cases fs with
    | nil => exact (follow_singleton f).symm
    | cons g fs =>
      change (seq f (ofParts (g :: fs))).Takes = _
      rw [takes_seq, ih, follow_cons f]

theorem follow_parts (f : Form) : Follow f.parts = f.Takes := by
  induction f with
  | empty => rfl
  | seq first rest _ ih => rw [parts, follow_cons, ih, takes_seq]
  | _ => exact follow_singleton _

theorem follow_flatMap_parts (fs : List Form) : Follow (fs.flatMap parts) = Follow fs := by
  induction fs with
  | nil => rfl
  | cons f fs ih => rw [List.flatMap_cons, follow_append, ih, follow_parts, follow_cons]

theorem follow_glue (f : Form) (fs : List Form) : Follow (glue f fs) = Follow (f :: fs) := by
  unfold glue
  split
  · rw [follow_cons, takes_text_append, follow_cons, follow_cons, comp_assoc]
  · rfl

/-- Forms joined match one after another. -/
theorem takes_join (fs : List Form) : (join fs).Takes = Follow fs := by
  have glued (gs : List Form) : Follow (gs.foldr glue []) = Follow gs := by
    induction gs with
    | nil => rfl
    | cons g gs ih => rw [List.foldr_cons, follow_glue, follow_cons, follow_cons, ih]
  rw [join, takes_ofParts, glued, follow_flatMap_parts]

/-! ### Alternatives -/

theorem takes_ofSet (set : CharSet) : (ofSet set).Takes = (Form.set set).Takes := by
  unfold ofSet
  split
  · next c only =>
    funext s t
    rw [takes_char, takes_set, takes_set]
    simp only [CharSet.has_single, decide_eq_true_eq, CharSet.has_of_only? only]
  · rfl

theorem exists_branches_iff (f : Form) (s t : Site) :
    (∃ g ∈ f.branches, g.Takes s t) ↔ f.Takes s t := by
  induction f with
  | alt preferred others _ ih =>
    rw [branches, takes_alt, ← ih]
    simp
  | _ => simp [branches]

theorem takes_ofBranches (fs : List Form) (s t : Site) :
    (ofBranches fs).Takes s t ↔ ∃ f ∈ fs, f.Takes s t := by
  induction fs with
  | nil =>
    rw [ofBranches, takes_set]
    simp
  | cons f fs ih =>
    cases fs with
    | nil => simp [ofBranches]
    | cons g fs =>
      change (alt f (ofBranches (g :: fs))).Takes s t ↔ _
      rw [takes_alt, ih]
      simp

/-- A set of the characters of several sets matches what one of these does. -/
theorem takes_ofItems (items : List CharSet) (s t : Site) :
    (ofSet (.ofItems items)).Takes s t ↔ ∃ item ∈ items, (Form.set item).Takes s t := by
  rw [takes_ofSet, takes_set]
  constructor
  · rintro ⟨c, r, hr, has, rfl⟩
    obtain ⟨item, mem, has⟩ := (CharSet.has_ofItems items c).mp has
    exact ⟨item, mem, c, r, hr, has, rfl⟩
  · rintro ⟨item, mem, c, r, hr, has, rfl⟩
    exact ⟨c, r, hr, (CharSet.has_ofItems items c).mpr ⟨item, mem, has⟩, rfl⟩

theorem takes_eq_of_same {f g : Form} (h : f.same g = true) : f.Takes = g.Takes := by
  fun_induction same f g with
  | case1 => rfl
  | case2 v w => rw [beq_iff_eq.mp h]
  | case3 a b =>
    funext s t
    simp only [takes_set, CharSet.has_eq_of_same h]
  | case4 k l => rw [beq_iff_eq.mp h]
  | case5 a b c d iha ihb =>
    obtain ⟨first, rest⟩ := Bool.and_eq_true_iff.mp h
    rw [takes_seq, takes_seq, iha first, ihb rest]
  | case6 a b c d iha ihb =>
    obtain ⟨first, rest⟩ := Bool.and_eq_true_iff.mp h
    funext s t
    rw [takes_alt, takes_alt, iha first, ihb rest]
  | case7 m n g a m' n' g' b ih =>
    simp only [Bool.and_eq_true, beq_iff_eq] at h
    obtain ⟨⟨⟨rfl, rfl⟩, rfl⟩, body⟩ := h
    exact takes_rep_congr (ih body) m n g
  | case8 i a j b ih =>
    obtain ⟨-, body⟩ := Bool.and_eq_true_iff.mp h
    exact ih body
  | case9 => cases h

/-- What two sequences have in common matches alike. -/
theorem follow_take_of_common {fs gs : List Form} {n : Nat} (h : n ≤ common fs gs) :
    Follow (fs.take n) = Follow (gs.take n) := by
  induction n generalizing fs gs with
  | zero => rfl
  | succ n ih =>
    unfold common at h
    split at h
    · next f fs g gs =>
      split at h
      · next same =>
        rw [List.take_succ_cons, List.take_succ_cons, follow_cons, follow_cons,
          takes_eq_of_same same, ih (Nat.le_of_succ_le_succ h)]
      · cases h
    · cases h

/-- All alternatives have the lead in common with the first. -/
theorem le_common_of_lead {f : Form} {fs : List Form} {n : Nat} (h : n ≤ lead (f :: fs)) :
    ∀ g ∈ fs, n ≤ common f.parts g.parts := by
  have folded (m : Nat) (h : n ≤ fs.foldl (fun n g => min n (common f.parts g.parts)) m) :
      n ≤ m ∧ ∀ g ∈ fs, n ≤ common f.parts g.parts := by
    clear * - h
    induction fs generalizing m with
    | nil => exact ⟨h, by simp⟩
    | cons g fs ih =>
      obtain ⟨first, others⟩ := ih (min m (common f.parts g.parts)) h
      obtain ⟨start, here⟩ := Nat.le_min.mp first
      exact ⟨start, List.forall_mem_cons.mpr ⟨here, others⟩⟩
  rw [lead] at h
  split at h
  · exact (folded _ h).2
  · intro g _
    exact h.trans (Nat.zero_le _)

/-- The alternatives begin as the first of them does, and go on each in its own way. -/
theorem takes_of_lead {fs : List Form} {n : Nat} (h : n ≤ lead fs) {f : Form} (mem : f ∈ fs) :
    f.Takes = Comp (Follow ((fs.head?.elim [] parts).take n)) (ofParts (f.parts.drop n)).Takes := by
  obtain ⟨first, others, rfl⟩ : ∃ first others, fs = first :: others :=
    List.exists_cons_of_ne_nil (List.ne_nil_of_mem mem)
  have alike : Follow (first.parts.take n) = Follow (f.parts.take n) := by
    rcases List.mem_cons.mp mem with rfl | mem
    · rfl
    · exact follow_take_of_common (le_common_of_lead h f mem)
  calc
    f.Takes = Follow (f.parts.take n ++ f.parts.drop n) := by
      rw [List.take_append_drop, follow_parts]
    _ = Comp (Follow (first.parts.take n)) (ofParts (f.parts.drop n)).Takes := by
      rw [follow_append, alike, takes_ofParts]

theorem eq_map_of_mapM {α β : Type} {f : α → Option β} {g : β → α}
    (inverse : ∀ x y, f x = some y → x = g y) {xs : List α} {ys : List β}
    (h : xs.mapM f = some ys) : xs = ys.map g := by
  induction xs generalizing ys with
  | nil =>
    obtain rfl : [] = ys := Option.some.inj h
    rfl
  | cons x xs ih =>
    rw [List.mapM_cons] at h
    obtain ⟨y, hy, h⟩ := Option.bind_eq_some_iff.mp h
    obtain ⟨ys, hys, h⟩ := Option.bind_eq_some_iff.mp h
    obtain rfl := Option.some.inj h
    rw [List.map_cons, ← inverse x y hy, ← ih hys]

theorem eq_text_of_char? {f : Form} {c : Char} (h : f.char? = some c) : f = text [c] := by
  unfold char? at h
  split at h
  · rw [Option.some.inj h]
  · cases h

theorem eq_set_of_set? {f : Form} {set : CharSet} (h : f.set? = some set) : f = Form.set set := by
  unfold set? at h
  split at h
  · rw [Option.some.inj h]
  · cases h

/-- A choice of forms matches what one of them does. -/
theorem takes_choose (fuel : Nat) (fs : List Form) (s t : Site) :
    (choose fuel fs).Takes s t ↔ ∃ f ∈ fs, f.Takes s t := by
  induction fuel using Nat.strong_induction_on generalizing fs s t with
  | h fuel ih =>
    have branched : (∃ f ∈ fs.flatMap branches, f.Takes s t) ↔ ∃ f ∈ fs, f.Takes s t := by
      constructor
      · rintro ⟨g, mem, takes⟩
        obtain ⟨f, hf, hg⟩ := List.mem_flatMap.mp mem
        exact ⟨f, hf, (exists_branches_iff f s t).mp ⟨g, hg, takes⟩⟩
      · rintro ⟨f, hf, takes⟩
        obtain ⟨g, hg, takes⟩ := (exists_branches_iff f s t).mpr takes
        exact ⟨g, List.mem_flatMap.mpr ⟨f, hf, hg⟩, takes⟩
    rw [← branched]
    unfold choose
    generalize fs.flatMap branches = gs
    dsimp only
    split
    · simp
    · split
      · next cs single =>
        rw [takes_ofItems, eq_map_of_mapM (fun _ _ => eq_text_of_char?) single]
        simp only [List.mem_map, exists_exists_and_eq_and, takes_char]
      · next sets _ single =>
        rw [takes_ofItems, eq_map_of_mapM (fun _ _ => eq_set_of_set?) single]
        simp only [List.mem_map, exists_exists_and_eq_and]
      · split
        · next fuel n more =>
          have begins (g : Form) (mem : g ∈ gs) := takes_of_lead more.ge mem
          rw [takes_join, follow_append, follow_singleton]
          constructor
          · rintro ⟨u, shared, own⟩
            obtain ⟨_, listed, own⟩ := (ih fuel (Nat.lt_succ_self fuel) _ u t).mp own
            obtain ⟨g, mem, rfl⟩ := List.mem_map.mp listed
            refine ⟨g, mem, ?_⟩
            rw [begins g mem]
            exact ⟨u, shared, own⟩
          · rintro ⟨g, mem, takes⟩
            rw [begins g mem] at takes
            obtain ⟨u, shared, own⟩ := takes
            exact ⟨u, shared,
              (ih fuel (Nat.lt_succ_self fuel) _ u t).mpr ⟨_, List.mem_map_of_mem mem, own⟩⟩
        · exact takes_ofBranches gs s t

end Form

end Polyglot
