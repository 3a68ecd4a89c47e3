import Polyglot.Proofs.Forms

/-!
Groups under other numbers. A form whose groups are all counted up by the same number matches what
it did (`takes_renumber`), and forms are put together in the same way under any numbers: joined
(`join_renumber`), chosen from (`choose_renumber`) or repeated (`times_renumber`).
-/

namespace Polyglot

namespace Form

/-- The form with its groups counted from another number on. -/
def renumber (k : Nat) : Form → Form
  | seq first rest => seq (first.renumber k) (rest.renumber k)
  | alt preferred others => alt (preferred.renumber k) (others.renumber k)
  | rep min max greedy body => rep min max greedy (body.renumber k)
  | group index body => group (k + index) (body.renumber k)
  | f => f

variable {k : Nat}

theorem takes_renumber (f : Form) : (f.renumber k).Takes = f.Takes := by
  induction f with
  | seq first rest ih ih' => rw [renumber, takes_seq, takes_seq, ih, ih']
  | alt preferred others ih ih' =>
    funext s t
    rw [renumber, takes_alt, takes_alt, ih, ih']
  | rep min max greedy body ih => exact takes_rep_congr ih min max greedy
  | group index body ih => exact ih
  | _ => rfl

/-! ### Sequences -/

theorem parts_renumber (f : Form) : (f.renumber k).parts = f.parts.map (renumber k) := by
  induction f with
  | seq first rest _ ih => rw [renumber, parts, parts, ih, List.map_cons]
  | _ => rfl

theorem ofParts_renumber (fs : List Form) :
    ofParts (fs.map (renumber k)) = (ofParts fs).renumber k := by
  induction fs with
  | nil => rfl
  | cons f fs ih =>
    cases fs with
    | nil => rfl
    | cons g fs => exact congrArg (seq (f.renumber k)) ih

theorem glue_renumber (f : Form) (fs : List Form) :
    glue (f.renumber k) (fs.map (renumber k)) = (glue f fs).map (renumber k) := by
  cases f with
  | text v =>
    cases fs with
    | nil => rfl
    | cons g fs => cases g <;> rfl
  | _ => rfl

theorem join_renumber (fs : List Form) : join (fs.map (renumber k)) = (join fs).renumber k := by
  have glued (gs : List Form) :
      (gs.map (renumber k)).foldr glue [] = (gs.foldr glue []).map (renumber k) := by
    induction gs with
    | nil => rfl
    | cons g gs ih => rw [List.map_cons, List.foldr_cons, ih, glue_renumber, List.foldr_cons]
  have parted : (fs.map (renumber k)).flatMap parts = (fs.flatMap parts).map (renumber k) := by
    rw [List.flatMap_map, List.map_flatMap]
    exact List.flatMap_congr fun f _ => parts_renumber f
  rw [join, join, parted, glued, ofParts_renumber]

/-! ### Alternatives -/

theorem branches_renumber (f : Form) : (f.renumber k).branches = f.branches.map (renumber k) := by
  induction f with
  | alt preferred others _ ih => rw [renumber, branches, branches, ih, List.map_cons]
  | _ => rfl

theorem ofBranches_renumber (fs : List Form) :
    ofBranches (fs.map (renumber k)) = (ofBranches fs).renumber k := by
  induction fs with
  | nil => rfl
  | cons f fs ih =>
    cases fs with
    | nil => rfl
    | cons g fs => exact congrArg (alt (f.renumber k)) ih

theorem ofSet_renumber (set : CharSet) : (ofSet set).renumber k = ofSet set := by
  unfold ofSet
  split <;> rfl

theorem same_renumber (f g : Form) : (f.renumber k).same (g.renumber k) = f.same g := by
  induction f generalizing g with
  | seq a b iha ihb => cases g <;> simp [renumber, same, iha, ihb]
  | alt a b iha ihb => cases g <;> simp [renumber, same, iha, ihb]
  | rep m n greedy a ih => cases g <;> simp [renumber, same, ih]
  | group i a ih =>
    cases g with
    | group j b =>
      have index : (k + i == k + j) = (i == j) := by
        rw [Bool.eq_iff_iff, beq_iff_eq, beq_iff_eq, Nat.add_left_cancel_iff]
      rw [renumber, renumber, same, same, ih, index]
    | _ => rfl
  | _ => cases g <;> simp [renumber, same]

theorem common_renumber (fs gs : List Form) :
    common (fs.map (renumber k)) (gs.map (renumber k)) = common fs gs := by
  fun_induction common fs gs with
  | case1 f fs g gs same ih => simp [common, same_renumber, same, ih]
  | case2 f fs g gs other => simp [common, same_renumber, other]
  | case3 fs gs other =>
    cases fs with
    | nil => rfl
    | cons f fs =>
      cases gs with
      | nil => rfl
      | cons g gs => exact absurd rfl (other f fs g gs rfl)

theorem lead_renumber (fs : List Form) : lead (fs.map (renumber k)) = lead fs := by
  have isSeq (f : Form) : lead.isSeq (f.renumber k) = lead.isSeq f := by cases f <;> rfl
  cases fs with
  | nil => rfl
  | cons f fs =>
    have all : ((f :: fs).map (renumber k)).all lead.isSeq = (f :: fs).all lead.isSeq := by
      rw [List.all_map]
      exact congrArg _ (funext isSeq)
    simp only [List.map_cons] at all
    simp only [List.map_cons, lead, all, parts_renumber, List.length_map,
      List.foldl_map, common_renumber]

theorem char?_renumber (f : Form) : (f.renumber k).char? = f.char? := by
  cases f <;> rfl

theorem set?_renumber (f : Form) : (f.renumber k).set? = f.set? := by
  cases f <;> rfl

theorem choose_renumber (fuel : Nat) (fs : List Form) :
    choose fuel (fs.map (renumber k)) = (choose fuel fs).renumber k := by
  induction fuel using Nat.strong_induction_on generalizing fs with
  | h fuel ih =>
    have branched :
        (fs.map (renumber k)).flatMap branches = (fs.flatMap branches).map (renumber k) := by
      rw [List.flatMap_map, List.map_flatMap]
      exact List.flatMap_congr fun f _ => branches_renumber f
    have mapM {α : Type} {read : Form → Option α} (h : ∀ f,
      read (f.renumber k) = read f) (gs : List Form) :
        (gs.map (renumber k)).mapM read = gs.mapM read := by
      rw [List.mapM_map]
      exact congrArg (gs.mapM ·) (funext h)
    unfold choose
    rw [branched]
    generalize fs.flatMap branches = gs
    dsimp only
    rw [mapM char?_renumber, mapM set?_renumber, lead_renumber]
    split
    · next single =>
      obtain ⟨g, rfl, rfl⟩ := List.map_eq_singleton_iff.mp single
      rfl
    · next several =>
      symm
      split
      · next g => exact absurd rfl (several (g.renumber k))
      · split
        · exact ofSet_renumber _
        · exact ofSet_renumber _
        · split
          · next fuel n _ =>
            have shared : (gs.map (renumber k)).head?.elim [] parts =
                (gs.head?.elim [] parts).map (renumber k) := by
              cases gs with
              | nil => rfl
              | cons g gs => exact parts_renumber g
            have rests : (gs.map (renumber k)).map (fun f => ofParts (f.parts.drop (n + 1))) =
                (gs.map fun f => ofParts (f.parts.drop (n + 1))).map (renumber k) := by
              rw [List.map_map, List.map_map]
              refine List.map_congr_left fun g _ => ?_
              simp only [Function.comp_apply, parts_renumber, ← List.map_drop, ofParts_renumber]
            rw [shared, rests, ih fuel (Nat.lt_succ_self fuel), ← join_renumber,
              List.map_append, List.map_take, List.map_cons, List.map_nil]
          · exact (ofBranches_renumber gs).symm

/-! ### Repetitions -/

theorem isVoid_renumber (f : Form) : (f.renumber k).isVoid = f.isVoid := by
  induction f with
  | seq a b iha ihb => rw [renumber, isVoid, isVoid, iha, ihb]
  | alt a b iha ihb => rw [renumber, isVoid, isVoid, iha, ihb]
  | rep min max greedy body ih => rw [renumber, isVoid, isVoid, ih]
  | group index body ih => exact ih
  | _ => rfl

theorem times_renumber (min : Nat) (max : Option Nat) (greedy : Bool) (f : Form) :
    (f.renumber k).times min max greedy = (f.times min max greedy).renumber k := by
  unfold times
  rw [isVoid_renumber]
  dsimp only
  split <;> rfl

end Form

end Polyglot
