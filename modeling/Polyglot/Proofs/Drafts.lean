import Mathlib.Data.List.Nodup
import Polyglot.Pattern.Source
import Polyglot.Proofs.Renumbering
import Polyglot.Proofs.Results

/-!
Drafts inside other drafts. What is read inside a group is drafted as it would be alone, with its
groups counted on from those before it (`Draft.within`). The one thing that can go wrong is a name
that stands both before the group and in it, since names are looked up in the whole draft
(`foldlM_within_error`).
-/

namespace Polyglot

namespace Pattern

/-! ### Levels -/

theorem foldl_max_le_iff {n bound : Nat} {depths : List Nat} :
    depths.foldl max n ≤ bound ↔ n ≤ bound ∧ ∀ d ∈ depths, d ≤ bound := by
  induction depths generalizing n with
  | nil => simp
  | cons d depths ih => rw [List.foldl_cons, ih, Nat.max_le, List.forall_mem_cons, and_assoc]

theorem levelOver_le {depths : List Nat} {bound : Nat} (h : ∀ d ∈ depths, d ≤ bound) :
    levelOver depths ≤ bound + 1 := by
  have deepest := foldl_max_le_iff.mpr ⟨Nat.zero_le bound, h⟩
  simp only [levelOver]
  split <;> omega

theorem levelOver_le_iff {depths : List Nat} {bound : Nat} (full : depths ≠ []) :
    levelOver depths ≤ bound ↔ ∀ d ∈ depths, d + (if 2 ≤ depths.length then 1 else 0) ≤ bound := by
  simp only [levelOver]
  split
  · cases bound with
    | zero =>
      obtain ⟨d, mem⟩ := List.exists_mem_of_ne_nil depths full
      exact ⟨fun h => absurd h (Nat.not_succ_le_zero _),
        fun h => absurd (h d mem) (Nat.not_succ_le_zero _)⟩
    | succ bound =>
      rw [Nat.succ_le_succ_iff, foldl_max_le_iff, and_iff_right (Nat.zero_le _)]
      simp only [Nat.add_le_add_iff_right]
  · rw [foldl_max_le_iff, and_iff_right (Nat.zero_le _)]
    rfl

/-! ### Renumbering -/

def Nested.renumber (k : Nat) (n : Nested) : Nested :=
  ⟨n.form.renumber k, n.depth⟩

def Items.renumber (k : Nat) (items : Items) : Items :=
  items.map (Option.map (Nested.renumber k))

def OpenGroup.renumber (k : Nat) (g : OpenGroup) : OpenGroup :=
  ⟨g.index.map (k + ·), g.branches.map (Nested.renumber k), Items.renumber k g.items⟩

theorem Items.toNested_renumber (k : Nat) (items : Items) :
    (Items.renumber k items).toNested = items.toNested.renumber k := by
  have forms : (Items.renumber k items).reverse.filterMap (fun item => item.map Nested.form) =
      (items.reverse.filterMap fun item => item.map Nested.form).map (Form.renumber k) := by
    rw [Items.renumber, ← List.map_reverse, List.filterMap_map, List.map_filterMap]
    refine List.filterMap_congr fun item _ => ?_
    cases item <;> rfl
  have depths : (Items.renumber k items).map (fun item => item.elim 0 Nested.depth) =
      items.map fun item => item.elim 0 Nested.depth := by
    rw [Items.renumber, List.map_map]
    refine List.map_congr_left fun item _ => ?_
    cases item <;> rfl
  rw [Items.toNested, forms, depths, Form.join_renumber]
  rfl

namespace Draft

/-- The names of the groups, the latest last. -/
def keys (d : Draft) : List (List Char) :=
  d.names.map Prod.fst

/-- A draft that goes on where another one stands. -/
def within (d base : Draft) : Draft where
  outer := d.outer.map (OpenGroup.renumber base.groups) ++ base.outer
  branches := d.branches.map (Nested.renumber base.groups)
  items := Items.renumber base.groups d.items
  groups := base.groups + d.groups
  names := base.names ++ d.names.map fun name => (name.1, base.groups + name.2)

variable {d d' base : Draft}

theorem keys_within : (d.within base).keys = base.keys ++ d.keys := by
  simp [keys, within, Function.comp_def]

theorem isSome_lookup_iff {name : List Char} :
    (d.names.lookup name).isSome = true ↔ name ∈ d.keys := by
  rw [List.lookup_isSome_iff]
  simp [keys]

theorem body_within (d base : Draft) : (d.within base).body = d.body.renumber base.groups := by
  have branches : ((d.within base).items.toNested :: (d.within base).branches).reverse =
      ((d.items.toNested :: d.branches).reverse).map (Nested.renumber base.groups) := by
    rw [List.map_reverse, List.map_cons, ← Items.toNested_renumber]
    rfl
  have sizes (n : Nat) (ns : List Nested) : ns.foldl (fun parts b =>
      parts + (b.renumber base.groups).form.parts.length) n =
        ns.foldl (fun parts b => parts + b.form.parts.length) n := by
    simp only [Nested.renumber, Form.parts_renumber, List.length_map]
  have forms (ns : List Nested) : (ns.map (Nested.renumber base.groups)).map Nested.form =
      (ns.map Nested.form).map (Form.renumber base.groups) := by
    rw [List.map_map, List.map_map]
    rfl
  have depths (ns : List Nested) :
      (ns.map (Nested.renumber base.groups)).map Nested.depth = ns.map Nested.depth := by
    rw [List.map_map]
    rfl
  simp only [body, branches, List.foldl_map, sizes, forms, depths, Form.choose_renumber]
  rfl

/-! ### Steps -/

/-- A step gives at most one new name, and none that is there already. -/
theorem keys_step {t : Token} (h : d.step t = .ok d') :
    d'.keys = d.keys ∨
      ∃ name, t = .capture (some name) ∧ name ∉ d.keys ∧ d'.keys = d.keys ++ [name] := by
  unfold step at h
  split at h
  case h_4 =>
    split at h
    · cases h
      exact .inl rfl
    · cases h
  case h_5 =>
    split at h
    · cases h
      exact .inl rfl
    · next name =>
      split at h
      · cases h
      · next fresh =>
        cases h
        exact .inr ⟨name, rfl, fun mem => fresh (isSome_lookup_iff.mpr mem), by simp [keys]⟩
  case h_7 =>
    split at h
    · cases h
    · cases h
      exact .inl rfl
  all_goals
    cases h
    exact .inl rfl

theorem nodup_keys_foldlM {ts : List Token} (h : ts.foldlM step d = .ok d') (nodup : d.keys.Nodup) :
    d'.keys.Nodup := by
  induction ts generalizing d with
  | nil =>
    cases h
    exact nodup
  | cons t ts ih =>
    rw [List.foldlM_cons] at h
    obtain ⟨e, he, h⟩ := exists_of_bind_ok h
    refine ih h ?_
    rcases keys_step he with same | ⟨name, -, fresh, more⟩
    · rwa [same]
    · rw [more]
      exact nodup.append (List.nodup_singleton name) (List.disjoint_singleton.mpr fresh)

theorem keys_subset_foldlM {ts : List Token} (h : ts.foldlM step d = .ok d') :
    d.keys ⊆ d'.keys := by
  induction ts generalizing d with
  | nil =>
    cases h
    exact List.Subset.refl _
  | cons t ts ih =>
    rw [List.foldlM_cons] at h
    obtain ⟨e, he, h⟩ := exists_of_bind_ok h
    refine List.Subset.trans ?_ (ih h)
    rcases keys_step he with same | ⟨name, -, fresh, more⟩
    · rw [same]
      exact List.Subset.refl _
    · rw [more]
      exact List.subset_append_left _ _

theorem add_within {f : Form} (same : f.renumber base.groups = f) (depth : Nat) :
    (d.within base).add f depth = (d.add f depth).within base := by
  simp only [add, within, Items.renumber, List.map_cons, Option.map_some, Nested.renumber, same]

/-- A step is taken inside another draft as it is alone, unless it brings a name of the other
one. -/
theorem step_within {t : Token} (h : d.step t = .ok d') (fresh : base.keys.Disjoint d'.keys) :
    (d.within base).step t = .ok (d'.within base) := by
  cases t with
  | atom a =>
    cases h
    cases a with
    | set set => exact congrArg Except.ok (add_within (Form.ofSet_renumber set) 0)
    | _ => rfl
  | bracket set depth =>
    cases h
    exact congrArg Except.ok (add_within (Form.ofSet_renumber set) depth)
  | quantity min max greedy =>
    obtain ⟨outer, branches, items, groups, names⟩ := d
    match items, h with
    | some ⟨f, depth⟩ :: items, h =>
      cases h
      simp only [step, within, Items.renumber, List.map_cons, Option.map_some, Nested.renumber,
        Form.times_renumber]
  | capture name =>
    cases name with
    | none =>
      cases h
      rfl
    | some name =>
      simp only [step] at h ⊢
      split at h
      · cases h
      · next absent =>
        cases h
        have notBefore : name ∉ base.keys := fun mem => fresh mem (by simp [keys])
        have notLooked : ¬((d.within base).names.lookup name).isSome = true := by
          rw [isSome_lookup_iff, keys_within, List.mem_append, not_or]
          exact ⟨notBefore, fun mem => absent (isSome_lookup_iff.mpr mem)⟩
        rw [if_neg notLooked]
        simp only [within, enter, List.map_append, List.append_assoc]
        rfl
  | leave =>
    obtain ⟨outer, branches, items, groups, names⟩ := d
    match outer, h with
    | ⟨index, branches', items'⟩ :: outer, h =>
      cases h
      have inner :=
        body_within ⟨⟨index, branches', items'⟩ :: outer, branches, items, groups, names⟩ base
      simp only [step, within, List.map_cons, List.cons_append, OpenGroup.renumber] at inner ⊢
      rw [inner]
      cases index <;> rfl
  | bar =>
    cases h
    simp only [step, within, List.map_cons, Items.toNested_renumber]
    rfl
  | _ =>
    cases h
    rfl

theorem step_within_error {t : Token} (h : d.step t = .ok d') (before : base.keys.Disjoint d.keys)
    (shared : ¬base.keys.Disjoint d'.keys) : (d.within base).step t = .error .duplicateName := by
  rcases keys_step h with same | ⟨name, rfl, -, more⟩
  · exact absurd (same ▸ before) shared
  · rw [more, List.disjoint_append_right, List.disjoint_singleton] at shared
    have known : name ∈ base.keys := by
      by_contra unknown
      exact shared ⟨before, unknown⟩
    have looked : ((d.within base).names.lookup name).isSome = true := by
      rw [isSome_lookup_iff, keys_within]
      exact List.mem_append_left _ known
    simp only [step, looked, if_true]

/-! ### Runs -/

theorem foldlM_within {ts : List Token} (h : ts.foldlM step d = .ok d')
    (fresh : base.keys.Disjoint d'.keys) :
    ts.foldlM step (d.within base) = .ok (d'.within base) := by
  induction ts generalizing d with
  | nil =>
    cases h
    rfl
  | cons t ts ih =>
    rw [List.foldlM_cons] at h ⊢
    obtain ⟨e, he, h⟩ := exists_of_bind_ok h
    have first := List.disjoint_of_subset_right (keys_subset_foldlM h) fresh
    rw [step_within he first]
    exact ih h

theorem foldlM_within_error {ts : List Token} (h : ts.foldlM step d = .ok d')
    (before : base.keys.Disjoint d.keys) (shared : ¬base.keys.Disjoint d'.keys) :
    ts.foldlM step (d.within base) = .error .duplicateName := by
  induction ts generalizing d with
  | nil =>
    cases h
    exact absurd before shared
  | cons t ts ih =>
    rw [List.foldlM_cons] at h ⊢
    obtain ⟨e, he, h⟩ := exists_of_bind_ok h
    by_cases first : base.keys.Disjoint e.keys
    · rw [step_within he first]
      exact ih h first
    · rw [step_within_error he before first]
      rfl

/-! ### Enclosed drafts -/

/-- A draft behind a group that holds another draft. -/
def enclose (base d : Draft) : Draft :=
  { base with
    items := some ⟨d.body.form.renumber base.groups, d.body.depth + 1⟩ :: base.items
    groups := base.groups + d.groups
    names := base.names ++ d.names.map fun name => (name.1, base.groups + name.2) }

theorem keys_enclose : (base.enclose d).keys = base.keys ++ d.keys :=
  keys_within

variable {ts : List Token}

theorem step_plain (changes : FlagChange) :
    base.step (.plain changes) = .ok (within {} (base.enter none)) := by
  simp only [step, within, enter, Items.renumber, List.map_nil, List.nil_append, List.append_nil,
    Nat.add_zero]

theorem step_leave (closed : d.outer = []) :
    (d.within (base.enter none)).step .leave = .ok (base.enclose d) := by
  have outer : (d.within (base.enter none)).outer =
      ⟨none, base.branches, base.items⟩ :: base.outer := by
    simp only [within, closed, enter, List.map_nil, List.nil_append]
  simp only [step, outer, body_within]
  rfl

/-- A text in parentheses is drafted behind what stands before it as it is alone. -/
theorem foldlM_enclosed (h : ts.foldlM step {} = .ok d) (closed : d.outer = [])
    (fresh : base.keys.Disjoint d.keys) (us : List Token) :
    (.plain [] :: ts ++ .leave :: us).foldlM step base = us.foldlM step (base.enclose d) := by
  have inside : ts.foldlM step (within {} (base.enter none)) = _ := foldlM_within h fresh
  rw [List.cons_append, List.foldlM_cons, step_plain]
  change (ts ++ .leave :: us).foldlM step _ = _
  rw [List.foldlM_append, inside]
  change (.leave :: us).foldlM step _ = _
  rw [List.foldlM_cons, step_leave closed]
  rfl

theorem foldlM_enclosed_error (h : ts.foldlM step {} = .ok d)
    (shared : ¬base.keys.Disjoint d.keys) (us : List Token) :
    (.plain [] :: ts ++ .leave :: us).foldlM step base = .error .duplicateName := by
  have inside : ts.foldlM step (within {} (base.enter none)) = _ :=
    foldlM_within_error h (List.disjoint_nil_right _) shared
  rw [List.cons_append, List.foldlM_cons, step_plain]
  change (ts ++ .leave :: us).foldlM step _ = _
  rw [List.foldlM_append, inside]
  rfl

/-- A draft behind a group that remembers what another draft matches. -/
def capture (base d : Draft) : Draft :=
  { base with
    items := some ⟨.group (base.groups + 1) (d.body.form.renumber (base.groups + 1)),
      d.body.depth + 1⟩ :: base.items
    groups := base.groups + 1 + d.groups }

/-- A text in parentheses that remember it is drafted as it is alone, too. -/
theorem foldlM_captured (h : ts.foldlM step {} = .ok d) (closed : d.outer = [])
    (unnamed : d.names = []) :
    (.capture none :: (ts ++ [.leave])).foldlM step base = .ok (base.capture d) := by
  let inside : Draft := { base.enter (some (base.groups + 1)) with groups := base.groups + 1 }
  have opened : base.step (.capture none) = .ok (within {} inside) := by
    simp [step, within, inside, enter, Items.renumber]
  have fresh : inside.keys.Disjoint d.keys := by
    rw [keys, keys, unnamed]
    exact List.disjoint_nil_right _
  have outer : (d.within inside).outer =
      ⟨some (base.groups + 1), base.branches, base.items⟩ :: base.outer := by
    simp only [within, closed, inside, enter, List.map_nil, List.nil_append]
  have names : (d.within inside).names = base.names := by
    simp only [within, unnamed, inside, enter, List.map_nil, List.append_nil]
  rw [List.foldlM_cons, opened]
  change (ts ++ [Token.leave]).foldlM step (within {} inside) = _
  rw [List.foldlM_append, foldlM_within h fresh]
  change [Token.leave].foldlM step (d.within inside) = _
  rw [List.foldlM_cons, step, outer]
  simp only [body_within, names]
  rfl

end Draft

end Pattern

end Polyglot
