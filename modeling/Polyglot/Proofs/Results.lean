import Mathlib.Data.List.Forall2

/-!
Results that may be errors, and lists of them: a list is mapped up to the first error.
-/

namespace Polyglot

variable {α β ε : Type} {f : α → Except ε β}

theorem eq_ok_of_toOption {x : Except ε α} {a : α} (h : x.toOption = some a) : x = .ok a := by
  cases x with
  | error e => cases h
  | ok b => exact congrArg Except.ok (Option.some.inj h)

theorem eq_error_of_match {x : Except ε α} {e : ε}
    (h : (match x with | .error e => some e | .ok _ => none) = some e) : x = .error e := by
  cases x with
  | error e' => exact congrArg Except.error (Option.some.inj h)
  | ok a => cases h

theorem exists_of_bind_ok {x : Except ε α} {b : β}
    (h : x >>= f = .ok b) : ∃ a, x = .ok a ∧ f a = .ok b := by
  cases x with
  | error e => cases h
  | ok a => exact ⟨a, rfl, h⟩

theorem bind_eq_ok {x : Except ε α} {a : α} {b : β} (hx : x = .ok a) (hf : f a = .ok b) :
    x >>= f = .ok b := by
  rw [hx]
  exact hf

theorem exists_of_map_ok {g : α → β} {x : Except ε α} {b : β} (h : x.map g = .ok b) :
    ∃ a, x = .ok a ∧ g a = b := by
  cases x with
  | error e => cases h
  | ok a => exact ⟨a, rfl, Except.ok.inj h⟩

theorem mapM_eq_ok {g : α → β} {xs : List α} (h : ∀ x ∈ xs, f x = .ok (g x)) :
    xs.mapM f = .ok (xs.map g) := by
  induction xs with
  | nil => rfl
  | cons x xs ih =>
    rw [List.mapM_cons, h x List.mem_cons_self, ih fun y hy => h y (List.mem_cons_of_mem _ hy)]
    rfl

theorem exists_mapM_eq_ok {xs : List α} (h : ∀ x ∈ xs, ∃ b, f x = .ok b) :
    ∃ bs, xs.mapM f = .ok bs ∧ bs.length = xs.length := by
  induction xs with
  | nil => exact ⟨[], rfl, rfl⟩
  | cons x xs ih =>
    obtain ⟨b, hb⟩ := h x List.mem_cons_self
    obtain ⟨bs, hbs, length⟩ := ih fun y hy => h y (List.mem_cons_of_mem _ hy)
    refine ⟨b :: bs, ?_, by simp [length]⟩
    rw [List.mapM_cons, hb, hbs]
    rfl

theorem mapM_eq_error {e : ε} {xs : List α} {y : α} (h : ∀ x ∈ xs, ∃ b, f x = .ok b)
    (hy : f y = .error e) (ys : List α) : (xs ++ y :: ys).mapM f = .error e := by
  induction xs with
  | nil =>
    rw [List.nil_append, List.mapM_cons, hy]
    rfl
  | cons x xs ih =>
    obtain ⟨b, hb⟩ := h x List.mem_cons_self
    rw [List.cons_append, List.mapM_cons, hb, ih fun z hz => h z (List.mem_cons_of_mem _ hz)]
    rfl

theorem forall₂_of_mapM {xs : List α} {bs : List β}
    (h : xs.mapM f = .ok bs) : List.Forall₂ (fun x b => f x = .ok b) xs bs := by
  induction xs generalizing bs with
  | nil =>
    cases h
    exact .nil
  | cons x xs ih =>
    rw [List.mapM_cons] at h
    cases hx : f x with
    | error e =>
      rw [hx] at h
      cases h
    | ok b =>
      rw [hx] at h
      cases hxs : xs.mapM f with
      | error e =>
        rw [hxs] at h
        cases h
      | ok bs' =>
        rw [hxs] at h
        cases h
        exact .cons hx (ih hxs)

theorem forall_mem_of_mapM {P : β → Prop} {xs : List α} {bs : List β} (h : xs.mapM f = .ok bs)
    (holds : ∀ x ∈ xs, ∀ b, f x = .ok b → P b) : ∀ b ∈ bs, P b := by
  have pairs := forall₂_of_mapM h
  clear h
  induction pairs with
  | nil => exact List.forall_mem_nil P
  | cons first _ ih =>
    obtain ⟨here, later⟩ := List.forall_mem_cons.mp holds
    exact List.forall_mem_cons.mpr ⟨here _ first, ih later⟩

end Polyglot
