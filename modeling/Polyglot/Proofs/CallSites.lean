import Polyglot.Proofs.CamelCase
import Polyglot.Proofs.Lines

/-!
Renaming calls by one name after another. A call is a receiver, a name, blanks and an opening
parenthesis. It holds no other parenthesis, so a text is cut at its parentheses, and the part before
each of them alone decides whether it opens the arguments of a call, and of which name
(`CallForm.lead_unique`). What a rename does to one part it does to no other.

Later renames leave what earlier ones made: a new name either has an underscore, and then it is no
name in camel case, or the conversion keeps it. So the renames together are one substitution, which
`Substituted` describes (`CallForm.substituted_foldl`, `CallForm.substituted_unique`).
-/

namespace Polyglot

open Text

/-! ### Substitution -/

/-- All sites of a text are replaced at once. A site is a text that is related to what replaces it;
a character at which no site begins stays. -/
inductive Substituted (Site : List Char → List Char → Prop) : List Char → List Char → Prop where
  | nil : Substituted Site [] []
  | site {old new s t : List Char} : Site old new → Substituted Site s t →
      Substituted Site (old ++ s) (new ++ t)
  | copy {c : Char} {s t : List Char} : (∀ old new r, Site old new → c :: s ≠ old ++ r) →
      Substituted Site s t → Substituted Site (c :: s) (c :: t)

namespace Substituted

variable {Site : List Char → List Char → Prop}

theorem copies {p s t : List Char}
    (none : ∀ v, v <:+ p → v ≠ [] → ∀ old new r, Site old new → v ++ s ≠ old ++ r)
    (h : Substituted Site s t) : Substituted Site (p ++ s) (p ++ t) := by
  induction p with
  | nil => exact h
  | cons c p ih =>
    refine .copy (none (c :: p) (List.suffix_refl _) (List.cons_ne_nil _ _)) (ih fun v hv => ?_)
    exact none v (hv.trans (List.suffix_cons _ _))

/-- A text has one substitution only, if at most one site begins at each place and none is empty. -/
theorem unique (full : ∀ old new, Site old new → old ≠ [])
    (alone : ∀ old new r old' new' r', Site old new → Site old' new' → old ++ r = old' ++ r' →
      old = old' ∧ new = new')
    {s t t' : List Char} (h : Substituted Site s t) (h' : Substituted Site s t') : t = t' := by
  induction h generalizing t' with
  | nil =>
    generalize hs : ([] : List Char) = s at h'
    cases h' with
    | nil => rfl
    | site here _ => exact absurd (List.append_eq_nil_iff.mp hs.symm).1 (full _ _ here)
    | copy _ _ => cases hs
  | @site old new s t here _ ih =>
    generalize hs : old ++ s = s' at h'
    cases h' with
    | nil => exact absurd (List.append_eq_nil_iff.mp hs).1 (full _ _ here)
    | site here' h' =>
      obtain ⟨rfl, rfl⟩ := alone _ _ _ _ _ _ here here' hs
      obtain rfl := List.append_cancel_left hs
      rw [ih h']
    | copy none _ => exact absurd hs.symm (none _ _ _ here)
  | @copy c s t none _ ih =>
    generalize hs : c :: s = s' at h'
    cases h' with
    | nil => cases hs
    | site here _ => exact absurd hs (none _ _ _ here)
    | copy _ h' =>
      obtain ⟨rfl, rfl⟩ := List.cons.inj hs
      rw [ih h']

end Substituted

/-! ### Parentheses -/

/-- A text is free of parentheses, or it goes on behind the first of them. -/
theorem paren_induction {P : List Char → Prop} (free : ∀ s, '(' ∉ s → P s)
    (paren : ∀ p r, '(' ∉ p → P r → P (p ++ '(' :: r)) (s : List Char) : P s := by
  generalize hlen : s.length = length
  induction length using Nat.strongRecOn generalizing s with
  | _ length ih =>
    by_cases mem : '(' ∈ s
    · obtain ⟨p, r, rfl, hp⟩ := List.eq_append_cons_of_mem mem
      refine paren p r hp (ih r.length ?_ r rfl)
      rw [← hlen, List.length_append, List.length_cons]
      omega
    · exact free s mem

/-- Of two parts that end at parentheses, the one ends where the other does or lies behind it. -/
theorem paren_cases {p x u l r : List Char} (hp : '(' ∉ p) (hl : '(' ∉ l)
    (same : p ++ '(' :: x = u ++ (l ++ '(' :: r)) : p = u ++ l ∨ ∃ v, x = v ++ (l ++ '(' :: r) := by
  by_cases mem : '(' ∈ u
  · right
    obtain ⟨u, v, rfl, hu⟩ := List.eq_append_cons_of_mem mem
    rw [List.append_assoc, List.cons_append] at same
    exact ⟨v, (split_unique hp hu same).2⟩
  · left
    rw [← List.append_assoc] at same
    refine (split_unique hp ?_ same).1
    intro both
    rcases List.mem_append.mp both with front | back
    · exact mem front
    · exact hl back

/-! ### Calls -/

/-- How calls are written, and how many blanks a renamed call has before its parenthesis. -/
structure CallForm where
  receiver : List Char
  /-- The blanks behind the new name, given those behind the old. -/
  spacing : List Char → List Char
  open_ : '(' ∉ receiver
  closed : receiver.getLast?.any isAsciiWord = false
  full : receiver ≠ []
  isGap_spacing : ∀ gap, IsGap gap → IsGap (spacing gap)
  spacing_spacing : ∀ gap, spacing (spacing gap) = spacing gap

namespace CallForm

variable (form : CallForm)

/-- What precedes the parenthesis of a call. -/
def lead (name gap : List Char) : List Char :=
  form.receiver ++ (name ++ gap)

/-- A call of a listed name becomes a call of the converted name. -/
def Renames (names : List String) (old new : List Char) : Prop :=
  ∃ m ∈ names, ∃ gap, IsGap gap ∧ old = form.lead m.toList gap ++ ['('] ∧
    new = form.lead (Name.underscoredChars m.toList) (form.spacing gap) ++ ['(']

end CallForm

theorem isAsciiName_of_isCamel {w : List Char} (h : Name.isCamel w = true) : IsAsciiName w :=
  ⟨Name.ne_nil_of_isCamel h, fun _ hc => Name.isAsciiWord_of_isCamel h hc⟩

theorem isAsciiName_underscoredChars {w : List Char} (h : IsAsciiName w) :
    IsAsciiName (Name.underscoredChars w) :=
  ⟨Name.underscoredChars_ne_nil h.word h.full, Name.isAsciiWord_of_mem_underscoredChars h.word⟩

theorem solid_of_isAsciiWord {c : Char} (h : isAsciiWord c = true) : isBlank c = false ∧ c ≠ '(' :=
  forall_isAsciiWord (P := fun c => isBlank c = false ∧ c ≠ '(') (by decide) h

namespace CallForm

variable {form : CallForm}

theorem not_mem_lead {w gap : List Char} (hw : IsAsciiName w) (hgap : IsGap gap) :
    '(' ∉ form.lead w gap := by
  intro mem
  rcases List.mem_append.mp mem with front | mem
  · exact form.open_ front
  · rcases List.mem_append.mp mem with name | blank
    · exact (solid_of_isAsciiWord (hw.word _ name)).2 rfl
    · exact hgap.ne (c := '(') (by decide) blank

theorem not_mem_append_lead {u w gap : List Char} (hu : '(' ∉ u) (hw : IsAsciiName w)
    (hgap : IsGap gap) : '(' ∉ u ++ form.lead w gap := by
  intro mem
  rcases List.mem_append.mp mem with front | call
  · exact hu front
  · exact not_mem_lead hw hgap call

/-- Where a call ends its name can be read. -/
theorem lead_unique {u u' w w' gap gap' : List Char} (hw : IsAsciiName w) (hw' : IsAsciiName w')
    (hgap : IsGap gap) (hgap' : IsGap gap')
    (same : u ++ form.lead w gap = u' ++ form.lead w' gap') : u = u' ∧ w = w' ∧ gap = gap' := by
  have word {x y : List Char} (hy : IsAsciiName y) : (x ++ y).getLast?.any isBlank = false := by
    rw [List.getLast?_append_of_ne_nil _ hy.full,
      List.getLast?_eq_some_getLast hy.full, Option.any_some]
    exact (solid_of_isAsciiWord (hy.word _ (List.getLast_mem _))).1
  have front (x : List Char) : (x ++ form.receiver).getLast?.any isAsciiWord = false := by
    rw [List.getLast?_append_of_ne_nil _ form.full]
    exact form.closed
  simp only [lead, ← List.append_assoc] at same
  obtain ⟨sameName, rfl⟩ := run_unique_right hgap hgap' (word hw) (word hw') same
  obtain ⟨sameFront, rfl⟩ := run_unique_right hw.word hw'.word (front u) (front u') sameName
  exact ⟨List.append_cancel_right sameFront, rfl, rfl⟩

/-- Two calls of which neither begins behind a parenthesis are one, if a text goes on with both. -/
theorem call_unique {v w w' gap gap' r r' : List Char} (hv : '(' ∉ v) (hw : IsAsciiName w)
    (hw' : IsAsciiName w') (hgap : IsGap gap) (hgap' : IsGap gap')
    (same : v ++ (form.lead w gap ++ '(' :: r) = form.lead w' gap' ++ '(' :: r') :
    v = [] ∧ w = w' ∧ gap = gap' := by
  rw [← List.append_assoc] at same
  obtain ⟨whole, -⟩ := split_unique (not_mem_append_lead hv hw hgap) (not_mem_lead hw' hgap') same
  rw [← List.nil_append (form.lead w' gap')] at whole
  exact lead_unique hw hw' hgap hgap' whole

/-! ### One rename -/

/-- What the rename of one name does before each parenthesis. -/
structure IsStep (form : CallForm) (name : List Char) (step : List Char → List Char) : Prop where
  free : ∀ s, '(' ∉ s → step s = s
  call : ∀ u gap r, '(' ∉ u → IsGap gap → step (u ++ (form.lead name gap ++ '(' :: r)) =
    u ++ (form.lead (Name.underscoredChars name) (form.spacing gap) ++ '(' :: step r)
  other : ∀ p r, '(' ∉ p → (∀ u gap, IsGap gap → p ≠ u ++ form.lead name gap) →
    step (p ++ '(' :: r) = p ++ '(' :: step r

/-- A pattern for the calls of one name, and what is put for them. -/
structure Matches (form : CallForm) (name : List Char) (p : Pattern) (f : Match → List Char) :
    Prop where
  tame : p.isTame = true
  blind : p.looks = false
  solid : p.nullable = false
  sound : ∀ s m, p.matchAt none s = some m →
    ∃ gap r, IsGap gap ∧ s = form.lead name gap ++ '(' :: r
  complete : ∀ gap r, IsGap gap → ∃ m, p.matchAt none (form.lead name gap ++ '(' :: r) = some m ∧
    m.text = form.lead name gap ++ ['('] ∧
    f m = form.lead (Name.underscoredChars name) (form.spacing gap) ++ ['(']

section Matches

variable {name : List Char} {p : Pattern} {f : Match → List Char}

theorem Matches.isStep (h : form.Matches name p f) (hname : IsAsciiName name) :
    form.IsStep name (p.replaceAll f) := by
  have quiet {s : List Char} (hs : '(' ∉ s) : p.matchAt none s = none := by
    cases found : p.matchAt none s with
    | none => rfl
    | some m =>
      obtain ⟨gap, r, -, rfl⟩ := h.sound _ _ found
      exact absurd (List.mem_append_right _ List.mem_cons_self) hs
  refine ⟨fun s hs => ?_, fun u gap r hu hgap => ?_, fun q r hq other => ?_⟩
  · have copied := Pattern.replaceAll_copy (f := f) (s := []) (w := s) h.tame h.blind
      fun v hv _ => by
        rw [List.append_nil]
        exact quiet fun mem => hs (hv.subset mem)
    rwa [Pattern.replaceAll_nil h.solid, List.append_nil] at copied
  · obtain ⟨m, found, text, put⟩ := h.complete gap r hgap
    have here : m.text ++ r = form.lead name gap ++ '(' :: r := by rw [text, List.append_assoc]; rfl
    rw [Pattern.replaceAll_copy h.tame h.blind, ← here,
      Pattern.replaceAll_hit h.tame h.blind h.solid, put, List.append_assoc]
    · rfl
    · rw [here]
      exact found
    · -- A call that begins earlier would end at the same parenthesis.
      intro v hv full
      cases early : p.matchAt none (v ++ (form.lead name gap ++ '(' :: r)) with
      | none => rfl
      | some m =>
        obtain ⟨gap', r', hgap', same⟩ := h.sound _ _ early
        have freeFront : '(' ∉ v := fun mem => hu (hv.subset mem)
        exact absurd (call_unique freeFront hname hname hgap hgap' same).1 full
  · have copied := Pattern.replaceAll_copy (f := f) (s := r) (w := q ++ ['(']) h.tame h.blind
    simp only [List.append_assoc, List.singleton_append] at copied
    refine copied fun v hv full => ?_
    obtain ⟨v, rfl, a, rfl⟩ := (List.suffix_concat_iff.mp hv).resolve_left full
    rw [List.append_assoc, List.singleton_append]
    cases found : p.matchAt none (v ++ '(' :: r) with
    | none => rfl
    | some m =>
      obtain ⟨gap, r', hgap, same⟩ := h.sound _ _ found
      have freeRest : '(' ∉ v := fun mem => hq (List.mem_append_right _ mem)
      obtain ⟨rfl, -⟩ := split_unique freeRest (not_mem_lead hname hgap) same
      exact absurd rfl (other a gap hgap)

end Matches

/-! ### All renames -/

/-- The renames of the listed names, one after another. -/
def renameAll (step : String → List Char → List Char) (names : List String) (s : List Char) :
    List Char :=
  names.foldl (fun s m => step m s) s

section Run

variable {names : List String} {step : String → List Char → List Char}

theorem renameAll_free (steps : ∀ m ∈ names, form.IsStep m.toList (step m))
    {s : List Char} (hs : '(' ∉ s) : renameAll step names s = s := by
  induction names with
  | nil => rfl
  | cons m names ih =>
    have rest := ih fun m' hm' => steps m' (List.mem_cons_of_mem _ hm')
    rw [renameAll, List.foldl_cons, (steps m List.mem_cons_self).free s hs]
    exact rest

theorem renameAll_other (steps : ∀ m ∈ names, form.IsStep m.toList (step m))
    {p : List Char} (hp : '(' ∉ p)
    (other : ∀ m ∈ names, ∀ u gap, IsGap gap → p ≠ u ++ form.lead m.toList gap) (r : List Char) :
    renameAll step names (p ++ '(' :: r) = p ++ '(' :: renameAll step names r := by
  induction names generalizing r with
  | nil => rfl
  | cons m names ih =>
    have rest := ih (fun m' hm' => steps m' (List.mem_cons_of_mem _ hm'))
      fun m' hm' => other m' (List.mem_cons_of_mem _ hm')
    rw [renameAll, List.foldl_cons,
      (steps m List.mem_cons_self).other p r hp (other m List.mem_cons_self)]
    exact rest _

variable (camel : ∀ m ∈ names, Name.isCamel m.toList = true)

/-- The conversion keeps a name that is both converted and listed. -/
theorem underscoredChars_of_listed {names : List String}
    (camel : ∀ m ∈ names, Name.isCamel m.toList = true) {m m' : String}
    (hm : Name.isCamel m.toList = true) (hm' : m' ∈ names)
    (same : m'.toList = Name.underscoredChars m.toList) :
    Name.underscoredChars m'.toList = m'.toList := by
  have plain : '_' ∉ Name.underscoredChars m.toList := same ▸ Name.not_mem_of_isCamel (camel m' hm')
  rw [same, Name.underscoredChars_fixed hm plain]

variable (steps : ∀ m ∈ names, form.IsStep m.toList (step m))
include camel steps

/-- A call of a listed name is renamed once. If the new name is listed as well, a later rename finds
the call again and leaves it. -/
theorem renameAll_call {m : String} (hm : m ∈ names) {u gap : List Char} (hu : '(' ∉ u)
    (hgap : IsGap gap) (r : List Char) :
    renameAll step names (u ++ (form.lead m.toList gap ++ '(' :: r)) =
      u ++ (form.lead (Name.underscoredChars m.toList) (form.spacing gap) ++ '(' ::
        renameAll step names r) := by
  induction names generalizing m gap r with
  | nil => cases hm
  | cons first names ih =>
    have camelRest : ∀ m ∈ names, Name.isCamel m.toList = true := fun m hm =>
      camel m (List.mem_cons_of_mem _ hm)
    have stepsRest : ∀ m ∈ names, form.IsStep m.toList (step m) := fun m hm =>
      steps m (List.mem_cons_of_mem _ hm)
    have callee := isAsciiName_of_isCamel (camel m hm)
    have firstStep := steps first List.mem_cons_self
    have unfolded (s : List Char) :
        renameAll step (first :: names) s = renameAll step names (step first s) := rfl
    rw [unfolded, unfolded]
    by_cases here : m = first
    · subst here
      rw [firstStep.call u gap r hu hgap]
      by_cases again : ∃ m' ∈ names, m'.toList = Name.underscoredChars m.toList
      · obtain ⟨m', hm', same⟩ := again
        have kept := underscoredChars_of_listed camelRest (camel m hm) hm' same
        rw [← same, ih camelRest stepsRest hm' (form.isGap_spacing gap hgap), kept,
          form.spacing_spacing]
      · rw [← List.append_assoc, renameAll_other stepsRest, List.append_assoc]
        · exact not_mem_append_lead hu (isAsciiName_underscoredChars callee)
            (form.isGap_spacing gap hgap)
        · intro m' hm' u' gap' hgap' same
          have callee' := isAsciiName_of_isCamel (camelRest m' hm')
          exact again ⟨m', hm',
            (lead_unique (isAsciiName_underscoredChars callee) callee' (form.isGap_spacing gap hgap)
              hgap' same).2.1.symm⟩
    · rw [← List.append_assoc, firstStep.other, List.append_assoc,
        ih camelRest stepsRest ((List.mem_cons.mp hm).resolve_left here) hgap]
      · exact not_mem_append_lead hu callee hgap
      · intro u' gap' hgap' same
        have callee' := isAsciiName_of_isCamel (camel first List.mem_cons_self)
        exact here (String.toList_inj.mp (lead_unique callee callee' hgap hgap' same).2.1)

/-- What the renames do up to the next parenthesis: they rename the call that ends there, or they
change nothing. -/
theorem renameAll_paren {p : List Char} (hp : '(' ∉ p) :
    (∃ m ∈ names, ∃ u gap, IsGap gap ∧ p = u ++ form.lead m.toList gap ∧
      ∀ r, renameAll step names (p ++ '(' :: r) =
        u ++ (form.lead (Name.underscoredChars m.toList) (form.spacing gap) ++ '(' ::
          renameAll step names r)) ∨
    ((∀ m ∈ names, ∀ u gap, IsGap gap → p ≠ u ++ form.lead m.toList gap) ∧
      ∀ r, renameAll step names (p ++ '(' :: r) = p ++ '(' :: renameAll step names r) := by
  by_cases call : ∃ m ∈ names, ∃ u gap, IsGap gap ∧ p = u ++ form.lead m.toList gap
  · left
    obtain ⟨m, hm, u, gap, hgap, rfl⟩ := call
    refine ⟨m, hm, u, gap, hgap, rfl, fun r => ?_⟩
    rw [List.append_assoc]
    exact renameAll_call camel steps hm (fun mem => hp (List.mem_append_left _ mem)) hgap r
  · right
    have other : ∀ m ∈ names, ∀ u gap, IsGap gap → p ≠ u ++ form.lead m.toList gap :=
      fun m hm u gap hgap same => call ⟨m, hm, u, gap, hgap, same⟩
    exact ⟨other, renameAll_other steps hp other⟩

/-- The renames one after another are one substitution. -/
theorem substituted_renameAll (s : List Char) :
    Substituted (form.Renames names) s (renameAll step names s) := by
  have callee {m : String} (hm : m ∈ names) : IsAsciiName m.toList :=
    isAsciiName_of_isCamel (camel m hm)
  induction s using paren_induction with
  | free s hs =>
    rw [renameAll_free steps hs]
    have copied : Substituted (form.Renames names) (s ++ []) (s ++ []) := by
      refine .copies ?_ .nil
      rintro v hv - old new r ⟨m, -, gap, -, rfl, -⟩ same
      have mem : '(' ∈ v ++ [] := same ▸ by simp
      rw [List.append_nil] at mem
      exact hs (hv.subset mem)
    rwa [List.append_nil] at copied
  | paren p r hp ih =>
    rcases renameAll_paren camel steps hp with ⟨m, hm, u, gap, hgap, rfl, renamed⟩ | ⟨other, kept⟩
    · rw [renamed, List.append_assoc]
      refine .copies ?_ ?_
      · -- No call begins in front of the call that ends at the same parenthesis.
        rintro v hv full old new r' ⟨m', hm', gap', hgap', rfl, -⟩ same
        have free : '(' ∉ v := fun mem => hp (List.mem_append_left _ (hv.subset mem))
        rw [List.append_assoc] at same
        exact full (call_unique free (callee hm) (callee hm') hgap hgap' same).1
      · have site : form.Renames names (form.lead m.toList gap ++ ['('])
            (form.lead (Name.underscoredChars m.toList) (form.spacing gap) ++ ['(']) :=
          ⟨m, hm, gap, hgap, rfl, rfl⟩
        simpa only [List.append_assoc, List.singleton_append] using Substituted.site site ih
    · have copied : Substituted (form.Renames names) (p ++ ['('] ++ r)
          (p ++ ['('] ++ renameAll step names r) := by
        refine .copies ?_ ih
        rintro v hv full old new r' ⟨m, hm, gap, hgap, rfl, -⟩ same
        obtain ⟨v, rfl, a, rfl⟩ := (List.suffix_concat_iff.mp hv).resolve_left full
        simp only [List.append_assoc, List.singleton_append] at same
        have free : '(' ∉ v := fun mem => hp (List.mem_append_right _ mem)
        obtain ⟨rfl, -⟩ := split_unique free (not_mem_lead (callee hm) hgap) same
        exact other m hm a gap hgap rfl
      rw [kept]
      simpa only [List.append_assoc, List.singleton_append] using copied

omit steps in
theorem substituted_unique {s t t' : List Char} (h : Substituted (form.Renames names) s t)
    (h' : Substituted (form.Renames names) s t') : t = t' := by
  refine Substituted.unique ?_ ?_ h h'
  · rintro old new ⟨m, hm, gap, hgap, rfl, rfl⟩
    exact List.append_ne_nil_of_right_ne_nil _ (List.cons_ne_nil _ _)
  · rintro old new r old' new' r' ⟨m, hm, gap, hgap, rfl, rfl⟩ ⟨m', hm', gap', hgap', rfl, rfl⟩ same
    simp only [List.append_assoc, List.singleton_append] at same
    obtain ⟨-, sameName, rfl⟩ :=
      call_unique (v := []) List.not_mem_nil (isAsciiName_of_isCamel (camel m hm))
      (isAsciiName_of_isCamel (camel m' hm')) hgap hgap' same
    rw [sameName]
    exact ⟨rfl, rfl⟩

theorem substituted_iff {s t : List Char} :
    Substituted (form.Renames names) s t ↔ t = renameAll step names s := by
  constructor
  · intro h
    exact substituted_unique camel h (substituted_renameAll camel steps s)
  · rintro rfl
    exact substituted_renameAll camel steps s

/-- The order of the names and how often each of them is listed do not matter. -/
theorem renameAll_congr {names' : List String} (same : ∀ m, m ∈ names' ↔ m ∈ names)
    (s : List Char) : renameAll step names' s = renameAll step names s := by
  have camel' : ∀ m ∈ names', Name.isCamel m.toList = true := fun m hm => camel m ((same m).mp hm)
  have steps' : ∀ m ∈ names', form.IsStep m.toList (step m) := fun m hm => steps m ((same m).mp hm)
  have sites : form.Renames names' = form.Renames names := by
    funext old new
    simp only [Renames, same]
  have whole := substituted_renameAll camel' steps' s
  rw [sites] at whole
  exact (substituted_iff camel steps).mp whole

/-- A call is renamed wherever it stands, and apart from what precedes it and what follows. -/
theorem renameAll_append_call {m : String} (hm : m ∈ names) {gap : List Char} (hgap : IsGap gap)
    (u r : List Char) : renameAll step names (u ++ (form.lead m.toList gap ++ '(' :: r)) =
      renameAll step names u ++
        (form.lead (Name.underscoredChars m.toList) (form.spacing gap) ++ '(' ::
          renameAll step names r) := by
  induction u using paren_induction with
  | free u hu => rw [renameAll_call camel steps hm hu hgap, renameAll_free steps hu]
  | paren p u hp ih =>
    rcases renameAll_paren camel steps hp with ⟨_, _, _, _, _, _, renamed⟩ | ⟨_, renamed⟩
    all_goals
      rw [List.append_assoc, List.cons_append, renamed, renamed, ih]
      simp only [List.append_assoc, List.cons_append]

/-- No call of a name that the conversion changes is left. -/
theorem renameAll_ne_call {m : String} (hm : m ∈ names)
    (changed : Name.underscoredChars m.toList ≠ m.toList) {gap : List Char} (hgap : IsGap gap)
    (s u r : List Char) :
    renameAll step names s ≠ u ++ (form.lead m.toList gap ++ '(' :: r) := by
  have callee := isAsciiName_of_isCamel (camel m hm)
  induction s using paren_induction generalizing u with
  | free s hs =>
    rw [renameAll_free steps hs]
    rintro rfl
    exact hs (by simp)
  | paren p s hp ih =>
    rcases renameAll_paren camel steps hp with
      ⟨m', hm', u', gap', hgap', rfl, renamed⟩ | ⟨other, kept⟩
    · have callee' := isAsciiName_of_isCamel (camel m' hm')
      rw [renamed, ← List.append_assoc]
      intro same
      have free : '(' ∉ u' := fun mem => hp (List.mem_append_left _ mem)
      rcases paren_cases (not_mem_append_lead free (isAsciiName_underscoredChars callee')
        (form.isGap_spacing gap' hgap')) (not_mem_lead callee hgap) same with here | ⟨v, later⟩
      · obtain ⟨-, sameName, -⟩ := lead_unique (isAsciiName_underscoredChars callee') callee
          (form.isGap_spacing gap' hgap') hgap here
        exact changed (underscoredChars_of_listed camel (camel m' hm') hm sameName.symm)
      · exact ih v later
    · rw [kept]
      intro same
      rcases paren_cases hp (not_mem_lead callee hgap) same with here | ⟨v, later⟩
      · exact other m hm u gap hgap here
      · exact ih v later

end Run

end CallForm

end Polyglot
