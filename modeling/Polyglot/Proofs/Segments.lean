import Polyglot.Proofs.Abort
import Polyglot.Proofs.RenamedCalls
import Polyglot.Proofs.Sigils

/-!
The methods of a class in its file. The calls of own methods are renamed in the text of all methods
at once, and the renaming could reach from one method into the next. It does not: a call stands on
one line up to the end of its name, and between the name and the parenthesis there are only blanks.
So a line end that follows neither a name nor a blank is passed by no call, and neither is one whose
next visible character is no parenthesis (`CallForm.IsStep.append_line`). The file of a class is
therefore made of segments, one for each method, that depend on the method and on the names of all
methods only.
-/

namespace Polyglot

open Text

/-! ### Line ends that no call passes -/

/-- The text ends in a character that is neither blank nor of a name. -/
def IsSealed (s : List Char) : Prop :=
  s.getLast?.any (fun c => isBlank c || isAsciiWord c) = false

/-- The first visible character is there, and it is no opening parenthesis. -/
def IsFirm (s : List Char) : Prop :=
  ∃ gap c r, s = gap ++ c :: r ∧ IsGap gap ∧ isBlank c = false ∧ c ≠ '('

theorem not_isGap_of_isFirm {p r : List Char} (h : IsFirm (p ++ '(' :: r)) : ¬IsGap p := by
  obtain ⟨gap, c, r', same, hgap, visible, other⟩ := h
  intro blank
  obtain ⟨-, rest⟩ := run_unique (p := isBlank) blank hgap (by rfl) (by simpa using visible) same
  exact other (List.cons.inj rest).1.symm

theorem isFirm_append {u r : List Char} (visible : ¬IsGap u) (free : '(' ∉ u) :
    IsFirm (u ++ r) := by
  obtain ⟨gap, c, v, rfl, hgap, hc⟩ := exists_first_of_not_isGap visible
  refine ⟨gap, c, v ++ r, by rw [List.append_assoc, List.cons_append], hgap, hc, ?_⟩
  rintro rfl
  exact free (List.mem_append_right _ List.mem_cons_self)

theorem exists_of_append_sep {sep : Char} {a q u w : List Char} (free : sep ∉ w)
    (same : a ++ sep :: q = u ++ w) : ∃ v, q = v ++ w := by
  rcases List.append_eq_append_iff.mp same with ⟨v, -, hv⟩ | ⟨v, -, hv⟩
  · cases v with
    | nil =>
      rw [List.nil_append] at hv
      exact absurd (hv ▸ List.mem_cons_self) free
    | cons d v => exact ⟨v, (List.cons.inj hv).2⟩
  · exact absurd (hv ▸ List.mem_append_right _ List.mem_cons_self) free

namespace CallForm

variable {form : CallForm} {name : List Char}

theorem getLast?_lead (hname : IsAsciiName name) (u : List Char) :
    ∃ c, (u ++ (form.receiver ++ name)).getLast? = some c ∧ isAsciiWord c = true := by
  refine ⟨name.getLast hname.full, ?_, hname.word _ (List.getLast_mem _)⟩
  rw [← List.append_assoc, List.getLast?_append_of_ne_nil _ hname.full,
    List.getLast?_eq_some_getLast hname.full]

/-- A call that ends behind a line end begins behind it, if the line end cannot be passed. -/
theorem exists_lead_of_append_line (solid : ∀ c ∈ form.receiver, isBlank c = false)
    (hname : IsAsciiName name) {a p u gap : List Char} (hgap : IsGap gap)
    (parted : IsSealed a ∨ ¬IsGap p)
    (same : a ++ '\n' :: p = u ++ form.lead name gap) : ∃ v, p = v ++ form.lead name gap := by
  obtain ⟨d, last, word⟩ := getLast?_lead hname u
  have visible : (u ++ (form.receiver ++ name)).getLast?.any isBlank = false := by
    rw [last, Option.any_some]
    exact (solid_of_isAsciiWord word).1
  rw [lead, ← List.append_assoc form.receiver, ← List.append_assoc u] at same
  by_cases blank : IsGap p
  · -- The line end would be one of the blanks, and the text before it would end in the name.
    have closed := parted.resolve_right (not_not_intro blank)
    have before : a.getLast?.any isBlank = false := by
      cases end_ : a.getLast? with
      | none => rfl
      | some c =>
        rw [IsSealed, end_, Option.any_some, Bool.or_eq_false_iff] at closed
        exact closed.1
    have newline : ∀ c ∈ '\n' :: p, isBlank c = true := List.forall_mem_cons.mpr ⟨by decide, blank⟩
    obtain ⟨rfl, -⟩ := run_unique_right newline hgap before visible same
    rw [IsSealed, last, Option.any_some, word, Bool.or_true] at closed
    cases closed
  · have turned : ¬IsGap p.reverse := fun all => blank fun c mem => all c (List.mem_reverse.mpr mem)
    obtain ⟨g, x, q, hp, hg, hx⟩ := exists_first_of_not_isGap turned
    have hp : p = q.reverse ++ [x] ++ g.reverse := by simpa using congrArg List.reverse hp
    have seen : (a ++ '\n' :: (q.reverse ++ [x])).getLast?.any isBlank = false := by
      rw [← List.cons_append, ← List.append_assoc, List.getLast?_concat, Option.any_some, hx]
    rw [hp, ← List.cons_append, ← List.append_assoc] at same
    obtain ⟨front, rfl⟩ :=
      run_unique_right (fun c mem => hg c (List.mem_reverse.mp mem)) hgap seen visible same
    have newline : '\n' ∉ form.receiver ++ name := by
      intro mem
      rcases List.mem_append.mp mem with inReceiver | inName
      · exact absurd (solid _ inReceiver) (by decide)
      · exact absurd (hname.word _ inName) (by decide)
    obtain ⟨v, hv⟩ := exists_of_append_sep newline front
    refine ⟨v, ?_⟩
    rw [hp, hv, lead, List.append_assoc, List.append_assoc]

namespace IsStep

variable {step : List Char → List Char}

/-- A rename keeps the last character. -/
theorem getLast?_eq (h : form.IsStep name step) (s : List Char) :
    (step s).getLast? = s.getLast? := by
  induction s using paren_induction with
  | free s hs => rw [h.free s hs]
  | paren p r hp ih =>
    have behind (u : List Char) : (u ++ '(' :: step r).getLast? = (p ++ '(' :: r).getLast? := by
      rw [List.getLast?_append_of_ne_nil _ (List.cons_ne_nil _ _),
        List.getLast?_append_of_ne_nil _ (List.cons_ne_nil _ _), List.getLast?_cons,
        List.getLast?_cons, ih]
    by_cases call : ∃ u gap, IsGap gap ∧ p = u ++ form.lead name gap
    · obtain ⟨u, gap, hgap, rfl⟩ := call
      rw [← behind (u ++ form.lead (Name.underscoredChars name) (form.spacing gap)),
        List.append_assoc, h.call u gap r (fun mem => hp (List.mem_append_left _ mem)) hgap,
        List.append_assoc]
    · rw [h.other p r hp fun u gap hgap same => call ⟨u, gap, hgap, same⟩, behind]

theorem isSealed (h : form.IsStep name step) {s : List Char} (closed : IsSealed s) :
    IsSealed (step s) := by
  rw [IsSealed, h.getLast?_eq]
  exact closed

/-- A rename keeps the first visible character, or puts a receiver there. -/
theorem isFirm (h : form.IsStep name step) (solid : ∀ c ∈ form.receiver, isBlank c = false)
    {s : List Char} (firm : IsFirm s) : IsFirm (step s) := by
  by_cases mem : '(' ∈ s
  · obtain ⟨p, r, rfl, hp⟩ := List.eq_append_cons_of_mem mem
    have visible := not_isGap_of_isFirm firm
    by_cases call : ∃ u gap, IsGap gap ∧ p = u ++ form.lead name gap
    · obtain ⟨u, gap, hgap, rfl⟩ := call
      have hu : '(' ∉ u := fun mem => hp (List.mem_append_left _ mem)
      rw [List.append_assoc, h.call u gap r hu hgap, lead, List.append_assoc, ← List.append_assoc]
      refine isFirm_append ?_ ?_
      · intro blank
        obtain ⟨d, receiver, hd⟩ := List.exists_cons_of_ne_nil form.full
        have first : d ∈ form.receiver := hd ▸ List.mem_cons_self
        exact absurd (blank d (List.mem_append_right _ first)) (by simp [solid d first])
      · simp [hu, form.open_]
    · rw [h.other p r hp fun u gap hgap same => call ⟨u, gap, hgap, same⟩]
      exact isFirm_append visible hp
  · rw [h.free s mem]
    exact firm

/-- No call passes a line end that is parted from what follows or precedes. -/
theorem append_line (h : form.IsStep name step) (solid : ∀ c ∈ form.receiver, isBlank c = false)
    (hname : IsAsciiName name) {a b : List Char} (parted : IsSealed a ∨ IsFirm b) :
    step (a ++ '\n' :: b) = step a ++ '\n' :: step b := by
  induction a using paren_induction with
  | free a ha =>
    rw [h.free a ha]
    by_cases mem : '(' ∈ b
    · obtain ⟨p, r, rfl, hp⟩ := List.eq_append_cons_of_mem mem
      have before {v : List Char} (hv : '(' ∉ v) : '(' ∉ a ++ '\n' :: v := by simp [ha, hv]
      by_cases call : ∃ u gap, IsGap gap ∧ p = u ++ form.lead name gap
      · obtain ⟨u, gap, hgap, rfl⟩ := call
        have hu : '(' ∉ u := fun mem => hp (List.mem_append_left _ mem)
        have called := h.call (a ++ '\n' :: u) gap r (before hu) hgap
        rw [List.append_assoc u, h.call u gap r hu hgap]
        simpa using called
      · have none (u gap : List Char) (hgap : IsGap gap) : p ≠ u ++ form.lead name gap :=
          fun same => call ⟨u, gap, hgap, same⟩
        have passed := h.other (a ++ '\n' :: p) r (before hp) fun u gap hgap same => by
          obtain ⟨v, hv⟩ :=
            exists_lead_of_append_line solid hname hgap (parted.imp_right not_isGap_of_isFirm) same
          exact none v gap hgap hv
        rw [h.other p r hp none]
        simpa using passed
    · rw [h.free b mem]
      exact h.free _ (by simp [ha, mem])
  | paren q a hq ih =>
    have parted : IsSealed a ∨ IsFirm b := by
      refine parted.imp_left fun closed => ?_
      cases a with
      | nil => rfl
      | cons c a =>
        rw [IsSealed, List.getLast?_append_of_ne_nil _ (List.cons_ne_nil _ _)] at closed
        rwa [IsSealed, ← List.getLast?_cons_cons]
    have further := ih parted
    by_cases call : ∃ u gap, IsGap gap ∧ q = u ++ form.lead name gap
    · obtain ⟨u, gap, hgap, rfl⟩ := call
      have hu : '(' ∉ u := fun mem => hq (List.mem_append_left _ mem)
      have first := h.call u gap a hu hgap
      have whole := h.call u gap (a ++ '\n' :: b) hu hgap
      simp only [List.append_assoc, List.cons_append] at first whole ⊢
      rw [first, whole, further]
      simp only [List.append_assoc, List.cons_append]
    · have none (u gap : List Char) (hgap : IsGap gap) : q ≠ u ++ form.lead name gap :=
        fun same => call ⟨u, gap, hgap, same⟩
      rw [List.append_assoc, List.cons_append, h.other q _ hq none, h.other q _ hq none, further,
        List.append_assoc, List.cons_append]

/-- Blanks in front are kept. -/
theorem gap_append (h : form.IsStep name step) (solid : ∀ c ∈ form.receiver, isBlank c = false)
    {gap : List Char} (hgap : IsGap gap) (s : List Char) : step (gap ++ s) = gap ++ step s := by
  have open_ : '(' ∉ gap := hgap.ne (by decide)
  by_cases mem : '(' ∈ s
  · obtain ⟨p, r, rfl, hp⟩ := List.eq_append_cons_of_mem mem
    have before {v : List Char} (hv : '(' ∉ v) : '(' ∉ gap ++ v := by simp [open_, hv]
    by_cases call : ∃ u g, IsGap g ∧ p = u ++ form.lead name g
    · obtain ⟨u, g, hg, rfl⟩ := call
      have hu : '(' ∉ u := fun mem => hp (List.mem_append_left _ mem)
      have called := h.call (gap ++ u) g r (before hu) hg
      rw [List.append_assoc u, h.call u g r hu hg]
      simpa only [List.append_assoc] using called
    · have passed := h.other (gap ++ p) r (before hp) fun u g hg same => by
        rcases List.append_eq_append_iff.mp same with ⟨v, -, hv⟩ | ⟨v, hu, hv⟩
        · exact call ⟨v, g, hg, hv⟩
        · cases v with
          | nil => exact call ⟨[], g, hg, hv.symm⟩
          | cons d v =>
            obtain ⟨e, receiver, he⟩ := List.exists_cons_of_ne_nil form.full
            have blank : isBlank d = true :=
              hgap d (hu ▸ List.mem_append_right _ List.mem_cons_self)
            rw [lead, he, List.cons_append, List.cons_append, List.cons.injEq] at hv
            rw [← hv.1, solid e (he ▸ List.mem_cons_self)] at blank
            cases blank
      rw [h.other p r hp fun u g hg same => call ⟨u, g, hg, same⟩]
      simpa only [List.append_assoc] using passed
  · rw [h.free s mem]
    exact h.free _ (by simp [open_, mem])

end IsStep

section Run

variable {names : List String} {step : String → List Char → List Char}
  (steps : ∀ m ∈ names, form.IsStep m.toList (step m))
  (solid : ∀ c ∈ form.receiver, isBlank c = false)
include steps solid

theorem renameAll_append_line (hnames : ∀ m ∈ names, IsAsciiName m.toList) {a b : List Char}
    (parted : IsSealed a ∨ IsFirm b) :
    renameAll step names (a ++ '\n' :: b) = renameAll step names a ++ '\n' ::
      renameAll step names b := by
  induction names generalizing a b with
  | nil => rfl
  | cons m names ih =>
    obtain ⟨first, others⟩ := List.forall_mem_cons.mp steps
    obtain ⟨hm, hnames⟩ := List.forall_mem_cons.mp hnames
    have kept : IsSealed (step m a) ∨ IsFirm (step m b) :=
      parted.imp first.isSealed (first.isFirm solid)
    have unfolded (s : List Char) :
        renameAll step (m :: names) s = renameAll step names (step m s) := rfl
    rw [unfolded, unfolded, unfolded, first.append_line solid hm parted, ih others hnames kept]

theorem renameAll_gap_append {gap : List Char} (hgap : IsGap gap) (s : List Char) :
    renameAll step names (gap ++ s) = gap ++ renameAll step names s := by
  induction names generalizing s with
  | nil => rfl
  | cons m names ih =>
    obtain ⟨first, others⟩ := List.forall_mem_cons.mp steps
    have unfolded (s : List Char) :
        renameAll step (m :: names) s = renameAll step names (step m s) := rfl
    rw [unfolded, unfolded, first.gap_append solid hgap, ih others]

end Run

end CallForm

/-! ### Segments -/

theorem toList_intercalate_newline (xs : List String) :
    ("\n".intercalate xs).toList = join ['\n'] (xs.map String.toList) := by
  rw [String.toList_intercalate]
  induction xs with
  | nil => rfl
  | cons x xs ih =>
    cases xs with
    | nil => simp [join]
    | cons y xs =>
      rw [List.map_cons, List.map_cons, List.intercalate_cons_cons, ← List.map_cons, ih]
      simp [join_cons_cons]

theorem IsFirm.append {s : List Char} (h : IsFirm s) (r : List Char) : IsFirm (s ++ r) := by
  obtain ⟨gap, c, s, rfl, hgap, visible, other⟩ := h
  exact ⟨gap, c, s ++ r, by rw [List.append_assoc, List.cons_append], hgap, visible, other⟩

theorem IsFirm.join_cons {b : List Char} (h : IsFirm b) (bs : List (List Char)) :
    IsFirm (join ['\n'] (b :: bs)) := by
  cases bs with
  | nil => exact h
  | cons b' bs =>
    rw [join_cons_cons, List.append_assoc]
    exact h.append _

theorem join_flatMap {α : Type} {sep : List Char} {f : α → List (List Char)}
    (full : ∀ x, f x ≠ []) (xs : List α) :
    join sep (xs.flatMap f) = join sep (xs.map fun x => join sep (f x)) := by
  induction xs with
  | nil => rfl
  | cons x xs ih =>
    cases xs with
    | nil => rw [List.flatMap_singleton, List.map_singleton, join]
    | cons y xs =>
      have more : (y :: xs).flatMap f ≠ [] := by
        rw [List.flatMap_cons]
        exact List.append_ne_nil_of_left_ne_nil (full y) _
      rw [List.flatMap_cons, join_append (full x) more, ih]
      rfl

namespace Renderer

/-- The text with the calls of own methods renamed. -/
def renamed (target : Target) (names : List String) (s : String) : String :=
  String.ofList ((ownCalls target).renameCalls names s.toList)

/-- What follows the body of a method. -/
def lastLines (target : Target) : List String :=
  if target.isPython then [] else ["    \x7d"]

/-- A blank line, the signature, the body, and what follows it. -/
def methodLines (target : Target) (signature body : String) : List String :=
  ["", "    " ++ signature, body] ++ lastLines target

/-- The text behind the body of a method. -/
def tail (target : Target) : List Char :=
  if target.isPython then [] else "\n    \x7d".toList

theorem join_methodLines (target : Target) (signature body : String) :
    join ['\n'] ((methodLines target signature body).map String.toList) =
      '\n' :: ("    ".toList ++ (signature.toList ++ '\n' :: (body.toList ++ tail target))) := by
  unfold methodLines lastLines tail
  split
  · simp [join]
  · simp [join]

theorem isBlank_of_mem_receiver {target : Target} :
    ∀ c ∈ (ownForm target).receiver, isBlank c = false := by
  have checked : ((ownForm target).receiver.all fun c => !isBlank c) = true := by
    cases target <;> decide
  simpa using checked

section Renaming

variable {target : Target} {names : List String} (hnames : ∀ m ∈ names, IsAsciiName m.toList)
include hnames

theorem isStep_ownCalls : ∀ m ∈ names, (ownForm target).IsStep m.toList
    (((ownCalls target).callPattern m).replaceAll (ownCalls target).renamed) :=
  fun m hm => (Name.CallStyle.matches_callPattern (isPlain_ownCalls target)).isStep (hnames m hm)

theorem renameCalls_append_line {a b : List Char} (parted : IsSealed a ∨ IsFirm b) :
    (ownCalls target).renameCalls names (a ++ '\n' :: b) =
      (ownCalls target).renameCalls names a ++ '\n' :: (ownCalls target).renameCalls names b :=
  CallForm.renameAll_append_line (isStep_ownCalls hnames) isBlank_of_mem_receiver hnames parted

theorem renameCalls_gap_append {gap : List Char} (hgap : IsGap gap) (s : List Char) :
    (ownCalls target).renameCalls names (gap ++ s) = gap ++ (ownCalls target).renameCalls names s :=
  CallForm.renameAll_gap_append (isStep_ownCalls hnames) isBlank_of_mem_receiver hgap s

theorem renameCalls_free {s : List Char} (free : '(' ∉ s) :
    (ownCalls target).renameCalls names s = s :=
  CallForm.renameAll_free (isStep_ownCalls hnames) free

theorem renameCalls_append_tail (body : List Char) :
    (ownCalls target).renameCalls names (body ++ tail target) =
      (ownCalls target).renameCalls names body ++ tail target := by
  unfold tail
  split
  · rw [List.append_nil, List.append_nil]
  · have brace : IsFirm "    \x7d".toList :=
      ⟨"    ".toList, '\x7d', [], rfl, by decide, by decide, by decide⟩
    have kept : (ownCalls target).renameCalls names "    \x7d".toList = "    \x7d".toList :=
      renameCalls_free hnames (by decide)
    have line : (ownCalls target).renameCalls names (body ++ '\n' :: "    \x7d".toList) = _ :=
      renameCalls_append_line hnames (.inr brace)
    rw [kept] at line
    exact line

/-- The calls in the lines of a method are renamed in its signature and in its body, each by
itself. -/
theorem renameCalls_methodLines {signature : String} (closed : IsSealed signature.toList)
    (body : String) :
    (ownCalls target).renameCalls names
        (join ['\n'] ((methodLines target signature body).map String.toList)) =
      join ['\n'] ((methodLines target (renamed target names signature)
        (renamed target names body)).map String.toList) := by
  have nothing : (ownCalls target).renameCalls names [] = [] :=
    renameCalls_free hnames List.not_mem_nil
  have first (s : List Char) : (ownCalls target).renameCalls names ('\n' :: s) =
      '\n' :: (ownCalls target).renameCalls names s := by
    have line : (ownCalls target).renameCalls names ([] ++ '\n' :: s) = _ :=
      renameCalls_append_line hnames (.inl rfl)
    rwa [nothing] at line
  rw [join_methodLines, join_methodLines, first, renameCalls_gap_append hnames (by decide),
    renameCalls_append_line hnames (.inl closed), renameCalls_append_tail hnames]
  simp only [renamed, String.toList_ofList]

/-- Nothing is renamed across the end of a text before one that is firm. -/
theorem renameCalls_join {blocks : List (List Char)} (firm : ∀ b ∈ blocks, IsFirm b) :
    (ownCalls target).renameCalls names (join ['\n'] blocks) =
      join ['\n'] (blocks.map ((ownCalls target).renameCalls names)) := by
  induction blocks with
  | nil => exact renameCalls_free hnames List.not_mem_nil
  | cons b blocks ih =>
    cases blocks with
    | nil => rfl
    | cons b' blocks =>
      obtain ⟨-, others⟩ := List.forall_mem_cons.mp firm
      have next : IsFirm (join ['\n'] (b' :: blocks)) :=
        (others b' List.mem_cons_self).join_cons blocks
      rw [List.map_cons, Text.join_cons _ (List.cons_ne_nil _ _), List.append_assoc,
        List.singleton_append, renameCalls_append_line hnames (.inr next), ih others,
        Text.join_cons _ (by simp), List.append_assoc,
        List.singleton_append]

end Renaming

/-! ### Methods one after another -/

theorem isFirm_signature (target : Target) (m : Method) : IsFirm (signature target m).toList := by
  obtain ⟨keyword, known, arguments, signed⟩ := exists_signature target m
  have plain : ∀ keyword ∈ ["def ", "async def ", "public function "],
      ¬IsGap keyword.toList ∧ '(' ∉ keyword.toList := by decide
  rw [signed]
  simp only [String.toList_append, List.append_assoc]
  exact isFirm_append (plain keyword known).1 (plain keyword known).2

theorem isSealed_signature (target : Target) (m : Method) :
    IsSealed (signature target m).toList := by
  have ending (s : String) {t : String} (full : t.toList ≠ []) (closed : IsSealed t.toList) :
      IsSealed (s ++ t).toList := by
    rw [IsSealed, String.toList_append, List.getLast?_append_of_ne_nil _ full]
    exact closed
  unfold signature
  split
  · exact ending _ (t := "):") (by decide) (by rfl)
  · exact ending _ (t := ") \x7b") (by decide) (by rfl)

theorem isFirm_methodLines (target : Target) (m : Method) (body : String) :
    IsFirm (join ['\n'] ((methodLines target (signature target m) body).map String.toList)) := by
  obtain ⟨gap, c, r, same, hgap, visible, other⟩ := isFirm_signature target m
  refine ⟨'\n' :: ("    ".toList ++ gap), c, r ++ '\n' :: (body.toList ++ tail target), ?_, ?_,
    visible, other⟩
  · rw [join_methodLines, same]
    simp only [List.append_assoc, List.cons_append]
  · exact List.forall_mem_cons.mpr ⟨by decide, IsGap.append (by decide) hgap⟩

/-- The part of a class file that holds a method: a blank line, the indented signature, the body
and, in PHP, a closing brace. It depends on the method, on the names of all methods and, in Python,
on the name of the class. -/
def segment (r : Renderer) (target : Target) (className : String) (names : List String)
    (m : Method) : String :=
  "\n".intercalate (methodLines target (renamed target names (signature target m))
    (renamed target names (r.body target className m).1))

/-- The segments of a class in the order of its methods. -/
def segments (r : Renderer) (target : Target) (c : ClassDecl) : List String :=
  c.methods.map (r.segment target c.name c.methodNames)

theorem segment_php (r : Renderer) (className className' : String)
    (names : List String) (m : Method) :
    r.segment .php className names m = r.segment .php className' names m := by
  have plain (name : String) : r.body .php name m = Render.Php.phpText r.book m.body m.bindings :=
    if_neg (by decide)
  rw [segment, segment, plain, plain]

/-- The lines of all methods before calls are renamed. -/
def methodsText (r : Renderer) (target : Target) (c : ClassDecl) : String :=
  "\n".intercalate (c.methods.flatMap fun m =>
    methodLines target (signature target m) (r.body target c.name m).1)

theorem renamed_methodsText (r : Renderer) (target : Target) {c : ClassDecl}
    (hnames : ∀ m ∈ c.methodNames, IsAsciiName m.toList) :
    renamed target c.methodNames (r.methodsText target c) =
      "\n".intercalate (r.segments target c) := by
  let lines (m : Method) : List (List Char) :=
    (methodLines target (signature target m) (r.body target c.name m).1).map String.toList
  have full (m : Method) : lines m ≠ [] := by simp [lines, methodLines]
  have firm : ∀ b ∈ c.methods.map fun m => join ['\n'] (lines m), IsFirm b := by
    intro b mem
    obtain ⟨m, -, rfl⟩ := List.mem_map.mp mem
    exact isFirm_methodLines target m _
  have joined : (r.methodsText target c).toList =
      join ['\n'] (c.methods.map fun m => join ['\n'] (lines m)) := by
    rw [methodsText, toList_intercalate_newline, List.map_flatMap, join_flatMap full]
  rw [← String.toList_inj, renamed, String.toList_ofList, joined,
    renameCalls_join hnames firm, List.map_map, toList_intercalate_newline, segments, List.map_map]
  refine congrArg (join ['\n']) (List.map_congr_left fun m _ => ?_)
  rw [Function.comp_apply, Function.comp_apply, segment, toList_intercalate_newline]
  exact renameCalls_methodLines hnames (isSealed_signature target m) _

/-! ### Files -/

/-- What precedes the segments in the file of a class. Only the imports of a Python file depend on
the bodies. -/
def heading (r : Renderer) (target : Target) (c : ClassDecl) : String :=
  if target.isPython then
    "\n".intercalate (Render.Python.header c.name c.baseClass target.isAsync
      ("\n".intercalate (r.segments target c))
      (Imports.ofText r.hierarchy (r.methodsText target c)))
  else "\n".intercalate (Render.Php.header c.name c.baseClass)

/-- What follows the segments in the file of a class. -/
def footing (target : Target) : String :=
  if target.isPython then "\n" else "\n\x7d\n"

theorem methodBlocks_eq (r : Renderer) (target : Target) (c : ClassDecl) :
    (if target.isPython then Render.Python.methodBlocks else Render.Php.methodBlocks)
      ((c.methods.map (r.method target c.name)).map Prod.snd) = r.methodsText target c := by
  unfold methodsText methodLines lastLines
  split
  · rw [Render.Python.methodBlocks, List.map_map, List.flatMap_map]
    rfl
  · rw [Render.Php.methodBlocks, List.map_map, List.flatMap_map]
    rfl

/-- The file of a class is what precedes the methods, their segments, and what follows them. -/
theorem targetText_eq (r : Renderer) (target : Target) {c : ClassDecl}
    (hnames : ∀ m ∈ c.methodNames, IsAsciiName m.toList) :
    (r.targetText c target).2 =
      r.heading target c ++ "\n" ++ "\n".intercalate (r.segments target c) ++ footing target := by
  have blocks := methodBlocks_eq r target c
  have whole := renamed_methodsText r target hnames
  change r.classText target c ((c.methods.map (r.method target c.name)).map Prod.snd) = _
  unfold classText heading footing
  rw [← whole]
  split
  · next python =>
    have style : ownCalls target = pythonCalls := if_pos python
    rw [if_pos python] at blocks
    rw [blocks, renamed, style]
    rfl
  · next other =>
    have style : ownCalls target = phpCalls := if_neg other
    rw [if_neg other] at blocks
    rw [blocks, renamed, style]
    rfl

theorem methodNames_edit {c : ClassDecl} {before after : List Method} {m m' : Method}
    (whole : c.methods = before ++ m :: after) (kept : m'.name = m.name) :
    ClassDecl.methodNames { c with methods := before ++ m' :: after } = c.methodNames := by
  rw [ClassDecl.methodNames, ClassDecl.methodNames, whole]
  simp [kept]

/-- An edit of one method leaves the segments of all others as they were. -/
theorem segments_edit (r : Renderer) (target : Target) {c : ClassDecl}
    {before after : List Method} {m m' : Method} (whole : c.methods = before ++ m :: after)
    (kept : m'.name = m.name) :
    r.segments target c = before.map (r.segment target c.name c.methodNames) ++
        r.segment target c.name c.methodNames m ::
          after.map (r.segment target c.name c.methodNames) ∧
      r.segments target { c with methods := before ++ m' :: after } =
        before.map (r.segment target c.name c.methodNames) ++
          r.segment target c.name c.methodNames m' :: after.map
          (r.segment target c.name c.methodNames) := by
  constructor
  · rw [segments, whole, List.map_append, List.map_cons]
  · rw [segments, methodNames_edit whole kept, List.map_append, List.map_cons]

theorem classTexts_eq_ok {r : Renderer} {targets : List Target} {c : ClassDecl}
    {context : Transcript} {texts : List (Target × String)}
    (h : (r.classTexts targets c context).1 = .ok texts) :
    texts = targets.map fun target => (target, (r.targetText c target).2) := by
  unfold classTexts at h
  dsimp only at h
  split at h
  · rw [← Except.ok.inj h, List.map_map]
    rfl
  · cases h

/-- Methods are rendered independently of each other. The PHP file of a class is a fixed heading,
one segment for each method in order, and a closing brace; a Python file has the same form behind
its imports. A segment depends on its method and on the names of all methods, and in Python on the
name of the class. So a method that is edited under its name leaves the segments of all others as
they are, in every target. -/
theorem targetText_segments (r : Renderer) (c : ClassDecl)
    (ids : ∀ m ∈ c.methods, ClassDecl.isIdentifier m.name.toList = true) :
    (r.targetText c .php).2 = "\n".intercalate (Render.Php.header c.name c.baseClass) ++ "\n" ++
      "\n".intercalate (c.methods.map (r.segment .php c.name c.methodNames)) ++ "\n\x7d\n" ∧
    (∀ target, target.isPython = true → (r.targetText c target).2 =
      "\n".intercalate (Render.Python.header c.name c.baseClass target.isAsync
        ("\n".intercalate (r.segments target c))
        (Imports.ofText r.hierarchy (r.methodsText target c))) ++ "\n" ++
      "\n".intercalate (c.methods.map (r.segment target c.name c.methodNames)) ++ "\n") ∧
    (∀ className className' names m,
      r.segment .php className names m = r.segment .php className' names m) ∧
    (∀ before m after m', c.methods = before ++ m :: after → m'.name = m.name → ∀ target,
      (r.targetText c target).2 = r.heading target c ++ "\n" ++
        "\n".intercalate (before.map (r.segment target c.name c.methodNames) ++
          r.segment target c.name c.methodNames m ::
            after.map (r.segment target c.name c.methodNames)) ++
        footing target ∧
      (r.targetText { c with methods := before ++ m' :: after } target).2 =
        r.heading target { c with methods := before ++ m' :: after } ++ "\n" ++
        "\n".intercalate (before.map (r.segment target c.name c.methodNames) ++
          r.segment target c.name c.methodNames m' :: after.map
          (r.segment target c.name c.methodNames)) ++
        footing target) ∧
    ∀ targets context texts, (r.classTexts targets c context).1 = .ok texts →
      texts = targets.map fun target => (target, (r.targetText c target).2) := by
  have hnames : ∀ m ∈ c.methodNames, IsAsciiName m.toList := by
    intro name mem
    obtain ⟨m, hm, rfl⟩ := List.mem_map.mp mem
    exact Ruleset.isAsciiName_of_isIdentifier (ids m hm)
  refine ⟨?_, fun target python => ?_, r.segment_php, fun before m after m' whole kept target => ?_,
    fun _ _ _ => classTexts_eq_ok⟩
  · have text := targetText_eq r .php hnames
    rwa [heading, footing, if_neg (by decide), if_neg (by decide)] at text
  · have text := targetText_eq r target hnames
    rwa [heading, footing, if_pos python, if_pos python] at text
  · obtain ⟨old, new⟩ := segments_edit r target whole kept
    have names := methodNames_edit whole kept
    rw [← old, ← new]
    exact ⟨targetText_eq r target hnames, targetText_eq r target (names ▸ hnames)⟩

/-- Two methods, of which the first ends in what a parenthesis would make a call. -/
def twoMethods : ClassDecl where
  name := "foo"
  baseClass := "Exchange"
  methods := [⟨"signIt", false, [], "        return this->signIt", []⟩,
    ⟨"parseIt", false, [], "        this->signIt ()", []⟩]

theorem targetText_segments_twoMethods :
    (∀ m ∈ twoMethods.methods, ClassDecl.isIdentifier m.name.toList = true) ∧
    ∃ g, (∀ t, Job.Does (Generator.ofSettings Generator.phpOnly) t (.ok g) t) ∧
      (g.renderer.targetText twoMethods .php).2 =
      "\n".intercalate (Render.Php.header "foo" "Exchange") ++ "\n" ++
        (g.renderer.segment .php "foo" ["signIt", "parseIt"] ⟨"signIt", false,
          [], "        return this->signIt", []⟩ ++ "\n" ++
          g.renderer.segment .php "foo" ["signIt", "parseIt"]
            ⟨"parseIt", false, [], "        this->signIt ()", []⟩) ++ "\n\x7d\n" := by
  have ids : ∀ m ∈ twoMethods.methods, ClassDecl.isIdentifier m.name.toList = true := by decide
  obtain ⟨g, made, -⟩ := Generator.exists_ofSettings Generator.validate_phpOnly rfl
  exact ⟨ids, g, made, (targetText_segments g.renderer twoMethods ids).1⟩

end Renderer

end Polyglot
