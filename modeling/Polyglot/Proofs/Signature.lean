import Polyglot.Class.Source
import Polyglot.Proofs.Hits
import Polyglot.Proofs.Lines
import Polyglot.Proofs.Runs

/-!
Signatures of methods as texts. `IsSignature` says what a signature is without a pattern, and the
signature pattern matches a line exactly if the line begins with one (`find?_signature_isSome`).
What stands behind the brace does not matter to the pattern.
-/

namespace Polyglot.ClassDecl

open Pattern Text

/-- What a signature begins with, if the method is asynchronous. -/
def asyncMark (isAsync : Bool) : List Char :=
  if isAsync then "async ".toList else []

/-- `[async ]name (args) ` and a brace. One blank character stands behind the name, and any number
of them before the brace. -/
structure IsSignature (isAsync : Bool) (name args text : List Char) : Prop where
  word : IsWord name
  closed : ')' ∉ args
  spelled : ∃ b gap, isBlank b = true ∧ IsGap gap ∧
    text = asyncMark isAsync ++ (name ++ b :: '(' :: (args ++ ')' :: (gap ++ ['\x7b'])))

theorem IsSignature.getLast? {isAsync : Bool} {name args text : List Char}
    (h : IsSignature isAsync name args text) : text.getLast? = some '\x7b' := by
  obtain ⟨b, gap, -, -, rfl⟩ := h.spelled
  simp [List.getLast?_append, List.getLast?_cons]

/-- The part of the pattern behind `async`. -/
def signatureRest : List Pattern :=
  group 2 wordRun :: char .blank :: (chars ['('] ++
    (group 3 (star true (noneOf [.single ')'])) ::
      (chars [')'] ++ (blanks :: (chars ['\x7b'] ++ [])))))

/-- The cursor behind a signature without its mark. -/
def behindSignature (c : Cursor) (name : List Char) (b : Char) (args gap : List Char) : Cursor :=
  ((((((c.noting 2 name).past [b]).past ['(']).noting 3 args).past [')']).past gap).past ['\x7b']

theorem taken_behindSignature (c : Cursor) (name : List Char) (b : Char) (args gap : List Char) :
    (behindSignature c name b args gap).taken =
      c.taken ++ (name ++ b :: '(' :: (args ++ ')' :: (gap ++ ['\x7b']))) := by
  simp [behindSignature, Cursor.noting, Cursor.past]

theorem groups_behindSignature (c : Cursor) (name : List Char) (b : Char) (args gap : List Char) :
    (behindSignature c name b args gap).groups = (3, args) :: (2, name) :: c.groups := rfl

theorem has_noneOf_paren (x : Char) :
    (CharSet.compl (.ofItems [.single ')'])).has x = decide (x ≠ ')') := by
  simp [CharSet.ofItems]

theorem mem_ways_signatureRest {c e : Cursor} (mem : e ∈ (seqAll signatureRest).ways c) :
    ∃ name b args gap r, c.rest = name ++ b :: '(' :: (args ++ ')' :: (gap ++ '\x7b' :: r)) ∧
      IsWord name ∧ isBlank b = true ∧ ')' ∉ args ∧ IsGap gap ∧
      e = behindSignature c name b args gap := by
  obtain ⟨name, r₁, full, h₁, t₁, solid, mem⟩ := mem_ways_group_plus_cons mem
  obtain ⟨b, r₂, h₂, t₂, hb, mem⟩ := mem_ways_char_cons mem
  obtain ⟨r₃, h₃, t₃, mem⟩ := mem_ways_chars_append mem
  obtain ⟨args, r₄, h₄, t₄, open_, mem⟩ := mem_ways_group_star_cons mem
  obtain ⟨r₅, h₅, t₅, mem⟩ := mem_ways_chars_append mem
  obtain ⟨gap, r₆, h₆, t₆, hgap, mem⟩ := mem_ways_star_cons mem
  obtain ⟨r₇, h₇, -, mem⟩ := mem_ways_chars_append mem
  refine ⟨name, b, args, gap, r₇, ?_, ⟨full, ?_⟩, hb, ?_, hgap, List.mem_singleton.mp mem⟩
  · rw [h₁, ← t₁, h₂, ← t₂, h₃, ← t₃, h₄, ← t₄, h₅, ← t₅, h₆, ← t₆, h₇]
    rfl
  · intro x hx
    simpa [CharSet.has] using solid x hx
  · intro inside
    have := open_ ')' inside
    rw [has_noneOf_paren] at this
    simp at this

/-- A signature is read in one way only. -/
theorem ways_signatureRest {c : Cursor} {name args gap r : List Char} {b : Char}
    (hname : IsWord name) (hb : isBlank b = true) (hargs : ')' ∉ args) (hgap : IsGap gap)
    (h : c.rest = name ++ b :: '(' :: (args ++ ')' :: (gap ++ '\x7b' :: r))) :
    (seqAll signatureRest).ways c = [behindSignature c name b args gap] := by
  have h₁ : (c.noting 2 name).rest = b :: '(' :: (args ++ ')' :: (gap ++ '\x7b' :: r)) :=
    Cursor.rest_noting 2 h
  have h₂ := Cursor.rest_past (w := [b]) h₁
  have h₃ := Cursor.rest_past (w := ['(']) h₂
  have h₄ := Cursor.rest_noting 3 h₃
  have h₅ := Cursor.rest_past (w := [')']) h₄
  have h₆ := Cursor.rest_past h₅
  rw [signatureRest, wordRun,
    ways_group_plus_cons 2 (bars_char (by simp [CharSet.has])) hname.full h
      (by simpa [CharSet.has] using hname.solid) (by simpa [CharSet.has] using hb),
    ways_char_cons h₁ (show CharSet.blank.has b = true from hb), ways_chars_append
      (w := ['(']) h₂, noneOf,
    ways_group_star_cons 3 (bars_chars [] (by rw [has_noneOf_paren]; simp)) h₃ ?_
      (by rw [List.head?_cons, Option.any_some, has_noneOf_paren]; simp),
    ways_chars_append (w := [')']) h₄, blanks,
    ways_star_cons .blank (bars_chars [] (by decide)) h₅ hgap
      (show CharSet.blank.has '\x7b' = false by decide),
    ways_chars_append (w := ['\x7b']) h₆]
  · rfl
  · intro x hx
    rw [has_noneOf_paren]
    exact decide_eq_true fun same => hargs (same ▸ hx)

/-! ### The whole pattern -/

theorem signaturePattern_isTame : signaturePattern.isTame = true := by decide

/-- A signature with `async` before it is preferred. -/
theorem ways_signaturePattern (s : List Char) :
    signaturePattern.ways (.start none s) =
      (seqAll (group 1 (seqAll (chars (asyncMark true))) :: signatureRest)).ways (.start none s) ++
        (seqAll signatureRest).ways (.start none s) := by
  change (seqAll (look .textStart :: opt true (group 1 (seqAll (chars (asyncMark true)))) ::
    signatureRest)).ways _ = _
  rw [ways_seqAll_cons]
  change (seqAll (opt true (group 1 (seqAll (chars (asyncMark true)))) ::
    signatureRest)).ways _ ++ [] = _
  rw [List.append_nil, ways_seqAll_cons, ways_seqAll_cons]
  change ((group 1 (seqAll (chars (asyncMark true)))).ways (.start none s) ++
    [Cursor.start none s]).flatMap _ = _
  rw [List.flatMap_append, List.flatMap_singleton]

/-- The pattern matches at the start of a line only. -/
theorem find?_signature (s : List Char) :
    signaturePattern.find? s = signaturePattern.matchAt none s := by
  have inside (c : Char) (v : List Char) : signaturePattern.matchAt (some c) v = none := by
    rw [matchAt_eq_ways signaturePattern_isTame]
    rfl
  cases h : signaturePattern.matchAt none s with
  | some m =>
    refine find?_eq_some.mpr ⟨[], s, rfl, h, ?_⟩
    intro u v _ short
    exact absurd short (Nat.not_lt_zero _)
  | none =>
    refine find?_eq_none.mpr fun u v hs => ?_
    cases hu : u.getLast? with
    | none =>
      obtain rfl : u = [] := List.getLast?_eq_none_iff.mp hu
      rw [List.nil_append] at hs
      rw [← hs, h]
    | some c => exact inside c v

theorem mem_ways_signaturePattern {s : List Char} {e : Cursor}
    (mem : e ∈ signaturePattern.ways (.start none s)) :
    ∃ isAsync name args r, s = e.taken ++ r ∧ IsSignature isAsync name args e.taken ∧
      e.groups = (3, args) :: (2, name) :: if isAsync then [(1, asyncMark true)] else [] := by
  rw [ways_signaturePattern] at mem
  rcases List.mem_append.mp mem with marked | plain
  · obtain ⟨r, hr, behind, further⟩ := mem_ways_group_chars_cons marked
    obtain ⟨name, b, args, gap, r', h, hname, hb, hargs, hgap, rfl⟩ :=
      mem_ways_signatureRest further
    rw [behind] at h
    rw [Cursor.rest_start] at hr
    refine ⟨true, name, args, r', ?_,
      ⟨hname, hargs, b, gap, hb, hgap, taken_behindSignature ..⟩, rfl⟩
    rw [taken_behindSignature, hr, h]
    simp [Cursor.noting, Cursor.start]
  · obtain ⟨name, b, args, gap, r', h, hname, hb, hargs, hgap, rfl⟩ := mem_ways_signatureRest plain
    rw [Cursor.rest_start] at h
    refine ⟨false, name, args, r', ?_,
      ⟨hname, hargs, b, gap, hb, hgap, taken_behindSignature ..⟩, rfl⟩
    rw [taken_behindSignature, h]
    simp [Cursor.start]

/-- A match of the pattern is a signature at the start of the line, and its groups are the parts of
the signature. -/
theorem isSignature_of_find? {s : List Char} {m : Match} (h : signaturePattern.find? s = some m) :
    ∃ isAsync name args r, s = m.text ++ r ∧ IsSignature isAsync name args m.text ∧
      m.groups = (3, args) :: (2, name) :: if isAsync then [(1, asyncMark true)] else [] := by
  rw [find?_signature, matchAt_eq_ways signaturePattern_isTame] at h
  obtain ⟨e, he, rfl⟩ := Option.map_eq_some_iff.mp h
  exact mem_ways_signaturePattern (List.mem_of_mem_head? he)

theorem IsSignature.find?_of_async {name args text : List Char}
    (h : IsSignature true name args text) (r : List Char) :
    signaturePattern.find? (text ++ r) =
      some ⟨text, [(3, args), (2, name), (1, asyncMark true)]⟩ := by
  obtain ⟨b, gap, hb, hgap, rfl⟩ := h.spelled
  rw [find?_signature, matchAt_eq_ways signaturePattern_isTame, ways_signaturePattern,
    ways_group_chars_cons 1 (r := name ++ b :: '(' :: (args ++ ')' :: (gap ++ '\x7b' :: r)))
      (by simp),
    ways_signatureRest h.word hb h.closed hgap (r := r) (Cursor.rest_noting 1 (by simp))]
  simp [Cursor.toMatch, taken_behindSignature, groups_behindSignature, Cursor.noting, Cursor.start,
    Cursor.past]

/-- The mark is left out only if the line does not begin with a signature that has it. -/
theorem IsSignature.find?_of_plain {name args text r : List Char}
    (h : IsSignature false name args text)
    (unmarked : ∀ name' args' text' r', text ++ r = text' ++ r' →
      ¬ IsSignature true name' args' text') :
    signaturePattern.find? (text ++ r) = some ⟨text, [(3, args), (2, name)]⟩ := by
  obtain ⟨b, gap, hb, hgap, spelled⟩ := h.spelled
  have noMark : (seqAll (group 1 (seqAll (chars (asyncMark true))) :: signatureRest)).ways
      (.start none (text ++ r)) = [] := by
    refine List.eq_nil_iff_forall_not_mem.mpr fun e mem => ?_
    obtain ⟨r₁, h₁, behind, further⟩ := mem_ways_group_chars_cons mem
    obtain ⟨name', b', args', gap', r', h', hname', hb', hargs', hgap', -⟩ :=
      mem_ways_signatureRest further
    refine unmarked name' args' _ r' ?_ ⟨hname', hargs', b', gap', hb', hgap', rfl⟩
    rw [Cursor.rest_start, ← behind, h'] at h₁
    simpa using h₁
  rw [find?_signature, matchAt_eq_ways signaturePattern_isTame, ways_signaturePattern, noMark,
    ways_signatureRest (c := .start none _) h.word hb h.closed hgap (r := r)
    (by simp [spelled, asyncMark])]
  simp [Cursor.toMatch, taken_behindSignature, groups_behindSignature, Cursor.start,
    spelled, asyncMark]

/-- A line that begins with a signature. -/
def OpensMethod (line : List Char) : Prop :=
  ∃ isAsync name args text r, line = text ++ r ∧ IsSignature isAsync name args text

theorem find?_signature_isSome {line : List Char} :
    (signaturePattern.find? line).isSome = true ↔ OpensMethod line := by
  constructor
  · intro h
    obtain ⟨m, hm⟩ := Option.isSome_iff_exists.mp h
    obtain ⟨isAsync, name, args, r, hs, signature, -⟩ := isSignature_of_find? hm
    exact ⟨isAsync, name, args, m.text, r, hs, signature⟩
  · rintro ⟨isAsync, name, args, text, r, rfl, signature⟩
    by_cases marked : ∃ name' args' text' r', text ++ r = text' ++ r' ∧
      IsSignature true name' args' text'
    · obtain ⟨name', args', text', r', same, signature'⟩ := marked
      rw [same, signature'.find?_of_async]
      rfl
    · cases isAsync with
      | true => exact absurd ⟨name, args, text, r, rfl, signature⟩ marked
      | false =>
        rw [signature.find?_of_plain fun name' args' text' r' same signature' =>
          marked ⟨name', args', text', r', same, signature'⟩]
        rfl

instance (line : List Char) : Decidable (OpensMethod line) :=
  decidable_of_iff _ find?_signature_isSome

/-! ### Signatures of one line -/

/-- A line begins with one signature at most, once it is known whether the mark belongs to it. -/
theorem IsSignature.unique {isAsync : Bool} {name name' args args' text text' r r' : List Char}
    (h : IsSignature isAsync name args text) (h' : IsSignature isAsync name' args' text')
    (same : text ++ r = text' ++ r') : text = text' ∧ args = args' := by
  obtain ⟨b, gap, hb, hgap, rfl⟩ := h.spelled
  obtain ⟨b', gap', hb', hgap', rfl⟩ := h'.spelled
  simp only [List.append_assoc, List.cons_append, List.nil_append,
    List.append_cancel_left_eq] at same
  obtain ⟨rfl, rfl, parameters⟩ := first_unique h.word.solid h'.word.solid hb hb' same
  obtain ⟨rfl, brace⟩ := split_unique h.closed h'.closed (List.cons.inj parameters).2
  have solid : isBlank '\x7b' = false := by decide
  obtain ⟨rfl, -⟩ := split_unique (hgap.ne solid) (hgap'.ne solid) brace
  exact ⟨rfl, rfl⟩

end Polyglot.ClassDecl
