import Polyglot.Proofs.Header
import Polyglot.Proofs.Paragraphs
import Polyglot.Proofs.Results
import Polyglot.Proofs.Signature

/-!
What is read from the blocks of a class. A block is read from its first line, which has to begin
with a signature, and from the lines between the first and the last; nothing else of it is looked
at.
-/

namespace Polyglot.ClassDecl

open Pattern Text

/-- The method of a signature and a body. -/
def methodOf (m : Match) (body : List Char) : Method where
  name := String.ofList (m.group 2)
  isAsync := (m.group? 1).isSome
  parameters := parseParameters (m.group 3)
  body := String.ofList body
  bindings := boundNames ((parseParameters (m.group 3)).map Parameter.name) body

theorem methodOf_groups (isAsync : Bool) (t name args body : List Char) :
    methodOf ⟨t, (3, args) :: (2, name) :: if isAsync then [(1, asyncMark true)] else []⟩ body =
      ⟨String.ofList name, isAsync, parseParameters args, String.ofList body,
        boundNames ((parseParameters args).map Parameter.name) body⟩ := by
  cases isAsync <;> rfl

theorem trim_join {first last : List Char} {mid : List (List Char)}
    (h : IsParagraph (first :: (mid ++ [last]))) :
    trim (join ['\n'] (first :: (mid ++ [last]))) =
      join ['\n'] (trimLeft first :: (mid ++ [trimRight last])) := by
  have hfirst := h.filled first List.mem_cons_self
  have hlast := h.filled last (by simp)
  obtain ⟨r, hr⟩ := exists_join_cons ['\n'] (mid ++ [last])
  obtain ⟨s, hs⟩ := exists_join_concat ['\n'] (trimLeft first :: mid)
  rw [trim, hr, trimLeft_append_of_not_isGap hfirst.visible, ← hr]
  rw [← List.cons_append, ← List.cons_append, hs, trimRight_append_of_not_isGap hlast.visible, ← hs]

/-- The lines of a block. -/
theorem lines_trim_join {first last : List Char} {mid : List (List Char)}
    (h : IsParagraph (first :: (mid ++ [last]))) :
    lines (trim (join ['\n'] (first :: (mid ++ [last])))) =
      stripReturn (trimLeft first) :: (mid.map stripReturn ++ [trimRight last]) := by
  have hlast := h.filled last (by simp)
  obtain ⟨u, hu, hfirst⟩ := exists_trimLeft first
  obtain ⟨v, hv, split⟩ := exists_trimRight last
  have free : ∀ l ∈ (trimLeft first :: mid) ++ [trimRight last], '\n' ∉ l := by
    intro l hl newline
    simp only [List.cons_append, List.mem_cons, List.mem_append, List.not_mem_nil, or_false] at hl
    rcases hl with rfl | inside | rfl
    · exact (h.filled first (by simp)).line (by rw [hfirst]; exact List.mem_append_right _ newline)
    · exact (h.filled l (by simp [inside])).line newline
    · exact hlast.line (by rw [split]; exact List.mem_append_left _ newline)
  have full : trimRight last ≠ [] := by
    intro empty
    rw [empty, List.nil_append] at split
    exact hlast.visible (split ▸ hv)
  rw [trim_join h, ← List.cons_append, lines_join free full]
  rfl

theorem parseMethod_paragraph {first : List Char} {rest : List (List Char)}
    (h : IsParagraph (first :: rest)) :
    parseMethod (trim (join ['\n'] (first :: rest))) =
      match signaturePattern.find? (trim first) with
      | none => .error (.noSignature (String.ofList (trim first)))
      | some m => .ok (methodOf m (join ['\n'] (rest.dropLast.map stripReturn))) := by
  have hfirst := h.filled first List.mem_cons_self
  -- The first line of the block, and the lines between it and the last.
  have parts : trim ((lines (trim (join ['\n'] (first :: rest)))).head?.getD []) = trim first ∧
      innerLines (lines (trim (join ['\n'] (first :: rest)))) =
        join ['\n'] (rest.dropLast.map stripReturn) := by
    rcases List.eq_nil_or_concat rest with rfl | ⟨mid, last, rfl⟩
    · have single : lines (trim first) = [trim first] := by
        have free : ∀ l ∈ [] ++ [trim first], '\n' ∉ l := by
          intro l hl newline
          obtain rfl : l = trim first := by simpa using hl
          obtain ⟨u, v, -, -, -, split⟩ := exists_trim first
          refine hfirst.line ?_
          rw [split]
          simp [newline]
        exact lines_join free (trim_ne_nil hfirst.visible)
      change trim ((lines (trim first)).head?.getD []) = _ ∧ innerLines (lines (trim first)) = _
      rw [single]
      exact ⟨trim_of_isTight (isTight_trim first), rfl⟩
    · rw [List.concat_eq_append] at h ⊢
      rw [lines_trim_join h]
      constructor
      · exact (trim_stripReturn _).trans (trim_trimLeft first)
      · simp [innerLines]
  rw [parseMethod]
  simp only [parts]
  rfl

theorem parseMethod_of_opens {first : List Char} {rest : List (List Char)}
    (h : IsParagraph (first :: rest)) (opens : OpensMethod (trim first)) :
    ∃ m, parseMethod (trim (join ['\n'] (first :: rest))) = .ok m := by
  obtain ⟨m, hm⟩ := Option.isSome_iff_exists.mp (find?_signature_isSome.mpr opens)
  rw [parseMethod_paragraph h, hm]
  exact ⟨_, rfl⟩

theorem parseMethod_of_not_opens {first : List Char} {rest : List (List Char)}
    (h : IsParagraph (first :: rest)) (opens : ¬ OpensMethod (trim first)) :
    parseMethod (trim (join ['\n'] (first :: rest))) =
      .error (.noSignature (String.ofList (trim first))) := by
  have none : signaturePattern.find? (trim first) = none := by
    rw [← Option.not_isSome_iff_eq_none, find?_signature_isSome]
    exact opens
  rw [parseMethod_paragraph h, none]

/-! ### Classes laid out in sections -/

/-- A blank line, or what follows the brace of the header on its line, and the lines of a method
below it. -/
structure Section where
  gap : List Char
  lines : List (List Char)
  deriving DecidableEq, Repr

structure Section.IsLaid (s : Section) : Prop where
  blank : IsGap s.gap
  line : '\n' ∉ s.gap
  paragraph : IsParagraph s.lines
  indented : ∀ l ∈ s.lines, l.head? ≠ some '\x7d'

instance (s : Section) : Decidable s.IsLaid :=
  decidable_of_iff (IsGap s.gap ∧ '\n' ∉ s.gap ∧ IsParagraph s.lines ∧
      ∀ l ∈ s.lines, l.head? ≠ some '\x7d')
    ⟨fun ⟨blank, line, paragraph, indented⟩ => ⟨blank, line, paragraph, indented⟩,
      fun h => ⟨h.blank, h.line, h.paragraph, h.indented⟩⟩

def Section.block (s : Section) : List Char :=
  trim (join ['\n'] s.lines)

def bodyText (sections : List Section) : List Char :=
  unlines (sections.flatMap fun s => s.gap :: s.lines)

/-- The text of a class below the lines `ls`. -/
def classText (ls : List (List Char)) (head : List Char) (sections : List Section)
    (after : List Char) : List Char :=
  unlines ls ++ (head ++ (bodyText sections ++ '\x7d' :: after))

theorem bodyText_cons (s : Section) (more : List Section) (full : s.lines ≠ []) :
    bodyText (s :: more) = s.gap ++ '\n' :: (join ['\n'] s.lines ++ '\n' :: bodyText more) := by
  rw [bodyText, List.flatMap_cons, unlines_append, unlines_cons, unlines_eq_join full]
  simp [bodyText]

theorem bodyText_eq_stacked {s : Section} {more : List Section}
    (full : ∀ t ∈ s :: more, t.lines ≠ []) : bodyText (s :: more) =
      (s.gap ++ ['\n']) ++ stacked s.lines (more.map fun t => (t.gap, t.lines)) ++ ['\n'] := by
  induction more generalizing s with
  | nil =>
    rw [bodyText_cons s [] (full s List.mem_cons_self)]
    simp [stacked, bodyText, unlines]
  | cons t more ih =>
    rw [bodyText_cons s _ (full s List.mem_cons_self),
      ih fun u hu => full u (List.mem_cons_of_mem _ hu)]
    simp [stacked]

section Layout

variable {sections : List Section} (laid : ∀ s ∈ sections, s.IsLaid)
include laid

theorem mem_bodyLines {l : List Char} (hl : l ∈ sections.flatMap fun s => s.gap :: s.lines) :
    '\n' ∉ l ∧ l.head? ≠ some '\x7d' := by
  obtain ⟨s, hs, member⟩ := List.mem_flatMap.mp hl
  have hlaid := laid s hs
  rcases List.mem_cons.mp member with rfl | inside
  · refine ⟨hlaid.line, fun brace => ?_⟩
    exact hlaid.blank.ne (by decide) (List.mem_of_mem_head? brace)
  · exact ⟨(hlaid.paragraph.filled l inside).line, hlaid.indented l inside⟩

theorem isBody_bodyText (full : sections ≠ []) : IsBody (bodyText sections) := by
  obtain ⟨s, more, rfl⟩ := List.exists_cons_of_ne_nil full
  constructor
  · rcases getLast?_unlines ((s :: more).flatMap fun s => s.gap :: s.lines) with none | newline
    · have empty := List.getLast?_eq_none_iff.mp none
      simp [unlines] at empty
    · exact newline
  · intro u v split
    have place : bodyText (s :: more) ++ [] = (u ++ ['\n']) ++ '\x7d' :: v := by
      rw [List.append_nil, split]
      simp
    have short : (u ++ ['\n']).length < (bodyText (s :: more)).length := by
      rw [split]
      simp
    obtain ⟨l, hl, t, line⟩ := exists_line_of_lineStart
      (fun l hl => (mem_bodyLines laid hl).1) place short (.inr (by simp))
    refine (mem_bodyLines laid hl).2 ?_
    cases l with
    | nil => cases (List.cons.inj line).1
    | cons x l => exact congrArg some (List.cons.inj line).1.symm

theorem blocks_bodyText (full : sections ≠ []) :
    blocks (bodyText sections) = sections.map Section.block := by
  obtain ⟨s, more, rfl⟩ := List.exists_cons_of_ne_nil full
  have hs := laid s List.mem_cons_self
  have hmore : ∀ g ∈ more.map (fun t => (t.gap, t.lines)), IsGap g.1 ∧ IsParagraph g.2 := by
    intro g hg
    obtain ⟨t, ht, rfl⟩ := List.mem_map.mp hg
    have hlaid := laid t (List.mem_cons_of_mem _ ht)
    exact ⟨hlaid.blank, hlaid.paragraph⟩
  rw [bodyText_eq_stacked fun t ht => (laid t ht).paragraph.full,
    blocks_stacked (hs.blank.append (by decide)) (by decide) hs.paragraph hmore]
  simp [Section.block]

theorem parse_classText {ls : List (List Char)} {name base head : List Char} (hls : IsPreamble ls)
    (header : IsHeader name base head) (full : sections ≠ []) (after : List Char) :
    parse (classText ls head sections after) =
      ((sections.map Section.block).mapM parseMethod).map
        (⟨String.ofList name, String.ofList base, ·⟩) := by
  rw [classText, parse_eq hls header (isBody_bodyText laid full), blocks_bodyText laid full]

end Layout

end Polyglot.ClassDecl
