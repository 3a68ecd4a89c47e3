import Polyglot.Proofs.Blocks

/-!
Blank lines inside of methods. A blank line ends a block, so the lines below it are read as a method
of their own. The class is rejected, with the line below the blank one in the failure, exactly if
that line does not begin with a signature. The head of a conditional does begin with one.
-/

namespace Polyglot.ClassDecl

open Pattern Text

/-- The lines begin with a signature. -/
def Section.IsSigned (s : Section) : Prop :=
  ∀ l ∈ s.lines.head?, OpensMethod (trim l)

instance (s : Section) : Decidable s.IsSigned :=
  inferInstanceAs (Decidable (∀ l ∈ s.lines.head?, OpensMethod (trim l)))

theorem Section.IsSigned.parseMethod {s : Section} (signed : s.IsSigned) (laid : s.IsLaid) :
    ∃ m, ClassDecl.parseMethod s.block = .ok m := by
  obtain ⟨gap, lines⟩ := s
  obtain ⟨first, rest, rfl⟩ := List.exists_cons_of_ne_nil laid.paragraph.full
  exact parseMethod_of_opens laid.paragraph (signed first rfl)

/-- A class all of whose sections are signed is accepted. -/
theorem exists_ofSource_of_signed (file : String) {ls : List (List Char)}
    {name base head : List Char} {sections : List Section} (hls : IsPreamble ls)
    (header : IsHeader name base head)
    (full : sections ≠ []) (laid : ∀ s ∈ sections, s.IsLaid) (signed : ∀ s ∈ sections, s.IsSigned)
    (after : List Char) :
    ∃ c, ofSource file (String.ofList (classText ls head sections after)) = .ok c ∧
      c.methods.length = sections.length := by
  have read : ∀ block ∈ sections.map Section.block, ∃ m, parseMethod block = .ok m := by
    intro block hblock
    obtain ⟨s, hs, rfl⟩ := List.mem_map.mp hblock
    exact (signed s hs).parseMethod (laid s hs)
  obtain ⟨methods, hmethods, length⟩ := exists_mapM_eq_ok read
  have parsed := parse_classText laid hls header full after
  rw [hmethods] at parsed
  refine ⟨⟨String.ofList name, String.ofList base, methods⟩, ofSource_eq_ok ?_, ?_⟩
  · rw [String.toList_ofList]
    exact parsed
  · rw [length, List.length_map]

/-- The first section that is not signed is an error. -/
theorem ofSource_of_unsigned (file : String) {ls : List (List Char)} {name base head : List Char}
    {above below : List Section} {gap first : List Char} {rest : List (List Char)}
    (hls : IsPreamble ls) (header : IsHeader name base head)
    (laid : ∀ s ∈ above ++ ⟨gap, first :: rest⟩ :: below, s.IsLaid)
    (signed : ∀ s ∈ above, s.IsSigned)
    (opens : ¬ OpensMethod (trim first)) (after : List Char) :
    ofSource file
        (String.ofList (classText ls head (above ++ ⟨gap, first :: rest⟩ :: below) after)) =
      .error (Flaw.failure file (.noSignature (String.ofList (trim first)))) := by
  have read : ∀ block ∈ above.map Section.block, ∃ m, parseMethod block = .ok m := by
    intro block hblock
    obtain ⟨s, hs, rfl⟩ := List.mem_map.mp hblock
    exact (signed s hs).parseMethod (laid s (by simp [hs]))
  have unread : parseMethod (Section.block ⟨gap, first :: rest⟩) =
      .error (.noSignature (String.ofList (trim first))) :=
    parseMethod_of_not_opens (laid ⟨gap, first :: rest⟩ (by simp)).paragraph opens
  have parsed := parse_classText laid hls header (by simp) after
  rw [List.map_append, List.map_cons, mapM_eq_error read unread] at parsed
  refine ofSource_eq_error ?_
  rw [String.toList_ofList]
  exact parsed

section Insertion

variable {above below : List Section} {gap w next : List Char} {top bottom : List (List Char)}

/-- A blank line makes two sections of one. -/
theorem classText_blank_line (ls : List (List Char)) (head after : List Char) :
    classText ls head (above ++ ⟨gap, top ++ w :: next :: bottom⟩ :: below) after =
      classText ls head (above ++ ⟨gap, top⟩ :: ⟨w, next :: bottom⟩ :: below) after := by
  simp [classText, bodyText]

theorem isLaid_of_blank_line
    (laid : ∀ s ∈ above ++ ⟨gap, top ++ next :: bottom⟩ :: below, s.IsLaid) (full : top ≠ [])
    (hw : IsGap w) (line : '\n' ∉ w) :
    ∀ s ∈ above ++ ⟨gap, top⟩ :: ⟨w, next :: bottom⟩ :: below, s.IsLaid := by
  have whole : Section.IsLaid ⟨gap, top ++ next :: bottom⟩ := laid _ (by simp)
  intro s hs
  simp only [List.mem_append, List.mem_cons] at hs
  rcases hs with before | rfl | rfl | later
  · exact laid s (by simp [before])
  · exact {
      blank := whole.blank
      line := whole.line
      paragraph := ⟨full, fun l hl => whole.paragraph.filled l (List.mem_append_left _ hl)⟩
      indented := fun l hl => whole.indented l (List.mem_append_left _ hl) }
  · exact {
      blank := hw
      line := line
      paragraph :=
        ⟨List.cons_ne_nil _ _, fun l hl => whole.paragraph.filled l (List.mem_append_right _ hl)⟩
      indented := fun l hl => whole.indented l (List.mem_append_right _ hl) }
  · exact laid s (by simp [later])

/-- A blank line inside of a method of a class that is accepted is an error exactly if the line
below it does not begin with a signature. Otherwise the lines below it become another method. -/
theorem ofSource_blank_line (file : String) {ls : List (List Char)} {name base head : List Char}
    (hls : IsPreamble ls) (header : IsHeader name base head)
    (laid : ∀ s ∈ above ++ ⟨gap, top ++ next :: bottom⟩ :: below, s.IsLaid)
    (signed : ∀ s ∈ above ++ ⟨gap, top ++ next :: bottom⟩ :: below, s.IsSigned)
    (full : top ≠ []) (hw : IsGap w) (line : '\n' ∉ w) (after : List Char) :
    ∃ c, ofSource file (String.ofList
          (classText ls head (above ++ ⟨gap, top ++ next :: bottom⟩ :: below) after)) = .ok c ∧
      (OpensMethod (trim next) → ∃ d, ofSource file (String.ofList
          (classText ls head (above ++ ⟨gap, top ++ w :: next :: bottom⟩ :: below) after)) = .ok d ∧
        d.methods.length = c.methods.length + 1) ∧
      (¬ OpensMethod (trim next) → ofSource file (String.ofList
          (classText ls head (above ++ ⟨gap, top ++ w :: next :: bottom⟩ :: below) after)) =
        .error (.format file
          ("method block does not start with `[async ]name (args) \x7b`; " ++
            "methods must not contain empty lines")
          (some (String.ofList (trim next))))) := by
  have laid' := isLaid_of_blank_line laid full hw line
  have topSigned : Section.IsSigned ⟨gap, top⟩ := by
    obtain ⟨l, top, rfl⟩ := List.exists_cons_of_ne_nil full
    exact signed ⟨gap, l :: top ++ next :: bottom⟩ (by simp)
  have others : ∀ s ∈ above, s.IsSigned := fun s hs => signed s (by simp [hs])
  obtain ⟨c, accepted, methods⟩ :=
    exists_ofSource_of_signed file hls header (by simp) laid signed after
  refine ⟨c, accepted, fun opens => ?_, fun opens => ?_⟩
  · have signed' : ∀ s ∈ above ++ ⟨gap, top⟩ :: ⟨w, next :: bottom⟩ :: below, s.IsSigned := by
      intro s hs
      simp only [List.mem_append, List.mem_cons] at hs
      rcases hs with before | rfl | rfl | later
      · exact others s before
      · exact topSigned
      · intro l hl
        obtain rfl : next = l := by simpa using hl
        exact opens
      · exact signed s (by simp [later])
    obtain ⟨d, accepted', methods'⟩ :=
      exists_ofSource_of_signed file hls header (by simp) laid' signed' after
    rw [classText_blank_line]
    refine ⟨d, accepted', ?_⟩
    rw [methods, methods']
    simp only [List.length_append, List.length_cons]
    omega
  · have signed' : ∀ s ∈ above ++ [⟨gap, top⟩], s.IsSigned := by
      intro s hs
      rcases List.mem_append.mp hs with before | last
      · exact others s before
      · rwa [List.mem_singleton.mp last]
    have regroup : above ++ ⟨gap, top⟩ :: ⟨w, next :: bottom⟩ :: below =
        (above ++ [⟨gap, top⟩]) ++ ⟨w, next :: bottom⟩ :: below := by
      simp
    rw [classText_blank_line, regroup]
    rw [regroup] at laid'
    exact ofSource_of_unsigned file hls header laid' signed' opens after

end Insertion

theorem ofSource_blank_line_return :
    ofSource "foo.js"
      ("module.exports = class foo extends Exchange \x7b\n    sign (path) \x7b\n" ++
        "        const url = path;\n \t\n        return url;\n    \x7d\n\x7d;\n") =
      .error (.format "foo.js"
        ("method block does not start with `[async ]name (args) \x7b`; " ++
          "methods must not contain empty lines")
        (some "return url;")) := by
  obtain ⟨-, -, -, rejected⟩ :=
    @ofSource_blank_line [] [] [] " \t".toList "        return url;".toList
    ["    sign (path) \x7b".toList, "        const url = path;".toList]
      ["    \x7d".toList] "foo.js" []
    "foo".toList "Exchange".toList _ (by decide)
      (isHeader_spaced (by decide) (by decide)) (by decide)
    (by decide +kernel) (by decide) (by decide) (by decide) ";\n".toList
  refine Eq.trans (congrArg (ofSource "foo.js") ?_) ((rejected (by decide +kernel)).trans ?_)
  · decide +kernel
  · have line : String.ofList (trim "        return url;".toList) = "return url;" := by
      decide +kernel
    rw [line]

/-- What stands below the blank line is a conditional, and it is read as a method of that name. The
last line above the blank line is not read at all. -/
theorem ofSource_blank_line_if :
    ofSource "foo.js"
      ("module.exports = class foo extends Exchange \x7b\n    sign (path) \x7b\n" ++
        "        const url = path;\n\n        if (url) \x7b\n            return url;\n        \x7d\n" ++
        "    \x7d\n\x7d;\n") =
      .ok ⟨"foo", "Exchange",
        [⟨"sign", false, [⟨"path", none⟩], "", ["path"]⟩,
          ⟨"if", false, [⟨"url", none⟩], "            return url;\n        \x7d", ["url"]⟩]⟩ := by
  have parsed := @parse_classText
    [⟨[], ["    sign (path) \x7b".toList, "        const url = path;".toList]⟩,
      ⟨[], ["        if (url) \x7b".toList, "            return url;".toList, "        \x7d".toList,
        "    \x7d".toList]⟩] (by decide) [] "foo".toList "Exchange".toList _ (by decide)
    (isHeader_spaced (by decide) (by decide)) (by decide) ";\n".toList
  refine ofSource_eq_ok (Eq.trans (congrArg parse ?_) (parsed.trans (eq_ok_of_toOption ?_)))
  · decide +kernel
  · decide +kernel

end Polyglot.ClassDecl
