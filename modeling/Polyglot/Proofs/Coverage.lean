import Polyglot.Proofs.Blocks

/-!
How much of a source its methods account for. A source that is accepted is taken apart, down to the
lines of its blocks. Two parts of a block are in no method: what follows the signature on its first
line, and its last line. A method covers its block exactly if the first part is empty and the last
line is a closing brace.
-/

namespace Polyglot.ClassDecl

open Pattern Text

/-- The block is the signature of the method on a line of its own, the lines of its body, and a
closing brace on a line of its own. -/
def Covers (m : Method) (block : List (List Char)) : Prop :=
  ∃ first inner last args, block = first :: (inner ++ [last]) ∧
    IsSignature m.isAsync m.name.toList args (trim first) ∧ m.parameters = parseParameters args ∧
    m.body = String.ofList (join ['\n'] (inner.map stripReturn)) ∧ trim last = ['\x7d']

/-- The method was read from the block: from the text of the signature and from the inner lines.
Nothing of it comes from `spill`, behind the signature, and from `closing`, the last line. -/
structure Reads (m : Method) (block : List (List Char)) (spill : List Char)
    (closing : List (List Char)) : Prop where
  parts : ∃ first text inner args, block = first :: (inner ++ closing) ∧
    trim first = text ++ spill ∧ IsSignature m.isAsync m.name.toList args text ∧ m.parameters =
    parseParameters args ∧
    m.body = String.ofList (join ['\n'] (inner.map stripReturn))
  one : block.length = 1 ∧ closing = [] ∨ ∃ last, closing = [last]

theorem exists_reads {m : Method} {block : List (List Char)} (h : IsParagraph block)
    (read : parseMethod (trim (join ['\n'] block)) = .ok m) :
    ∃ spill closing, Reads m block spill closing := by
  obtain ⟨first, rest, rfl⟩ := List.exists_cons_of_ne_nil h.full
  rw [parseMethod_paragraph h] at read
  cases hfind : signaturePattern.find? (trim first) with
  | none =>
    rw [hfind] at read
    cases read
  | some found =>
    rw [hfind] at read
    obtain ⟨isAsync, name, args, spill, line, signature, groups⟩ := isSignature_of_find? hfind
    obtain ⟨text, gs⟩ := found
    obtain rfl : gs = _ := groups
    have made := Except.ok.inj read
    rw [methodOf_groups] at made
    subst made
    rcases List.eq_nil_or_concat rest with rfl | ⟨inner, last, rfl⟩
    · refine ⟨spill, [], ⟨first, text, [], args, rfl, line, ?_, rfl, rfl⟩, .inl ⟨rfl, rfl⟩⟩
      simpa using signature
    · refine ⟨spill, [last], ⟨first, text, inner, args, ?_, line, ?_, rfl, ?_⟩, .inr ⟨last, rfl⟩⟩
      · rw [List.concat_eq_append]
      · simpa using signature
      · rw [List.concat_eq_append, List.dropLast_concat]

/-- A method covers its block exactly if nothing but a closing brace is left of it. -/
theorem Reads.covers_iff {m : Method} {block closing : List (List Char)} {spill : List Char}
    (h : Reads m block spill closing) :
    Covers m block ↔ spill = [] ∧ ∃ last, closing = [last] ∧ trim last = ['\x7d'] := by
  obtain ⟨first, text, inner, args, rfl, line, signature, parameters, body⟩ := h.parts
  constructor
  · rintro ⟨first', inner', last', args', lines, signature', -, -, brace⟩
    obtain ⟨rfl, below⟩ := List.cons.inj lines
    constructor
    · have same : trim first ++ [] = text ++ spill := by rw [List.append_nil, line]
      obtain ⟨whole, -⟩ := signature'.unique signature same
      rw [whole] at line
      simpa using line
    · rcases h.one with ⟨short, rfl⟩ | ⟨last, rfl⟩
      · obtain rfl : inner = [] := by simpa using short
        cases inner' <;> cases below
      · obtain ⟨-, same⟩ := List.append_inj' below rfl
        obtain rfl := List.singleton_inj.mp same
        exact ⟨last, rfl, brace⟩
  · rintro ⟨rfl, last, rfl, brace⟩
    rw [List.append_nil] at line
    exact ⟨first, inner, last, args, rfl, line ▸ signature, parameters, body, brace⟩

/-- What of a block is in no method does not depend on how it is read. -/
theorem Reads.unique {m : Method} {block closing closing' : List (List Char)}
    {spill spill' : List Char} (h : Reads m block spill closing)
    (h' : Reads m block spill' closing') : spill = spill' ∧ closing = closing' := by
  obtain ⟨first, text, inner, args, rfl, line, signature, -⟩ := h.parts
  obtain ⟨first', text', inner', args', lines, line', signature', -⟩ := h'.parts
  obtain ⟨rfl, below⟩ := List.cons.inj lines
  have same := line.symm.trans line'
  obtain ⟨rfl, -⟩ := signature.unique signature' same
  refine ⟨List.append_cancel_left same, ?_⟩
  rcases h.one with ⟨short, rfl⟩ | ⟨last, rfl⟩ <;> rcases h'.one with ⟨short', rfl⟩ | ⟨last', rfl⟩
  · rfl
  · simp [below] at short
  · simp at short'
  · exact (List.append_inj' below rfl).2

/-! ### Whole sources -/

/-- The lines of a body with one block are those of the block. -/
theorem splitOn_trim_body {u v : List Char} {block : List (List Char)} (hu : IsGap u) (hv : IsGap v)
    (tight : IsTight (stacked block [])) (paragraph : IsParagraph block) :
    splitOn '\n' (trim (u ++ stacked block [] ++ v)) = block := by
  rw [trim_append_gaps hu hv, trim_of_isTight tight]
  exact splitOn_join paragraph.full fun l hl => (paragraph.filled l hl).line

/-- A body without methods is not accepted. -/
theorem not_isGap_of_mapM {body : List Char} {methods : List Method}
    (h : (blocks body).mapM parseMethod = .ok methods) : ¬ IsGap body := by
  intro gap
  have empty : blocks body = [[]] := by
    have nothing : trim body = trim [] := by
      simpa using trim_append_gaps gap isGap_nil []
    rw [blocks, nothing]
    decide
  have failed : (parseMethod []).toOption = none := by decide +kernel
  rw [empty, List.mapM_cons] at h
  cases read : parseMethod [] with
  | error flaw =>
    rw [read] at h
    cases h
  | ok m =>
    rw [read] at failed
    cases failed

/-- Every source that is accepted is a class in a text. Its body is what the pattern for classes
takes, and apart from the blanks around it a stack of blocks, each of which was read into the method
at its place. -/
theorem exists_reads_of_ofSource {file contents : String} {c : ClassDecl}
    (h : ofSource file contents = .ok c) :
    ∃ before head u first more v after,
      contents.toList = before ++ (head ++ ((u ++ stacked first more ++ v) ++ '\x7d' :: after)) ∧
      (before.getLast? = none ∨ before.getLast? = some '\n') ∧
      IsHeader c.name.toList c.baseClass.toList head ∧ IsBody (u ++ stacked first more ++ v) ∧
      (headerPattern.find? contents.toList).map (·.group 3) = some (u ++ stacked first more ++ v) ∧
      IsGap u ∧ IsGap v ∧ IsTight (stacked first more) ∧
      IsParagraph first ∧ (∀ g ∈ more, IsGap g.1 ∧ IsParagraph g.2) ∧
      List.Forall₂
        (fun block m => ∃ spill closing, Reads m block spill closing ∧
          (Covers m block ↔ spill = [] ∧ ∃ last, closing = [last] ∧ trim last = ['\x7d']))
        (first :: more.map Prod.snd) c.methods := by
  obtain ⟨before, head, body, after, split, start, header, hbody, taken, methods⟩ :=
    exists_of_parse (parse_of_ofSource h)
  obtain ⟨u, first, more, v, rfl, hu, hv, tight, hfirst, hmore⟩ :=
    exists_stacked_body (not_isGap_of_mapM methods)
  refine ⟨before, head, u, first, more, v, after, split, start, header, hbody, taken, hu, hv, tight,
    hfirst, hmore, ?_⟩
  rw [blocks_stacked hu hv hfirst hmore] at methods
  have paragraphs : ∀ block ∈ first :: more.map Prod.snd, IsParagraph block := by
    intro block hblock
    rcases List.mem_cons.mp hblock with rfl | later
    · exact hfirst
    · obtain ⟨g, hg, rfl⟩ := List.mem_map.mp later
      exact (hmore g hg).2
  have read := List.forall₂_map_left_iff.mp (forall₂_of_mapM methods)
  refine ((List.forall₂_and_left _ _).mpr ⟨paragraphs, read⟩).imp ?_
  rintro block m ⟨paragraph, hread⟩
  obtain ⟨spill, closing, reads⟩ := exists_reads paragraph hread
  exact ⟨spill, closing, reads, reads.covers_iff⟩

/-- A method with a statement behind the brace of its signature. -/
def spilling : Section :=
  ⟨[], ["    sign (path) \x7b const url = path;".toList, "        return url;".toList,
    "    \x7d".toList]⟩

theorem isLaid_spilling : ∀ s ∈ [spilling], s.IsLaid := by decide

theorem isHeader_foo : IsHeader "foo".toList "Exchange".toList
    ("module.exports = class " ++ "foo" ++ " extends " ++ "Exchange" ++ " \x7b").toList :=
  isHeader_spaced (by decide) (by decide)

theorem toList_statement_behind_brace :
    ("module.exports = class foo extends Exchange \x7b\n    sign (path) \x7b const url = path;\n" ++
      "        return url;\n    \x7d\n\x7d;\n").toList =
    classText []
      ("module.exports = class " ++ "foo" ++ " extends " ++ "Exchange" ++ " \x7b").toList
      [spilling] ";\n".toList := by
  decide +kernel

theorem ofSource_statement_behind_brace :
    ofSource "foo.js"
      ("module.exports = class foo extends Exchange \x7b\n    sign (path) \x7b const url = path;\n" ++
        "        return url;\n    \x7d\n\x7d;\n") =
      .ok ⟨"foo", "Exchange",
        [⟨"sign", false, [⟨"path", none⟩], "        return url;", ["path"]⟩]⟩ := by
  refine ofSource_eq_ok ?_
  rw [toList_statement_behind_brace, parse_classText isLaid_spilling (by decide) isHeader_foo
    (List.cons_ne_nil _ _)]
  exact eq_ok_of_toOption (by decide +kernel)

theorem body_statement_behind_brace : (headerPattern.find?
      ("module.exports = class foo extends Exchange \x7b\n    sign (path) \x7b const url = path;\n" ++
        "        return url;\n    \x7d\n\x7d;\n").toList).map (·.group 3) =
    some (bodyText [spilling]) := by
  have body := isBody_bodyText isLaid_spilling (List.cons_ne_nil _ _)
  obtain ⟨t, found⟩ := @find?_header [] _ _ _ _ (by decide) isHeader_foo body ";\n".toList
  rw [toList_statement_behind_brace, classText, found]
  rfl

/-- The statement is what is left of the first line of the block, and its last line is a closing
brace. -/
theorem exists_reads_statement_behind_brace :
    ∃ block spill closing,
      Reads ⟨"sign", false, [⟨"path", none⟩], "        return url;", ["path"]⟩ block spill closing ∧
      block = ["sign (path) \x7b const url = path;".toList, "        return url;".toList,
        "    \x7d".toList] ∧
      spill = " const url = path;".toList ∧ closing = ["    \x7d".toList] := by
  obtain ⟨-, -, u, block, more, v, -, -, -, -, -, taken, hu, hv, tight, paragraph, -, read⟩ :=
    exists_reads_of_ofSource ofSource_statement_behind_brace
  cases read with
  | cons here others =>
    obtain rfl : more = [] := List.map_eq_nil_iff.mp (List.forall₂_nil_right_iff.mp others)
    obtain ⟨spill, closing, reads, -⟩ := here
    have lines := splitOn_trim_body hu hv tight paragraph
    rw [← Option.some.inj (body_statement_behind_brace.symm.trans taken)] at lines
    obtain rfl : block = ["sign (path) \x7b const url = path;".toList, "        return url;".toList,
        "    \x7d".toList] := by
      rw [← lines]
      decide +kernel
    have signature : IsSignature false "sign".toList "path".toList "sign (path) \x7b".toList :=
      ⟨by decide, by decide, ' ', [' '], by decide, by decide, by decide⟩
    refine ⟨_, spill, closing, reads, rfl,
      reads.unique ⟨⟨_, _, ["        return url;".toList], _, rfl, ?_, signature, ?_, ?_⟩,
        .inr ⟨_, rfl⟩⟩⟩
    all_goals decide +kernel

/-- The statement is in no method: not in the body, and the first line is more than a signature. -/
theorem not_covers_statement_behind_brace :
    ofSource "foo.js"
        ("module.exports = class foo extends Exchange \x7b\n    sign (path) \x7b const url = path;\n" ++
          "        return url;\n    \x7d\n\x7d;\n") =
        .ok ⟨"foo", "Exchange",
          [⟨"sign", false, [⟨"path", none⟩], "        return url;", ["path"]⟩]⟩ ∧
      ¬ Covers ⟨"sign", false, [⟨"path", none⟩], "        return url;", ["path"]⟩
        ["    sign (path) \x7b const url = path;".toList, "        return url;".toList,
          "    \x7d".toList] := by
  refine ⟨ofSource_statement_behind_brace, ?_⟩
  rintro ⟨first, inner, last, args, lines, signature, -⟩
  obtain ⟨rfl, -⟩ := List.cons.inj lines
  exact absurd signature.getLast? (by decide)

end Polyglot.ClassDecl
