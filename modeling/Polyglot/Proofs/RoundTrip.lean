import Polyglot.Proofs.Blocks

/-!
Printing a class and reading it back. A `Draft` is a method before it is printed. The class that is
read from printed drafts has exactly their methods, if the parts of the drafts are plain enough that
their ends can be seen in the text (`Draft.IsPlain`).
-/

namespace Polyglot

open Pattern Text

/-- A name that no mark of a parameter list occurs in, such as an identifier. -/
structure IsName (w : List Char) : Prop where
  word : IsWord w
  plain : ∀ c ∈ [',', '(', ')', '='], c ∉ w

instance (w : List Char) : Decidable (IsName w) :=
  decidable_of_iff (IsWord w ∧ [',', '(', ')', '='].all (· ∉ w) = true)
    ⟨fun h => ⟨h.1, by simpa using h.2⟩, fun h => ⟨h.word, by simpa using h.plain⟩⟩

namespace Parameter

/-- `name` or `name = default`. -/
def print (p : Parameter) : List Char :=
  match p.default with
  | none => p.name.toList
  | some d => p.name.toList ++ " = ".toList ++ d.toList

structure IsPlain (p : Parameter) : Prop where
  isName : IsName p.name.toList
  tight : ∀ d ∈ p.default, IsTight d.toList
  unmarked : ∀ d ∈ p.default, ∀ c ∈ [',', ')', '\n'], c ∉ d.toList

instance (p : Parameter) : Decidable p.IsPlain :=
  decidable_of_iff (IsName p.name.toList ∧ (∀ d ∈ p.default, IsTight d.toList) ∧
      ∀ d ∈ p.default, [',', ')', '\n'].all (· ∉ d.toList) = true)
    ⟨fun h => ⟨h.1, h.2.1, by simpa using h.2.2⟩,
      fun h => ⟨h.isName, h.tight, by simpa using h.unmarked⟩⟩

def printAll (ps : List Parameter) : List Char :=
  join ", ".toList (ps.map print)

end Parameter

/-- A method before it is printed. -/
structure Draft where
  name : String
  isAsync : Bool
  parameters : List Parameter
  /-- The lines of the body. -/
  body : List String
  deriving DecidableEq, Repr

namespace Draft

def bodyText (d : Draft) : List Char :=
  join ['\n'] (d.body.map String.toList)

def method (d : Draft) : Method where
  name := d.name
  isAsync := d.isAsync
  parameters := d.parameters
  body := String.ofList d.bodyText
  bindings := ClassDecl.boundNames (d.parameters.map Parameter.name) d.bodyText

/-- `[async ]name (parameters) ` and a brace. -/
def signature (d : Draft) : List Char :=
  ClassDecl.asyncMark d.isAsync ++
    (d.name.toList ++ ' ' :: '(' :: (Parameter.printAll d.parameters ++ ')' :: ([' '] ++ ['\x7b'])))

def lines (d : Draft) : List (List Char) :=
  ("    ".toList ++ d.signature) :: (d.body.map String.toList ++ ["    \x7d".toList])

structure IsPlain (d : Draft) : Prop where
  word : IsWord d.name.toList
  parameters : ∀ p ∈ d.parameters, p.IsPlain
  filled : ∀ l ∈ d.body, ClassDecl.IsFilled l.toList
  noReturn : ∀ l ∈ d.body, l.toList.getLast? ≠ some '\r'
  indented : ∀ l ∈ d.body, l.toList.head? ≠ some '\x7d'

instance (d : Draft) : Decidable d.IsPlain :=
  decidable_of_iff (IsWord d.name.toList ∧ (∀ p ∈ d.parameters, p.IsPlain) ∧
      (∀ l ∈ d.body, ClassDecl.IsFilled l.toList) ∧ (∀ l ∈ d.body, l.toList.getLast? ≠ some '\r') ∧
      ∀ l ∈ d.body, l.toList.head? ≠ some '\x7d')
    ⟨fun ⟨word, parameters, filled, noReturn, indented⟩ => ⟨word, parameters, filled,
      noReturn, indented⟩, fun h => ⟨h.word, h.parameters, h.filled, h.noReturn, h.indented⟩⟩

end Draft

namespace ClassDecl

/-- The first line of a class. -/
def printHead (name base : String) : List Char :=
  ("module.exports = class " ++ name ++ " extends " ++ base ++ " \x7b").toList

/-- The text of a class, with a blank line between two methods. -/
def print (name base : String) (drafts : List Draft) : List Char :=
  unlines (printHead name base :: List.intercalate [[]] (drafts.map Draft.lines)) ++ "\x7d;".toList

/-! ### Parameters -/

theorem parseParameter_gaps {u v : List Char} (hu : IsGap u) (hv : IsGap v) (s : List Char) :
    parseParameter (u ++ s ++ v) = parseParameter s := by
  have solid : isBlank '=' = false := by decide
  have left (t : List Char) : trim (u ++ t) = trim t := by
    simpa using trim_append_gaps hu isGap_nil t
  have right (t : List Char) : trim (t ++ v) = trim t := by
    simpa using trim_append_gaps isGap_nil hv t
  by_cases equals : '=' ∈ s
  · obtain ⟨a, b, rfl, ha⟩ := List.eq_append_cons_of_mem equals
    have outer : '=' ∉ u ++ a := by
      simp only [List.mem_append, not_or]
      exact ⟨hu.ne solid, ha⟩
    have regroup : u ++ (a ++ '=' :: b) ++ v = (u ++ a) ++ '=' :: (b ++ v) := by simp
    rw [parseParameter, parseParameter, regroup, splitOnce?_append outer, splitOnce?_append ha]
    simp only [left, right]
  · have outer : '=' ∉ u ++ s ++ v := by
      simp only [List.mem_append, not_or]
      exact ⟨⟨hu.ne solid, equals⟩, hv.ne solid⟩
    rw [parseParameter, parseParameter, splitOnce?_of_not_mem outer, splitOnce?_of_not_mem equals]
    simp only [trim_append_gaps hu hv]

theorem parseParameter_print {p : Parameter} (h : p.IsPlain) : parseParameter p.print = p := by
  obtain ⟨name, default⟩ := p
  have noEquals : '=' ∉ name.toList := h.isName.plain '=' (by simp)
  have tight := h.isName.word.isTight
  cases default with
  | none =>
    change parseParameter name.toList = _
    rw [parseParameter, splitOnce?_of_not_mem noEquals]
    simp only [trim_of_isTight tight, String.ofList_toList]
  | some d =>
    have regroup : Parameter.print ⟨name, some d⟩ = (name.toList ++ [' ']) ++ '=' ::
        (' ' :: d.toList) := by
      simp [Parameter.print]
    have outer : '=' ∉ name.toList ++ [' '] := by simp [noEquals]
    have hname : trim (name.toList ++ [' ']) = name.toList := by
      simpa using trim_eq isGap_nil tight (v := [' ']) (by decide)
    have hd : trim (' ' :: d.toList) = d.toList := by
      simpa using trim_eq (u := [' ']) (by decide) (h.tight d rfl) isGap_nil
    rw [regroup, parseParameter, splitOnce?_append outer]
    simp only [hname, hd, String.ofList_toList]

/-- Blank characters around a list of parameters make no difference. -/
theorem map_parseParameter_gaps {u v : List Char} (hu : IsGap u) (hv : IsGap v) (s : List Char) :
    (splitOn ',' (u ++ s ++ v)).map parseParameter = (splitOn ',' s).map parseParameter := by
  have solid : isBlank ',' = false := by decide
  obtain ⟨x, xs, hx⟩ := List.exists_cons_of_ne_nil (splitOn_ne_nil ',' s)
  have left : (splitOn ',' (u ++ s)).map parseParameter = (splitOn ',' s).map parseParameter := by
    rw [splitOn_append_left (hu.ne solid) hx, hx, List.map_cons, List.map_cons]
    simpa using parseParameter_gaps hu isGap_nil x
  rcases List.eq_nil_or_concat (splitOn ',' (u ++ s)) with none | ⟨ys, y, hy⟩
  · exact absurd none (splitOn_ne_nil _ _)
  · rw [List.concat_eq_append] at hy
    rw [← left, splitOn_append_right (hv.ne solid) hy, hy, List.map_append, List.map_append]
    simpa using parseParameter_gaps isGap_nil hv y

theorem parseParameters_eq {s : List Char} (h : ¬ IsGap s) :
    parseParameters s = (splitOn ',' s).map parseParameter := by
  obtain ⟨u, v, hu, hv, -, split⟩ := exists_trim s
  have full : (trim s).isEmpty = false := by simpa using trim_ne_nil h
  rw [parseParameters]
  simp only [full, Bool.false_eq_true, if_false]
  conv => rhs; rw [split]
  exact (map_parseParameter_gaps hu hv (trim s)).symm

theorem splitOn_join_spaced {x : List Char} {xs : List (List Char)}
    (free : ∀ l ∈ x :: xs, ',' ∉ l) :
    splitOn ',' (join ", ".toList (x :: xs)) = x :: xs.map (' ' :: ·) := by
  have spaced : join ", ".toList (x :: xs) = join [','] (x :: xs.map (' ' :: ·)) := by
    clear free
    induction xs generalizing x with
    | nil => rfl
    | cons y ys ih =>
      obtain ⟨r, hr⟩ := exists_join_cons [','] (ys.map (' ' :: ·))
      rw [join_cons_cons, ih, List.map_cons, join_cons_cons, hr, hr]
      simp
  rw [spaced, splitOn_join (List.cons_ne_nil _ _)]
  intro l hl
  rcases List.mem_cons.mp hl with rfl | later
  · exact free l List.mem_cons_self
  · obtain ⟨k, hk, rfl⟩ := List.mem_map.mp later
    simpa using free k (List.mem_cons_of_mem _ hk)

theorem print_parameter (p : Parameter) :
    p.print = p.name.toList ∨ ∃ d ∈ p.default, p.print =
      p.name.toList ++ ' ' :: '=' :: ' ' :: d.toList := by
  obtain ⟨name, default⟩ := p
  cases default with
  | none => exact .inl rfl
  | some d => exact .inr ⟨d, rfl, by simp [Parameter.print]⟩

theorem not_mem_print {p : Parameter} (h : p.IsPlain) {c : Char} (hc : c ∈ [',', ')', '\n']) :
    c ∉ p.print := by
  have inName : c ∉ p.name.toList := by
    intro mem
    simp only [List.mem_cons, List.not_mem_nil, or_false] at hc
    rcases hc with rfl | rfl | rfl
    · exact h.isName.plain ',' (by simp) mem
    · exact h.isName.plain ')' (by simp) mem
    · exact absurd (h.isName.word.solid '\n' mem) (by decide)
  rcases print_parameter p with text | ⟨d, hd, text⟩
  · rwa [text]
  · have between : c ∉ [' ', '=', ' '] := by
      intro mem
      simp only [List.mem_cons, List.not_mem_nil, or_false] at hc mem
      rcases hc with rfl | rfl | rfl <;> simp at mem
    have inDefault := h.unmarked d hd c hc
    rw [text]
    simp only [List.mem_append, List.mem_cons, List.not_mem_nil, or_false, not_or] at between ⊢
    exact ⟨inName, between.1, between.2.1, between.2.2, inDefault⟩

theorem exists_printAll_cons (p : Parameter) (ps : List Parameter) :
    ∃ r, Parameter.printAll (p :: ps) = p.name.toList ++ r := by
  obtain ⟨r, hr⟩ := exists_join_cons ", ".toList (ps.map Parameter.print)
  have whole : Parameter.printAll (p :: ps) = p.print ++ r := hr p.print
  rcases print_parameter p with text | ⟨d, -, text⟩
  · exact ⟨r, by rw [whole, text]⟩
  · exact ⟨_, by rw [whole, text, List.append_assoc]⟩

theorem parseParameters_printAll {ps : List Parameter} (h : ∀ p ∈ ps, p.IsPlain) :
    parseParameters (Parameter.printAll ps) = ps := by
  cases ps with
  | nil => rfl
  | cons p ps =>
    have visible : ¬ IsGap (Parameter.printAll (p :: ps)) := by
      obtain ⟨r, hr⟩ := exists_printAll_cons p ps
      obtain ⟨c, w, hw⟩ := List.exists_cons_of_ne_nil (h p List.mem_cons_self).isName.word.full
      intro gap
      have blank := gap c (by simp [hr, hw])
      rw [(h p List.mem_cons_self).isName.word.solid c (by simp [hw])] at blank
      cases blank
    have free : ∀ l ∈ p.print :: ps.map Parameter.print, ',' ∉ l := by
      intro l hl
      obtain ⟨q, hq, rfl⟩ := List.mem_map.mp (show l ∈ (p :: ps).map Parameter.print from hl)
      exact not_mem_print (h q hq) (by simp)
    have spaced : ∀ q ∈ ps, ((parseParameter ∘ (' ' :: ·)) ∘ Parameter.print) q = q := by
      intro q hq
      have read := parseParameter_print (h q (List.mem_cons_of_mem _ hq))
      rw [← parseParameter_gaps (u := [' ']) (by decide) isGap_nil] at read
      simpa using read
    rw [parseParameters_eq visible, Parameter.printAll, List.map_cons, splitOn_join_spaced free,
      List.map_cons, List.map_map, List.map_map, parseParameter_print (h p List.mem_cons_self),
      List.map_congr_left spaced, List.map_id']

/-! ### Signatures -/

theorem not_mem_printAll {ps : List Parameter} (h : ∀ p ∈ ps, p.IsPlain) {c : Char}
    (hc : c ∈ [')', '\n']) : c ∉ Parameter.printAll ps := by
  intro mem
  rcases mem_join mem with between | ⟨l, hl, inside⟩
  · simp only [List.mem_cons, List.not_mem_nil, or_false] at hc
    rcases hc with rfl | rfl <;> simp at between
  · obtain ⟨p, hp, rfl⟩ := List.mem_map.mp hl
    exact not_mem_print (h p hp) (List.mem_cons_of_mem _ hc) inside

theorem isSignature_signature {d : Draft} (h : d.IsPlain) :
    IsSignature d.isAsync d.name.toList (Parameter.printAll d.parameters) d.signature where
  word := h.word
  closed := not_mem_printAll h.parameters (by simp)
  spelled := ⟨' ', [' '], by decide, by decide, rfl⟩

/-- What stands behind the first blank of a parameter list is no parenthesis. -/
theorem exists_behind_blank {ps : List Parameter} (h : ∀ p ∈ ps, p.IsPlain) (r : List Char) :
    ∃ k x t, Parameter.printAll ps ++ ')' :: ' ' :: '\x7b' :: r = k ++ ' ' :: x :: t ∧
      (∀ c ∈ k, isBlank c = false) ∧ x ≠ '(' := by
  cases ps with
  | nil =>
    have word : IsWord [')'] := by decide
    exact ⟨[')'], '\x7b', r, rfl, word.solid, by decide⟩
  | cons p ps =>
    have hp := (h p List.mem_cons_self).isName.word.solid
    have solid {c : Char} (hc : isBlank c = false) :
        ∀ e ∈ p.name.toList ++ [c], isBlank e = false := by
      intro e he
      rcases List.mem_append.mp he with inside | last
      · exact hp e inside
      · rwa [List.mem_singleton.mp last]
    obtain ⟨s, hs⟩ := exists_join_cons ", ".toList (ps.map Parameter.print)
    have whole : Parameter.printAll (p :: ps) = p.print ++ s := hs p.print
    rcases print_parameter p with text | ⟨d, -, text⟩
    · cases ps with
      | nil =>
        refine ⟨p.name.toList ++ [')'], '\x7b', r, ?_, solid (by decide), by decide⟩
        simp [Parameter.printAll, join, text]
      | cons q qs =>
        have hq := (h q (by simp)).isName
        obtain ⟨s', hs'⟩ := exists_printAll_cons q qs
        obtain ⟨c, w, hw⟩ := List.exists_cons_of_ne_nil hq.word.full
        refine ⟨p.name.toList ++ [','], c, w ++ s' ++ ')' :: ' ' :: '\x7b' :: r, ?_,
          solid (by decide), ?_⟩
        · have more : Parameter.printAll (p :: q :: qs) =
              p.print ++ ", ".toList ++ Parameter.printAll (q :: qs) := rfl
          rw [more, hs', hw, text]
          simp
        · rintro rfl
          exact hq.plain '(' (by simp) (by simp [hw])
    · refine ⟨p.name.toList, '=', ' ' :: d.toList ++ s ++ ')' :: ' ' :: '\x7b' :: r, ?_, hp,
        by decide⟩
      rw [whole, text]
      simp

/-- A method that is named `async` and not marked is not taken for a marked one. -/
theorem unmarked_signature {d : Draft} (h : d.IsPlain) (plain : d.isAsync = false)
    (name' args' text' r' : List Char) (same : d.signature ++ [] = text' ++ r') :
    ¬ IsSignature true name' args' text' := by
  intro marked
  obtain ⟨b, gap, hb, -, rfl⟩ := marked.spelled
  have begins :
      d.name.toList ++ ' ' :: '(' :: (Parameter.printAll d.parameters ++ [')', ' ', '\x7b']) =
      "async".toList ++ ' ' :: (name' ++ b :: '(' :: (args' ++ ')' :: (gap ++ '\x7b' :: r'))) := by
    simpa [Draft.signature, plain, asyncMark] using same
  have mark : IsWord "async".toList := by decide
  obtain ⟨-, -, behind⟩ :=
    first_unique (p := isBlank) h.word.solid mark.solid (by decide) (by decide) begins
  obtain ⟨k, x, t, parameters, solid, hx⟩ := exists_behind_blank h.parameters []
  rw [parameters] at behind
  have solid' : ∀ c ∈ '(' :: k, isBlank c = false := by
    intro c hc
    rcases List.mem_cons.mp hc with rfl | later
    · decide
    · exact solid c later
  obtain ⟨-, -, parenthesis⟩ :=
    first_unique (p := isBlank) solid' marked.word.solid (by decide) hb behind
  exact hx (List.cons.inj parenthesis).1

theorem find?_signature_draft {d : Draft} (h : d.IsPlain) :
    signaturePattern.find? d.signature =
      some ⟨d.signature, (3, Parameter.printAll d.parameters) :: (2, d.name.toList) ::
        if d.isAsync then [(1, asyncMark true)] else []⟩ := by
  have isSignature := isSignature_signature h
  cases hasync : d.isAsync with
  | true =>
    rw [hasync] at isSignature
    simpa using isSignature.find?_of_async []
  | false =>
    rw [hasync] at isSignature
    simpa using isSignature.find?_of_plain (r := []) (unmarked_signature h hasync)

/-! ### Methods -/

theorem not_mem_signature {d : Draft} (h : d.IsPlain) : '\n' ∉ d.signature := by
  have inName : '\n' ∉ d.name.toList := fun mem => absurd (h.word.solid _ mem) (by decide)
  have inMark : '\n' ∉ asyncMark d.isAsync := by cases d.isAsync <;> decide
  have inParameters := not_mem_printAll h.parameters (c := '\n') (by simp)
  simp [Draft.signature, inName, inMark, inParameters]

theorem isTight_signature {d : Draft} (h : d.IsPlain) : IsTight d.signature := by
  constructor
  · intro c hc
    obtain ⟨x, w, hw⟩ := List.exists_cons_of_ne_nil h.word.full
    have solid := h.word.solid x (by simp [hw])
    cases hasync : d.isAsync with
    | true =>
      obtain rfl : 'a' = c := by simpa [Draft.signature, hasync, asyncMark] using hc
      decide
    | false =>
      obtain rfl : x = c := by simpa [Draft.signature, hasync, asyncMark, hw] using hc
      exact solid
  · intro c hc
    obtain rfl : '\x7b' = c := by
      simpa [Draft.signature, List.getLast?_append, List.getLast?_cons] using hc
    decide

/-- A method and the blank line above it. -/
def sectionOf (d : Draft) : Section :=
  ⟨[], d.lines⟩

theorem isLaid_sectionOf {d : Draft} (h : d.IsPlain) : (sectionOf d).IsLaid := by
  have lines : ∀ l ∈ d.lines, IsFilled l ∧ l.head? ≠ some '\x7d' := by
    intro l hl
    rcases List.mem_cons.mp hl with rfl | hl
    · refine ⟨⟨?_, fun gap => ?_⟩, by simp⟩
      · simp [not_mem_signature h]
      · have blank := gap '\x7b' (by simp [Draft.signature])
        exact absurd blank (by decide)
    · rcases List.mem_append.mp hl with inside | last
      · obtain ⟨k, hk, rfl⟩ := List.mem_map.mp inside
        exact ⟨h.filled k hk, h.indented k hk⟩
      · obtain rfl := List.mem_singleton.mp last
        exact ⟨⟨by decide, by decide⟩, by decide⟩
  exact {
    blank := isGap_nil
    line := List.not_mem_nil
    paragraph := ⟨List.cons_ne_nil _ _, fun l hl => (lines l hl).1⟩
    indented := fun l hl => (lines l hl).2 }

theorem parseMethod_sectionOf {d : Draft} (h : d.IsPlain) :
    parseMethod (sectionOf d).block = .ok d.method := by
  have kept : (d.body.map String.toList).map stripReturn = d.body.map String.toList := by
    rw [List.map_map]
    refine List.map_congr_left fun l hl => ?_
    simp [stripReturn, h.noReturn l hl]
  have first : trim ("    ".toList ++ d.signature) = d.signature := by
    simpa using trim_eq (u := "    ".toList) (by decide) (isTight_signature h) isGap_nil
  have read : methodOf ⟨d.signature, (3, Parameter.printAll d.parameters) :: (2, d.name.toList) ::
      if d.isAsync then [(1, asyncMark true)] else []⟩ d.bodyText = d.method := by
    rw [methodOf_groups, parseParameters_printAll h.parameters, String.ofList_toList]
    rfl
  rw [Section.block, sectionOf, Draft.lines,
    parseMethod_paragraph (isLaid_sectionOf h).paragraph, first,
    find?_signature_draft h, List.dropLast_concat, kept]
  exact congrArg Except.ok read

/-! ### Classes -/

theorem intercalate_blank {xs : List (List (List Char))} (full : xs ≠ []) :
    xs.flatMap ([] :: ·) = [] :: List.intercalate [[]] xs := by
  induction xs with
  | nil => exact absurd rfl full
  | cons x xs ih =>
    cases xs with
    | nil => simp [List.intercalate]
    | cons y ys => rw [List.flatMap_cons, ih (List.cons_ne_nil _ _)]; simp [List.intercalate]

theorem append_print_append {name base : String} {drafts : List Draft} (full : drafts ≠ [])
    (preamble : List (List Char)) (after : List Char) :
    unlines preamble ++ print name base drafts ++ after =
      classText preamble (printHead name base) (drafts.map sectionOf) (';' :: after) := by
  have lines : (drafts.map sectionOf).flatMap (fun s => s.gap :: s.lines) =
      [] :: List.intercalate [[]] (drafts.map Draft.lines) := by
    rw [← intercalate_blank (by simpa using full), List.flatMap_map, List.flatMap_map]
    rfl
  rw [classText, bodyText, lines, print]
  simp [unlines_cons]

/-- Printed drafts are read back, below any lines none of which begins with `module.exports` and
before any text at all. -/
theorem ofSource_printed (file : String) {preamble : List (List Char)} {name base : String}
    {drafts : List Draft} (hpreamble : IsPreamble preamble) (hname : IsWord name.toList)
    (hbase : IsWord base.toList) (full : drafts ≠ []) (plain : ∀ d ∈ drafts, d.IsPlain)
    (after : List Char) :
    ofSource file (String.ofList (unlines preamble ++ print name base drafts ++ after)) =
      .ok ⟨name, base, drafts.map Draft.method⟩ := by
  have laid : ∀ s ∈ drafts.map sectionOf, s.IsLaid := by
    intro s hs
    obtain ⟨d, hd, rfl⟩ := List.mem_map.mp hs
    exact isLaid_sectionOf (plain d hd)
  have methods : ((drafts.map sectionOf).map Section.block).mapM parseMethod =
      .ok (drafts.map Draft.method) := by
    rw [List.map_map, List.mapM_map]
    refine mapM_eq_ok fun d hd => ?_
    rw [Function.comp_apply, Function.comp_apply, parseMethod_sectionOf (plain d hd)]
  have read := parse_classText laid hpreamble (isHeader_spaced hname hbase) (by simpa using full)
    (';' :: after)
  rw [methods, ← printHead, ← append_print_append full, String.ofList_toList,
    String.ofList_toList] at read
  refine ofSource_eq_ok ?_
  rw [String.toList_ofList]
  exact read

theorem ofSource_printed_pair :
    ofSource "foo.js"
      ("const n = 1;\nmodule.exports = class foo extends Exchange \x7b\n" ++
        "    async sign (path, api = 'public') \x7b\n        return path;\n    \x7d\n\n" ++
        "    async () \x7b\n    \x7d\n\x7d;\n") =
      .ok ⟨"foo", "Exchange",
        [⟨"sign", true, [⟨"path", none⟩, ⟨"api", some "'public'"⟩], "        return path;",
          ["path", "api"]⟩, ⟨"async", false, [], "", []⟩]⟩ := by
  have read := @ofSource_printed "foo.js" ["const n = 1;".toList] "foo" "Exchange"
    [⟨"sign", true, [⟨"path", none⟩, ⟨"api", some "'public'"⟩], ["        return path;"]⟩,
      ⟨"async", false, [], []⟩]
    (by decide) (by decide) (by decide) (by decide) (by decide) ['\n']
  refine Eq.trans (congrArg (ofSource "foo.js") ?_) (read.trans (congrArg Except.ok ?_))
  · decide +kernel
  · decide +kernel

end ClassDecl

end Polyglot
