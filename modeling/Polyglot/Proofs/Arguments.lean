import Polyglot.Proofs.Blocks
import Polyglot.Proofs.Results
import Polyglot.Render.Class

/-!
Signatures read back. `readSignature` takes the frame of a signature off, cuts what is left at the
commas and each piece at its first equals sign. The parts of a parameter that was read from a source
hold no mark at which a signature is cut (`Parameter.IsCut`), and respelling a default puts none in,
so what is read from a rendered signature are the parameters that were rendered
(`readSignature_signature`).
-/

namespace Polyglot

namespace Text

/-- The text without a beginning, if it has that beginning. -/
def stripStart? (beginning s : List Char) : Option (List Char) :=
  if beginning.isPrefixOf s then some (s.drop beginning.length) else none

/-- The first `skip` characters belong to the separator before. -/
def piecesFrom (sep : List Char) : (skip : Nat) → List Char → List (List Char)
  | _, [] => [[]]
  | skip + 1, _ :: rest => piecesFrom sep skip rest
  | 0, c :: rest =>
    if sep.isPrefixOf (c :: rest) then [] :: piecesFrom sep (sep.length - 1) rest
    else (piecesFrom sep 0 rest).modifyHead (c :: ·)

/-- What stands between the occurrences of a separator, from left to right. -/
def pieces (sep s : List Char) : List (List Char) :=
  piecesFrom sep 0 s

/-- The text before and the text behind the first occurrence of a separator. -/
def cutOnce? (sep : List Char) : List Char → Option (List Char × List Char)
  | [] => if sep.isEmpty then some ([], []) else none
  | c :: rest =>
    if sep.isPrefixOf (c :: rest) then some ([], (c :: rest).drop sep.length)
    else (cutOnce? sep rest).map fun p => (c :: p.1, p.2)

theorem stripStart?_append (beginning s : List Char) :
    stripStart? beginning (beginning ++ s) = some s := by
  simp [stripStart?]

section Pieces

variable {x : Char} {sep : List Char}

/-- A separator does not begin in a text that lacks its first character. -/
theorem piecesFrom_append {l : List Char} (free : x ∉ l) (r : List Char) :
    piecesFrom (x :: sep) 0 (l ++ r) = (piecesFrom (x :: sep) 0 r).modifyHead (l ++ ·) := by
  induction l with
  | nil => cases h : piecesFrom (x :: sep) 0 r <;> simp [h]
  | cons c l ih =>
    have other : x ≠ c := fun same => free (same ▸ List.mem_cons_self)
    have rest := ih fun mem => free (List.mem_cons_of_mem _ mem)
    rw [List.cons_append, piecesFrom, if_neg (by simp [other]), rest, List.modifyHead_modifyHead]
    rfl

theorem piecesFrom_skip (w r : List Char) :
    piecesFrom sep w.length (w ++ r) = piecesFrom sep 0 r := by
  induction w with
  | nil => rfl
  | cons c w ih =>
    rw [List.cons_append, List.length_cons, piecesFrom]
    exact ih

theorem piecesFrom_sep (r : List Char) :
    piecesFrom (x :: sep) 0 (x :: sep ++ r) = [] :: piecesFrom (x :: sep) 0 r := by
  rw [List.cons_append, piecesFrom, if_pos (by simp), List.length_cons,
    Nat.add_sub_cancel, piecesFrom_skip]

/-- Joined texts are the pieces again. -/
theorem pieces_intercalate {ls : List (List Char)} (full : ls ≠ []) (free : ∀ l ∈ ls, x ∉ l) :
    pieces (x :: sep) ((x :: sep).intercalate ls) = ls := by
  rw [pieces]
  induction ls with
  | nil => exact absurd rfl full
  | cons l ls ih =>
    obtain ⟨here, others⟩ := List.forall_mem_cons.mp free
    cases ls with
    | nil =>
      rw [List.intercalate_singleton]
      simpa [piecesFrom] using @piecesFrom_append x sep l here []
    | cons k ls =>
      rw [List.intercalate_cons_cons, List.append_assoc, piecesFrom_append here, piecesFrom_sep,
        ih (List.cons_ne_nil _ _) others]
      simp

end Pieces

section Cut

variable {x : Char} {u v : List Char}

/-- A mark that the text lacks shows where the separator stands for the first time. -/
theorem cutOnce?_append (hu : x ∉ u) {l : List Char} (hl : x ∉ l) (r : List Char) :
    cutOnce? (u ++ x :: v) (l ++ (u ++ x :: v) ++ r) = some (l, r) := by
  induction l with
  | nil =>
    have first : ∃ c t, u ++ x :: v = c :: t := List.exists_cons_of_ne_nil (by simp)
    obtain ⟨c, t, first⟩ := first
    rw [first, List.nil_append, List.cons_append, cutOnce?, if_pos (by simp)]
    simp
  | cons c l ih =>
    -- Here already it would have its mark before the one that is the first.
    have later : ¬ (u ++ x :: v).isPrefixOf (c :: (l ++ (u ++ x :: v) ++ r)) := by
      rw [List.isPrefixOf_iff_prefix]
      rintro ⟨t, same⟩
      have regroup : u ++ x :: (v ++ t) = (c :: l ++ u) ++ x :: (v ++ r) := by simpa using same
      have outer : x ∉ c :: l ++ u := by
        rw [List.mem_append, not_or]
        exact ⟨hl, hu⟩
      have length := congrArg List.length (split_unique hu outer regroup).1
      simp only [List.length_append, List.length_cons] at length
      omega
    rw [List.cons_append, List.cons_append, cutOnce?, if_neg later,
      ih fun mem => hl (List.mem_cons_of_mem _ mem)]
    rfl

theorem cutOnce?_of_not_mem {s : List Char} (h : x ∉ s) : cutOnce? (u ++ x :: v) s = none := by
  induction s with
  | nil => rw [cutOnce?, if_neg (by simp)]
  | cons c s ih =>
    have never : ¬ (u ++ x :: v).isPrefixOf (c :: s) := by
      rw [List.isPrefixOf_iff_prefix]
      exact fun within => h (within.subset (by simp))
    rw [cutOnce?, if_neg never, ih fun mem => h (List.mem_cons_of_mem _ mem)]
    rfl

end Cut

theorem not_mem_replaceFrom {c : Char} {old new : List Char} (added : c ∉ new)
    {s : List Char} (h : c ∉ s) (skip : Nat) : c ∉ replaceFrom old new skip s := by
  induction s generalizing skip with
  | nil => exact h
  | cons d s ih =>
    rw [List.mem_cons, not_or] at h
    cases skip with
    | succ skip => exact ih h.2 skip
    | zero =>
      rw [replaceFrom]
      split
      · rw [List.mem_append, not_or]
        exact ⟨added, ih h.2 _⟩
      · rw [List.mem_cons, not_or]
        exact ⟨h.1, ih h.2 0⟩

end Text

open Text

/-! ### Parameters that were read -/

/-- Neither the name nor the default of the parameter holds a mark that ends it. -/
structure Parameter.IsCut (p : Parameter) : Prop where
  name : ',' ∉ p.name.toList ∧ '=' ∉ p.name.toList
  default : ∀ d ∈ p.default, ',' ∉ d.toList

namespace ClassDecl

theorem mem_of_mem_trim {c : Char} {s : List Char} (h : c ∈ trim s) : c ∈ s := by
  obtain ⟨u, v, -, -, -, split⟩ := exists_trim s
  rw [split]
  simp [h]

theorem isCut_parseParameter {s : List Char} (h : ',' ∉ s) : (parseParameter s).IsCut := by
  have off {t : List Char} (sub : t ⊆ s) : ',' ∉ (String.ofList (trim t)).toList := by
    rw [String.toList_ofList]
    exact fun mem => h (sub (mem_of_mem_trim mem))
  by_cases equals : '=' ∈ s
  · obtain ⟨a, b, rfl, ha⟩ := List.eq_append_cons_of_mem equals
    rw [parseParameter, splitOnce?_append ha]
    refine ⟨⟨off (List.subset_append_left _ _), ?_⟩, ?_⟩
    · rw [String.toList_ofList]
      exact fun mem => ha (mem_of_mem_trim mem)
    · rintro d ⟨⟩
      exact off fun c hc => List.mem_append_right _ (List.mem_cons_of_mem _ hc)
  · rw [parseParameter, splitOnce?_of_not_mem equals]
    refine ⟨⟨off fun _ hc => hc, ?_⟩, ?_⟩
    · rw [String.toList_ofList]
      exact fun mem => equals (mem_of_mem_trim mem)
    · rintro d ⟨⟩

theorem isCut_of_mem_parseParameters {s : List Char} : ∀ p ∈ parseParameters s, p.IsCut := by
  intro p mem
  rw [parseParameters] at mem
  split at mem
  · cases mem
  · obtain ⟨piece, inside, rfl⟩ := List.mem_map.mp mem
    exact isCut_parseParameter (not_mem_of_mem_splitOn inside)

theorem isCut_of_parseMethod {block : List Char} {m : Method} (h : parseMethod block = .ok m) :
    ∀ p ∈ m.parameters, p.IsCut := by
  rw [parseMethod] at h
  split at h
  · cases h
  · cases h
    exact isCut_of_mem_parseParameters

/-- The parameters of a class that was read. -/
theorem isCut_of_ofSource {file contents : String} {c : ClassDecl}
    (h : ofSource file contents = .ok c) {m : Method} (hm : m ∈ c.methods) :
    ∀ p ∈ m.parameters, p.IsCut := by
  obtain ⟨-, -, body, -, -, -, -, -, -, read⟩ := exists_of_parse (parse_of_ofSource h)
  exact forall_mem_of_mapM read (fun _ _ _ => isCut_of_parseMethod) m hm

end ClassDecl

/-! ### Reading a signature -/

namespace Render

/-- The parameter with its default in the spelling of a target. -/
def respelled (table : List (String × String)) (p : Parameter) : Parameter :=
  { p with default := p.default.map (respell table) }

/-- How a target writes a parameter: what stands before its name, and around the equals sign before
its default. -/
structure ArgumentStyle where
  sigil : List Char
  left : List Char
  right : List Char
  plain : ',' ∉ sigil ++ (left ++ '=' :: right)
  first : '=' ∉ left

namespace ArgumentStyle

def equals (style : ArgumentStyle) : List Char :=
  style.left ++ '=' :: style.right

def write (style : ArgumentStyle) (p : Parameter) : List Char :=
  style.sigil ++ (p.name.toList ++ p.default.elim [] fun d => style.equals ++ d.toList)

/-- Takes the sigil off, and cuts at the first equals sign in the target's style. -/
def read (style : ArgumentStyle) (piece : List Char) : Parameter :=
  let bare := (stripStart? style.sigil piece).getD piece
  ((cutOnce? style.equals bare).map fun p => ⟨String.ofList p.1, some (String.ofList p.2)⟩).getD
    ⟨String.ofList bare, none⟩

variable {style : ArgumentStyle} {p : Parameter}

theorem read_write (cut : p.IsCut) : style.read (style.write p) = p := by
  obtain ⟨name, default⟩ := p
  rw [read, write, stripStart?_append, Option.getD_some]
  cases default with
  | none =>
    simp only [Option.elim_none, List.append_nil, equals, cutOnce?_of_not_mem cut.name.2]
    simp
  | some d =>
    have first := cutOnce?_append (v := style.right) style.first cut.name.2 d.toList
    rw [List.append_assoc] at first
    simp only [Option.elim_some, equals, first]
    simp

theorem not_mem_write (cut : p.IsCut) : ',' ∉ style.write p := by
  obtain ⟨name, default⟩ := p
  have plain := style.plain
  rw [List.mem_append, not_or] at plain
  rw [write, List.mem_append, List.mem_append, not_or, not_or]
  refine ⟨plain.1, cut.name.1, ?_⟩
  cases default with
  | none => exact List.not_mem_nil
  | some d =>
    rw [Option.elim_some, List.mem_append, not_or]
    exact ⟨plain.2, cut.default d rfl⟩

/-- The texts of parameters are what their style writes. -/
theorem map_toList_argument {sigil equals : String} (before : sigil.toList = style.sigil)
    (between : equals.toList = style.equals) (table : List (String × String))
    (ps : List Parameter) :
    (ps.map (argument sigil equals table)).map String.toList =
    (ps.map (respelled table)).map style.write := by
  rw [List.map_map, List.map_map]
  refine List.map_congr_left fun p _ => ?_
  obtain ⟨name, default⟩ := p
  cases default <;> simp [argument, write, respelled, before, between]

theorem map_read_write {ps : List Parameter} (cut : ∀ p ∈ ps, p.IsCut) :
    (ps.map style.write).map style.read = ps := by
  rw [List.map_map]
  exact (List.map_congr_left fun p hp => read_write (cut p hp)).trans (List.map_id ps)

/-- Parameters behind other texts without commas are cut apart again. -/
theorem pieces_write {others : List (List Char)} {ps : List Parameter}
    (free : ∀ l ∈ others, ',' ∉ l) (cut : ∀ p ∈ ps, p.IsCut)
    (full : others ++ ps.map style.write ≠ []) :
    pieces ", ".toList (", ".toList.intercalate (others ++ ps.map style.write)) =
      others ++ ps.map style.write := by
  refine pieces_intercalate full fun l mem => ?_
  rcases List.mem_append.mp mem with before | later
  · exact free l before
  · obtain ⟨p, hp, rfl⟩ := List.mem_map.mp later
    exact not_mem_write (cut p hp)

end ArgumentStyle

/-- Respelling puts in no comma. -/
theorem not_mem_respell {c : Char} {table : List (String × String)}
    (plain : ∀ row ∈ table, c ∉ row.2.toList) {s : String} (h : c ∉ s.toList) :
    c ∉ (respell table s).toList := by
  rw [respell, String.toList_ofList]
  generalize s.toList = t at h
  induction table generalizing t with
  | nil => exact h
  | cons row table ih =>
    obtain ⟨here, others⟩ := List.forall_mem_cons.mp plain
    exact ih others _ (not_mem_replaceFrom here h 0)

theorem isCut_respelled {table : List (String × String)} (plain : ∀ row ∈ table, ',' ∉ row.2.toList)
    {ps : List Parameter} (cut : ∀ p ∈ ps, p.IsCut) : ∀ p ∈ ps.map (respelled table), p.IsCut := by
  intro p mem
  obtain ⟨q, hq, rfl⟩ := List.mem_map.mp mem
  refine ⟨(cut q hq).name, fun d hd => ?_⟩
  obtain ⟨d', hd', rfl⟩ := Option.map_eq_some_iff.mp hd
  exact not_mem_respell plain ((cut q hq).default d' hd')

/-! ### Python -/

namespace Python

def style : ArgumentStyle where
  sigil := []
  left := []
  right := []
  plain := by decide
  first := by decide

/-- The parameters in `[async ]def name(self, ..):`. -/
def readSignature (name : String) (s : List Char) : Option (List Parameter) := do
  let s := (stripStart? "async ".toList s).getD s
  let s ← stripStart? ("def " ++ name ++ "(").toList s
  let s ← stripEnd? "):".toList s
  if (pieces ", ".toList s).head? =
    some "self".toList then some ((pieces ", ".toList s).tail.map style.read) else none

theorem toList_signature (target : Target) (m : Method) : (signature target m).toList =
    (if m.isAsync && target.isAsync then "async ".toList else []) ++
      (("def " ++ Name.underscored m.name ++ "(").toList ++
        (", ".toList.intercalate (["self".toList] ++
          (m.parameters.map (respelled literals)).map style.write) ++
          "):".toList)) := by
  have each := @ArgumentStyle.map_toList_argument style "" "=" rfl rfl literals m.parameters
  have keyword : (if m.isAsync && target.isAsync then "async " else "").toList =
      if m.isAsync && target.isAsync then "async ".toList else [] := by
    split <;> rfl
  unfold signature
  simp only [String.toList_append, String.toList_intercalate, List.map_cons, each, keyword,
    List.append_assoc, List.singleton_append]

theorem readSignature_signature {m : Method} (cut : ∀ p ∈ m.parameters, p.IsCut) (target : Target) :
    readSignature (Name.underscored m.name) (signature target m).toList =
      some (m.parameters.map (respelled literals)) := by
  have cut' := @isCut_respelled literals (by decide +kernel) _ cut
  have apart := @ArgumentStyle.pieces_write style ["self".toList] _ (by decide) cut' (by simp)
  have bare (t : List Char) : (stripStart? "async ".toList
      ((if m.isAsync && target.isAsync then "async ".toList else []) ++
        (("def " ++ Name.underscored m.name ++ "(").toList ++ t))).getD
      ((if m.isAsync && target.isAsync then "async ".toList else []) ++
        (("def " ++ Name.underscored m.name ++ "(").toList ++ t)) =
      ("def " ++ Name.underscored m.name ++ "(").toList ++ t := by
    split
    · rw [stripStart?_append, Option.getD_some]
    · simp [stripStart?]
  simp only [readSignature, toList_signature, bare, stripStart?_append, stripEnd?_append, apart,
    Option.bind_eq_bind, Option.bind_some]
  simp only [List.singleton_append, List.head?_cons, List.tail_cons,
    ArgumentStyle.map_read_write cut']
  rfl

end Python

/-! ### PHP -/

namespace Php

def style : ArgumentStyle where
  sigil := ['$']
  left := [' ']
  right := [' ']
  plain := by decide
  first := by decide

/-- The parameters in `public function name (..) ` and a brace. -/
def readSignature (name : String) (s : List Char) : Option (List Parameter) := do
  let s ← stripStart? ("public function " ++ name ++ " (").toList s
  let s ← stripEnd? ") \x7b".toList s
  return if s.isEmpty then [] else (pieces ", ".toList s).map style.read

theorem toList_signature (m : Method) : (signature m).toList =
    ("public function " ++ Name.underscored m.name ++ " (").toList ++
      (", ".toList.intercalate ([] ++ (m.parameters.map (respelled literals)).map style.write) ++
        ") \x7b".toList) := by
  have each := @ArgumentStyle.map_toList_argument style "$" " = " rfl rfl literals m.parameters
  unfold signature
  simp only [String.toList_append, String.toList_intercalate, each,
    List.append_assoc, List.nil_append]

theorem readSignature_signature {m : Method} (cut : ∀ p ∈ m.parameters, p.IsCut) :
    readSignature (Name.underscored m.name) (signature m).toList =
      some (m.parameters.map (respelled literals)) := by
  have cut' := @isCut_respelled literals (by decide +kernel) _ cut
  have read :
      (if (", ".toList.intercalate
        ([] ++ (m.parameters.map (respelled literals)).map style.write)).isEmpty
      then [] else (pieces ", ".toList
        (", ".toList.intercalate
          ([] ++ (m.parameters.map (respelled literals)).map style.write))).map style.read) =
      m.parameters.map (respelled literals) := by
    cases hps : m.parameters.map (respelled literals) with
    | nil => rfl
    | cons p ps =>
      rw [hps] at cut'
      -- The sigil of the first parameter keeps the text from being empty, even if the name is.
      have full : (", ".toList.intercalate ([] ++ (p :: ps).map style.write)).isEmpty = false := by
        cases ps <;> simp [ArgumentStyle.write, style]
      rw [full, if_neg (by simp), ArgumentStyle.pieces_write (by simp) cut' (by simp),
        List.nil_append, ArgumentStyle.map_read_write cut']
  simp only [readSignature, toList_signature, stripStart?_append, stripEnd?_append, read,
    Option.bind_eq_bind, Option.bind_some]
  rfl

end Php

end Render

namespace ClassDecl

open Render

/-- The parameters of every method can be read from each signature that is rendered for it: they are
those of the source, in order, with the same names, and their defaults in the spelling of the
target. -/
theorem signatures_read_back {file contents : String} {c : ClassDecl}
    (h : ofSource file contents = .ok c) {m : Method} (hm : m ∈ c.methods) :
    (∀ target : Target, target.isPython = true →
      Python.readSignature (Name.underscored m.name) (Renderer.signature target m).toList =
        some (m.parameters.map (respelled Python.literals))) ∧
    Php.readSignature (Name.underscored m.name) (Renderer.signature .php m).toList =
      some (m.parameters.map (respelled Php.literals)) := by
  have cut := isCut_of_ofSource h hm
  refine ⟨fun target python => ?_, Php.readSignature_signature cut⟩
  rw [Renderer.signature, if_pos python]
  exact Python.readSignature_signature cut target

/-- A default with equals signs in it, a rest parameter, a sigil, and parameters without a name. -/
def oddSource : String :=
  "module.exports = class foo extends Exchange \x7b\n" ++
    "    async fetchOrders (since = undefined, ...rest, $q = a == b, = \x7b\x7d,) \x7b\n" ++
    "        return since;\n    \x7d\n\x7d;\n"

def oddMethod : Method where
  name := "fetchOrders"
  isAsync := true
  parameters := [⟨"since", some "undefined"⟩, ⟨"...rest", none⟩, ⟨"$q", some "a == b"⟩,
    ⟨"", some "\x7b\x7d"⟩, ⟨"", none⟩]
  body := "        return since;"
  bindings := ["since"]

theorem ofSource_oddSource :
    ofSource "foo.js" oddSource = .ok ⟨"foo", "Exchange", [oddMethod]⟩ := by
  have parsed := @parse_classText
    [⟨[], ["    async fetchOrders (since = undefined, ...rest, $q = a == b, = \x7b\x7d,) \x7b".toList,
      "        return since;".toList, "    \x7d".toList]⟩] (by decide)
    [] "foo".toList "Exchange".toList _ (by decide)
    (isHeader_spaced (by decide) (by decide)) (by decide) ";\n".toList
  refine ofSource_eq_ok (Eq.trans (congrArg parse ?_) (parsed.trans (eq_ok_of_toOption ?_)))
  · decide +kernel
  · decide +kernel

theorem signatures_read_back_oddMethod :
    ofSource "foo.js" oddSource = .ok ⟨"foo", "Exchange", [oddMethod]⟩ ∧ oddMethod ∈ [oddMethod] ∧
    Python.readSignature "fetch_orders"
        "async def fetch_orders(self, since=None, ...rest, $q=a == b, =\x7b\x7d, ):".toList =
      some [⟨"since", some "None"⟩, ⟨"...rest", none⟩, ⟨"$q", some "a == b"⟩,
        ⟨"", some "\x7b\x7d"⟩, ⟨"", none⟩] ∧
    Php.readSignature "fetch_orders"
        "public function fetch_orders ($since = null, $...rest, $$q = a == b, $ = array (), $) \x7b".toList =
      some [⟨"since", some "null"⟩, ⟨"...rest", none⟩, ⟨"$q", some "a == b"⟩,
        ⟨"", some "array ()"⟩, ⟨"", none⟩] := by
  have mem : oddMethod ∈ [oddMethod] := List.mem_singleton_self _
  obtain ⟨python, php⟩ := signatures_read_back ofSource_oddSource mem
  have name : Name.underscored oddMethod.name = "fetch_orders" := by decide +kernel
  have python3 : Renderer.signature .python3 oddMethod =
      "async def fetch_orders(self, since=None, ...rest, $q=a == b, =\x7b\x7d, ):" := by
    decide +kernel
  have written : Renderer.signature .php oddMethod =
      "public function fetch_orders ($since = null, $...rest, $$q = a == b, $ = array (), $) \x7b" := by
    decide +kernel
  have first := python .python3 rfl
  rw [name, python3] at first
  rw [name, written] at php
  refine ⟨ofSource_oddSource, mem, first.trans ?_, php.trans ?_⟩
  · decide +kernel
  · decide +kernel

end ClassDecl

end Polyglot
