import Polyglot.Proofs.Declarations
import Polyglot.Proofs.Overwriting
import Polyglot.Proofs.Replacement

/-!
Declaring classes in a manifest: `declareIn` cuts the text at its first run of declarations and puts
those of the roster in its place. It looks for declarations anywhere and not only where a line
begins, so that a declaration in a comment counts as well.
-/

namespace Polyglot.Roster

open Pattern Job FileTree

/-! ### The pattern of a declaration -/

section Pattern

variable {c e : Cursor}

/-- The characters of names. -/
def nonBlank : CharSet :=
  .compl (.ofItems [.blank])

theorem has_nonBlank (x : Char) : nonBlank.has x = !Text.isBlank x := rfl

theorem IsSolid.all {w : List Char} (h : IsSolid w) : ∀ x ∈ w, nonBlank.has x = true := by
  intro x hx
  rw [has_nonBlank, h.solid x hx]
  rfl

theorem isSolid_of_all {w : List Char} (full : w ≠ []) (all : ∀ x ∈ w, nonBlank.has x = true) :
    IsSolid w :=
  ⟨full, fun x hx => by simpa [has_nonBlank] using all x hx⟩

/-- The line end, with or without a carriage return. -/
def lineEndPattern : List Pattern :=
  [opt true (char (.single '\r')), char (.single '\n')]

theorem declarationPattern_eq : declarationPattern =
    seqAll (chars Declaration.opening ++ plus true (char nonBlank) ::
      (chars Declaration.middle ++ plus true (char nonBlank) ::
        (chars Declaration.closing ++ lineEndPattern))) := rfl

theorem ways_lineEnd {returns : Bool} {r : List Char}
    (h : c.rest = (if returns then ['\r', '\n'] else ['\n']) ++ r) :
    (seqAll lineEndPattern).ways c = [c.past (if returns then ['\r', '\n'] else ['\n'])] := by
  have newline {d : Cursor} {r : List Char} (h : d.rest = '\n' :: r) :
      (char (.single '\n')).ways d = [d.past ['\n']] := ways_char h (by simp)
  have other {x : Char} {d : Cursor} {r : List Char} (set : CharSet) (h : d.rest = x :: r)
      (stop : set.has x = false) : (char set).ways d = [] :=
      ways_char_eq_nil (by rw [h]; exact stop)
  change ((char (.single '\r')).ways c ++ [c]).flatMap (char (.single '\n')).ways = _
  cases returns with
  | true =>
    have first : c.rest = '\r' :: '\n' :: r := h
    rw [ways_char first (by simp), List.flatMap_append, List.flatMap_singleton,
      List.flatMap_singleton, newline (Cursor.rest_past (w := ['\r']) first), other _ first
      (by decide), Cursor.past_past]
    rfl
  | false =>
    have first : c.rest = '\n' :: r := h
    rw [other _ first (by decide), List.nil_append, List.flatMap_singleton, newline first]
    rfl

theorem exists_lineEnd (mem : e ∈ (seqAll lineEndPattern).ways c) :
    ∃ (returns : Bool) (r : List Char), c.rest =
      (if returns then ['\r', '\n'] else ['\n']) ++ r := by
  change e ∈ ((char (.single '\r')).ways c ++ [c]).flatMap (char (.single '\n')).ways at mem
  obtain ⟨d, hd, mem⟩ := List.mem_flatMap.mp mem
  obtain ⟨x, r, rest, newline, -⟩ := mem_ways_char.mp mem
  obtain rfl : x = '\n' := by simpa using newline
  rcases List.mem_append.mp hd with first | here
  · obtain ⟨x, r', rest', return_, rfl⟩ := mem_ways_char.mp first
    obtain rfl : x = '\r' := by simpa using return_
    rw [Cursor.rest_past (w := ['\r']) rest'] at rest
    exact ⟨true, r, by rw [rest', rest]; rfl⟩
  · obtain rfl := List.mem_singleton.mp here
    exact ⟨false, r, rest⟩

/-- A declaration is matched in one way. -/
theorem ways_declaration {d : Declaration} {r : List Char} (h : c.rest = d.text ++ r) :
    declarationPattern.ways c = [c.past d.text] := by
  rw [Declaration.text] at h
  simp only [List.append_assoc] at h
  have middle (qs : List Pattern) : Bars (chars Declaration.middle ++ qs) nonBlank :=
    bars_chars _ (by decide)
  have closing (qs : List Pattern) : Bars (chars Declaration.closing ++ qs) nonBlank :=
    bars_chars _ (by decide)
  have h₁ := Cursor.rest_past h
  have h₂ := Cursor.rest_past h₁
  have h₃ := Cursor.rest_past h₂
  have h₄ := Cursor.rest_past h₃
  have h₅ := Cursor.rest_past h₄
  rw [declarationPattern_eq, ways_chars_append h,
    ways_plus_cons nonBlank (middle _) d.name_isSolid.full h₁
    d.name_isSolid.all rfl, ways_chars_append h₂,
    ways_plus_cons nonBlank (closing _) d.base_isSolid.full h₃
      d.base_isSolid.all rfl, ways_chars_append h₄,
    ways_lineEnd h₅]
  simp only [Cursor.past_past, List.append_assoc]
  rfl

/-- Only declarations are matched. -/
theorem ways_declaration_eq_nil (h : ¬ Begins c.rest) : declarationPattern.ways c = [] := by
  refine List.eq_nil_iff_forall_not_mem.mpr fun e mem => h ?_
  rw [declarationPattern_eq] at mem
  obtain ⟨r, h, h₁, mem⟩ := mem_ways_chars_append mem
  obtain ⟨name, r₁, full, h₁', h₂, all, mem⟩ := mem_ways_plus_cons mem
  obtain ⟨r₂, h₂', h₃, mem⟩ := mem_ways_chars_append mem
  obtain ⟨base, r₃, full', h₃', h₄, all', mem⟩ := mem_ways_plus_cons mem
  obtain ⟨r₄, h₄', h₅, mem⟩ := mem_ways_chars_append mem
  obtain ⟨returns, r₅, h₅'⟩ := exists_lineEnd mem
  rw [h₁] at h₁'
  rw [h₂] at h₂'
  rw [h₃] at h₃'
  rw [h₄] at h₄'
  rw [h₅] at h₅'
  refine ⟨⟨name, base, returns, isSolid_of_all full all, isSolid_of_all full' all'⟩, r₅, ?_⟩
  rw [h, h₁', h₂', h₃', h₄', h₅']
  simp only [Declaration.text, Declaration.lineEnd, List.append_assoc]

/-! ### Runs of declarations -/

/-- The loop goes on as far as declarations follow. -/
theorem head?_laps {run : List Declaration} {after : List Char}
    (maximal : ¬ Begins after) (fuel : Nat) (enough : run.length ≤ fuel)
    (h : c.rest = run.flatMap Declaration.text ++ after) :
    (laps true declarationPattern.ways fuel c).head? =
    some (c.past (run.flatMap Declaration.text)) := by
  induction run generalizing fuel c with
  | nil =>
    have stop : declarationPattern.ways c = [] := ways_declaration_eq_nil (h ▸ maximal)
    cases fuel <;> simp [laps, stop]
  | cons d run ih =>
    cases fuel with
    | zero => cases enough
    | succ fuel =>
      rw [List.flatMap_cons, List.append_assoc] at h
      have further := ih fuel (by simpa using enough) (Cursor.rest_past h)
      rw [Cursor.past_past, ← List.flatMap_cons] at further
      rw [laps, ways_declaration h, List.flatMap_singleton, if_pos rfl, List.head?_append, further]
      rfl

theorem length_le_flatMap_text (run : List Declaration) :
    run.length ≤ (run.flatMap Declaration.text).length := by
  induction run with
  | nil => exact Nat.le_refl 0
  | cons d run ih =>
    have := List.length_pos_iff.mpr d.text_ne_nil
    rw [List.flatMap_cons, List.length_append, List.length_cons]
    omega

end Pattern

section Region

variable {b : Option Char} {run : List Declaration} {after : List Char}

/-- A run of declarations is matched as a whole. -/
theorem matchAt_run (full : run ≠ []) (maximal : ¬ Begins after) :
    manifestRegion.pattern.matchAt b (run.flatMap Declaration.text ++ after) =
      some ⟨run.flatMap Declaration.text, []⟩ := by
  obtain ⟨d, run, rfl⟩ := List.exists_cons_of_ne_nil full
  have begun : (Cursor.start b ((d :: run).flatMap Declaration.text ++ after)).rest =
      d.text ++ (run.flatMap Declaration.text ++ after) := by
    rw [Cursor.rest_start, List.flatMap_cons, List.append_assoc]
  have rest := Cursor.rest_past begun
  have enough : run.length ≤ (((Cursor.start b
      ((d :: run).flatMap Declaration.text ++ after)).past d.text).rest).length := by
    have := length_le_flatMap_text run
    rw [rest, List.length_append]
    omega
  rw [manifestRegion, matchAt_eq_ways (by decide), ways_plus, ways_declaration begun,
    List.flatMap_singleton, ways_star, head?_laps maximal _ enough rest, Cursor.past_past]
  rfl

/-- The pattern matches where a declaration begins. -/
theorem finds_manifestRegion : manifestRegion.pattern.Finds Begins := by
  intro b s
  constructor
  · intro found
    refine Classical.byContradiction fun none => ?_
    rw [manifestRegion, matchAt_eq_ways (by decide), ways_plus,
      ways_declaration_eq_nil none] at found
    cases found
  · intro begins
    obtain ⟨run, after, rfl, maximal⟩ := exists_run s
    rw [matchAt_run _ maximal]
    · rfl
    · rintro rfl
      exact maximal begins

/-- What is replaced is the first run of declarations anywhere in the text. -/
theorem replaceFirst_region {s before : List Char} (h : Region (fun _ => True) s before run after)
    (w : List Char) :
    manifestRegion.pattern.replaceFirst (fun _ => w) s = before ++ (w ++ after) := by
  have matched := matchAt_run (b := before.getLast?) h.full h.maximal
  have some : run.flatMap Declaration.text ≠ [] := by
    obtain ⟨d, run, rfl⟩ := List.exists_cons_of_ne_nil h.full
    exact fun empty => d.text_ne_nil (List.append_eq_nil_iff.mp (List.flatMap_cons ▸ empty)).1
  rw [h.whole]
  exact finds_manifestRegion.replaceFirst (m := ⟨run.flatMap Declaration.text,
    []⟩) h.place some matched w

end Region

/-! ### The declarations of a roster -/

/-- There are classes, and their names and bases have no blanks. -/
structure IsDeclarable (r : Roster) : Prop where
  enrolled : r.classes ≠ []
  solid : ∀ c ∈ r.classes, IsSolid c.1.toList ∧ IsSolid c.2.toList

instance (r : Roster) : Decidable r.IsDeclarable :=
  decidable_of_iff (r.classes ≠ [] ∧ ∀ c ∈ r.classes, IsSolid c.1.toList ∧ IsSolid c.2.toList)
    ⟨fun h => ⟨h.1, h.2⟩, fun h => ⟨h.enrolled, h.solid⟩⟩

/-- The declarations of the classes in their order. -/
def lines (r : Roster) (h : r.IsDeclarable) : List Declaration :=
  r.classes.pmap (fun c solid => .ofEntry c solid.1 solid.2) h.solid

theorem map_entry_lines {r : Roster} (h : r.IsDeclarable) :
    (r.lines h).map Declaration.entry = r.classes := by
  rw [lines, List.map_pmap]
  simp [Declaration.entry, Declaration.ofEntry]

theorem lines_ne_nil {r : Roster} (h : r.IsDeclarable) : r.lines h ≠ [] := by
  simpa [lines] using h.enrolled

theorem intercalate_append_singleton {ls : List (List Char)} (full : ls ≠ []) (c : Char) :
    [c].intercalate ls ++ [c] = ls.flatMap (· ++ [c]) := by
  induction ls with
  | nil => exact absurd rfl full
  | cons l ls ih =>
    cases ls with
    | nil => simp
    | cons k ls =>
      rw [List.intercalate_cons_cons, List.append_assoc, ih (List.cons_ne_nil _ _)]
      rfl

theorem toList_declaration (name base : String) : (declaration name base).toList =
    Declaration.opening ++
      (name.toList ++ (Declaration.middle ++ (base.toList ++ Declaration.closing))) := by
  have opening : "    export class ".toList = Declaration.opening := by decide +kernel
  have middle : " extends ".toList = Declaration.middle := by decide +kernel
  have closing : " \x7b\x7d".toList = Declaration.closing := by decide +kernel
  change ("    export class " ++ name ++ " extends " ++ base ++ " \x7b\x7d").toList = _
  simp only [String.toList_append, opening, middle, closing, List.append_assoc]

theorem toList_declarations {r : Roster} (h : r.IsDeclarable) :
    r.declarations.toList = (r.lines h).flatMap Declaration.text := by
  have line (c : String × String) (hc : IsSolid c.1.toList ∧ IsSolid c.2.toList) :
      (declaration c.1 c.2).toList ++ ['\n'] = (Declaration.ofEntry c hc.1 hc.2).text := by
    rw [toList_declaration]
    simp [Declaration.text, Declaration.ofEntry, Declaration.lineEnd]
  have full : (r.classes.map fun c => declaration c.1 c.2).map String.toList ≠ [] := by
    simpa using h.enrolled
  have joined : r.declarations.toList =
      ((r.classes.map fun c => declaration c.1 c.2).map String.toList).flatMap (· ++ ['\n']) := by
    rw [← intercalate_append_singleton full, declarations, String.toList_append,
      String.toList_intercalate]
    rfl
  rw [joined, lines, List.flatMap_def, List.flatMap_def, List.map_map, List.map_map, List.map_pmap,
    ← List.pmap_eq_map h.solid]
  exact congrArg List.flatten (List.pmap_congr_left _ fun c _ hc _ => line c hc)

/-! ### Splicing -/

variable {r : Roster} {t : FileTree} {p : Path} {s : String}

theorem does_declareIn_none (found : t.read p = .ok s)
    (none : ∀ u v, s.toList = u ++ v → ¬ Begins v) : Does (r.declareIn p) t (.ok false) t := by
  have read := does_read p t
  rw [found] at read
  have missing : ¬ manifestRegion.isMatch s = true := by
    intro isMatch
    obtain ⟨u, v, whole, begins⟩ := finds_manifestRegion.isMatch_iff.mp isMatch
    exact none u v whole begins
  have spliced : Does (splice p manifestRegion r.declarations) t (.ok false) t := by
    refine read.bind ?_
    rw [if_neg missing]
    exact (does_note _ _ t).bind (.pure false t)
  exact spliced.bind (.pure false t)

/-- Where there is a declaration the run that the text is cut at is replaced. -/
theorem does_declareIn_region {before after : List Char} {run : List Declaration} {place : Place}
    (leads : t.locate p = .ok (.inside place)) (file : t.find? place = some (.file (.text s)))
    (region : Region (fun _ => True) s.toList before run after) :
    Does (r.declareIn p) t (.ok true)
      (t.put place
        (.file (.text (String.ofList (before ++ (r.declarations.toList ++ after)))))) := by
  have read := does_read p t
  rw [(read_eq_ok_iff leads).mpr file] at read
  have isMatch : manifestRegion.isMatch s = true :=
    finds_manifestRegion.isMatch_iff.mpr ⟨before, _, region.whole, region.place.begins⟩
  have spliced : Does (splice p manifestRegion r.declarations) t (.ok true)
      (t.put place
        (.file (.text (String.ofList (before ++ (r.declarations.toList ++ after)))))) := by
    refine read.bind ?_
    rw [if_pos isMatch, replaceFirst_region region]
    exact (does_save_of_file leads file _).bind (.pure true _)
  refine spliced.bind ?_
  exact (does_note _ _ _).bind (.pure true _)

/-- The text ends where a line begins. -/
def AtLineStart (u : List Char) : Prop :=
  u = [] ∨ u.getLast? = some '\n'

/-- Declaring classes replaces the first run of declarations anywhere in the manifest, and nothing
else. The new text is cut at the declarations of the roster, so that they can be read back and to
declare them again changes nothing. What is replaced is the first run of whole lines exactly if it
begins with a line. -/
theorem declareIn_splices (h : r.IsDeclarable) (found : t.read p = .ok s) :
    ((∀ u v, s.toList = u ++ v → ¬ Begins v) ∧ Does (r.declareIn p) t (.ok false) t) ∨
      ∃ before run after u, Region (fun _ => True) s.toList before run after ∧
        Does (r.declareIn p) t (.ok true) u ∧
        u.read p = .ok (String.ofList (before ++ (r.declarations.toList ++ after))) ∧
        (∀ place, t.locate p ≠ .ok (.inside place) → u.find? place = t.find? place) ∧
        (∀ b ds a, Region (fun _ => True) (before ++ (r.declarations.toList ++ after)) b ds a ↔
          b = before ∧ ds = r.lines h ∧ a = after) ∧
        (r.lines h).map Declaration.entry = r.classes ∧
        Does (r.declareIn p) u (.ok true) u ∧
        ((∀ b ds a, Region AtLineStart s.toList b ds a ↔ b = before ∧ ds = run ∧ a = after) ↔
          AtLineStart before) := by
  by_cases some : ∃ u v, s.toList = u ++ v ∧ Begins v
  · right
    obtain ⟨place, leads, file⟩ := exists_place_of_read found
    obtain ⟨x, y, whole, begins⟩ := some
    obtain ⟨before, run, after, region⟩ := exists_region (P := fun _ => True) whole trivial begins
    have new := region.exchange (lines_ne_nil h)
    rw [← toList_declarations h] at new
    have leads' (node : Node) : (t.put place node).locate p = .ok (.inside place) :=
      (keepsDirectories_put (by simp [file])).locate leads
    have file' (node : Node) : (t.put place node).find? place = some node :=
      find?_put_self (ne_nil_of_file file) t node
    refine ⟨before, run, after, _, region, does_declareIn_region leads file region,
      (read_eq_ok_iff (leads' _)).mpr (file' _), fun other apart => ?_, fun b ds a => new.iff_eq,
      map_entry_lines h,
      ?_, fun same => ((same before run after).mpr ⟨rfl, rfl, rfl⟩).place.here,
        fun line b ds a => ?_⟩
    · refine find?_put_of_ne ?_ t _
      rintro rfl
      exact apart leads
    · have again :=
        does_declareIn_region (r := r) (leads' _) (file' _) (by rwa [String.toList_ofList])
      rwa [put_put] at again
    · exact Region.iff_eq ⟨region.whole, region.place.narrow (fun _ => trivial) line,
        region.maximal⟩
  · left
    have none : ∀ u v, s.toList = u ++ v → ¬ Begins v :=
      fun u v whole begins => some ⟨u, v, whole, begins⟩
    exact ⟨none, does_declareIn_none found none⟩

/-! ### A declaration in a comment -/

/-- A line with a declaration in a comment. -/
def commentLine : String :=
  "    //    export class legacy extends Exchange \x7b\x7d\n"

/-- A line of a manifest. -/
def oldClass : Declaration :=
  .ofEntry ("old", "Exchange") (by decide +kernel) (by decide +kernel)

def commentedText : String :=
  "    //    export class legacy extends Exchange \x7b\x7d\n    export class old extends Exchange \x7b\x7d\n"

theorem toList_commentedText :
    commentedText.toList = commentLine.toList ++ ([oldClass].flatMap Declaration.text ++ []) := by
  decide +kernel

def commentedManifest : FileTree :=
  ⟨[(["ccxt.d.ts"], .file (.text commentedText))]⟩

def freshClass : Roster :=
  ⟨[("fresh", "Exchange")]⟩

theorem declareIn_splices_commentedManifest :
    freshClass.IsDeclarable ∧ commentedManifest.read ⟨"ccxt.d.ts"⟩ = .ok commentedText ∧
      ∃ before after u, Does (freshClass.declareIn ⟨"ccxt.d.ts"⟩) commentedManifest (.ok true) u ∧
        u.read ⟨"ccxt.d.ts"⟩ =
          .ok (String.ofList (before ++ (freshClass.declarations.toList ++ after))) ∧
        Does (freshClass.declareIn ⟨"ccxt.d.ts"⟩) u (.ok true) u := by
  have declarable : freshClass.IsDeclarable := by decide +kernel
  have found : commentedManifest.read ⟨"ccxt.d.ts"⟩ = .ok commentedText :=
    eq_ok_of_toOption (by decide +kernel)
  refine ⟨declarable, found, ?_⟩
  rcases declareIn_splices declarable found with
    ⟨none, -⟩ | ⟨before, -, after, u, -, does, read, -, -, -, again, -⟩
  · exact absurd (begins_run (List.cons_ne_nil _ _) []) (none _ _ toList_commentedText)
  · exact ⟨before, after, u, does, read, again⟩

/-- The first line of declarations follows the comment, but the declarations of the roster end up in
the comment. -/
theorem declareIn_hits_comment :
    Region AtLineStart commentedText.toList commentLine.toList [oldClass] [] ∧
      ∃ u, Does (freshClass.declareIn ⟨"ccxt.d.ts"⟩) commentedManifest (.ok true) u ∧
        u.read ⟨"ccxt.d.ts"⟩ = .ok "    //    export class fresh extends Exchange \x7b\x7d\n" := by
  constructor
  · refine ⟨toList_commentedText, ⟨.inr (by decide +kernel), begins_run (List.cons_ne_nil _ _) [],
      fun u v cut hv line => ?_⟩, ?_⟩
    · rcases line with rfl | last
      · rintro ⟨d, r, same⟩
        obtain ⟨inner, shape⟩ := d.exists_text
        obtain ⟨rest, comment⟩ : ∃ rest, commentLine.toList =
          ' ' :: ' ' :: ' ' :: ' ' :: '/' :: rest :=
          ⟨commentLine.toList.drop 5, by decide +kernel⟩
        rw [List.nil_append] at cut
        simp [← cut, comment, shape] at same
      · obtain ⟨front, rfl⟩ := List.getLast?_eq_some_iff.mp last
        have inside : '\n' ∈ commentLine.toList.dropLast := by
          rw [cut, List.append_assoc, List.singleton_append,
            List.dropLast_append_of_ne_nil (by simp), List.dropLast_cons_of_ne_nil hv]
          simp
        exact absurd inside (by decide +kernel)
    · rintro ⟨d, r, same⟩
      exact d.text_ne_nil (List.append_eq_nil_iff.mp same.symm).1
  · have does :=
      does_of_perform (steady_declareIn (P := fun _ => True) (p := ⟨"ccxt.d.ts"⟩)
        trivial freshClass)
      (t := commentedManifest) (a := true) (by decide +kernel) rfl
    exact ⟨_, does, eq_ok_of_toOption (by decide +kernel)⟩

end Polyglot.Roster
