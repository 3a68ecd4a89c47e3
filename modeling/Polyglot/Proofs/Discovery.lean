import Polyglot.Proofs.Batch

/-!
The sources of a run. `Lists` says which ids a text lists, and `Stripped` what is left of a name
without an ending, both without the functions that find them. The sources are then all files of the
source directory that the pattern and the list let through (`sources_are_eligible`), where the id
that is looked up is the name without the pattern, and not without the extension.
-/

namespace Polyglot

open Text

namespace Text

/-- What stands between two separators that are next to each other, if the text is put between
two. -/
def IsPiece (sep : Char) (s l : List Char) : Prop :=
  sep ∉ l ∧ sep :: (l ++ [sep]) <:+: sep :: (s ++ [sep])

theorem infix_append_iff {sep : Char} {a : List Char} (free : sep ∉ a) {w r : List Char} :
    sep :: w <:+: a ++ r ↔ sep :: w <:+: r := by
  induction a with
  | nil => rfl
  | cons c a ih =>
    rw [List.mem_cons, not_or] at free
    rw [List.cons_append, List.infix_cons_iff, ih free.2, or_iff_right]
    rintro ⟨t, same⟩
    exact free.1 (List.cons.inj same).1

/-- The induction is on the number of separators, which the length bounds. -/
theorem mem_splitOn_iff {sep : Char} {s l : List Char} : l ∈ splitOn sep s ↔ IsPiece sep s l := by
  induction hlen : s.length using Nat.strongRecOn generalizing s with
  | ind k ih =>
    by_cases mem : sep ∈ s
    · obtain ⟨a, b, rfl, free⟩ := List.eq_append_cons_of_mem mem
      have short : b.length < k := by
        rw [← hlen, List.length_append, List.length_cons]
        omega
      have first : sep :: (l ++ [sep]) <:+: sep :: (a ++ sep :: (b ++ [sep])) ↔
          sep :: (l ++ [sep]) <+: sep :: (a ++ sep :: (b ++ [sep])) ∨
          sep :: (l ++ [sep]) <:+: sep :: (b ++ [sep]) := by
        rw [List.infix_cons_iff, infix_append_iff free]
      rw [splitOn_append free, List.mem_cons, ih b.length short rfl, IsPiece, IsPiece,
        List.append_assoc, List.cons_append, first, and_or_left]
      refine or_congr_left ⟨?_, ?_⟩
      · rintro rfl
        exact ⟨free, b ++ [sep], by simp⟩
      · rintro ⟨free', t, same⟩
        have rest : l ++ sep :: t = a ++ sep :: (b ++ [sep]) := by simpa using same
        exact (split_unique free' free rest).1
    · rw [splitOn_of_not_mem mem, List.mem_singleton, IsPiece]
      constructor
      · rintro rfl
        exact ⟨mem, List.infix_rfl⟩
      · rintro ⟨free, within⟩
        rw [List.infix_cons_iff, infix_append_iff mem] at within
        rcases within with ⟨t, same⟩ | later
        · have rest : l ++ sep :: t = s ++ sep :: [] := by simpa using same
          exact (split_unique free mem rest).1
        · have long := later.length_le
          simp at long

theorem contains_iff {part s : List Char} : contains part s = true ↔ part <:+: s := by
  induction s with
  | nil => rw [contains, List.isEmpty_iff, List.infix_nil]
  | cons c s ih =>
    rw [contains, Bool.or_eq_true, ih, List.isPrefixOf_iff_prefix, List.infix_cons_iff]

/-- What is left of a text without an ending; all of it, if it has another ending. -/
def Stripped (ending s rest : List Char) : Prop :=
  s = rest ++ ending ∨ ¬ ending <:+ s ∧ rest = s

theorem stripped_iff {ending s rest : List Char} :
    Stripped ending s rest ↔ rest = (stripEnd? ending s).getD s := by
  by_cases ends : ending <:+ s
  · obtain ⟨t, rfl⟩ := ends
    rw [stripEnd?_append, Option.getD_some, Stripped, List.append_left_inj,
      or_iff_left fun other => other.1 (List.suffix_append t ending)]
    exact eq_comm
  · have never : stripEnd? ending s = none := by
      rw [stripEnd?, if_neg]
      rwa [List.isSuffixOf_iff_suffix]
    rw [never, Option.getD_none, Stripped, or_iff_right]
    · exact and_iff_right ends
    · rintro rfl
      exact ends (List.suffix_append rest ending)

theorem Stripped.eq_self_iff {ending s rest : List Char} (full : ending ≠ [])
    (h : Stripped ending s rest) : rest = s ↔ ¬ ending <:+ s := by
  rcases h with rfl | ⟨other, rfl⟩
  · simp [full]
  · exact iff_of_true rfl other

/-- Two endings leave the same only if they are the same, or if the text has neither. -/
theorem stripped_eq_iff {e e' s r r' : List Char} (full : e ≠ []) (full' : e' ≠ [])
    (h : Stripped e s r) (h' : Stripped e' s r') : r = r' ↔ e = e' ∨ ¬ e <:+ s ∧ ¬ e' <:+ s := by
  constructor
  · rintro rfl
    rcases h with rfl | ⟨other, rfl⟩
    · rcases h' with same | ⟨-, whole⟩
      · exact .inl (List.append_cancel_left same)
      · exact absurd whole (by simp [full])
    · exact .inr ⟨other, (h'.eq_self_iff full').mp rfl⟩
  · rintro (rfl | ⟨other, other'⟩)
    · exact (stripped_iff.mp h).trans (stripped_iff.mp h').symm
    · exact ((h.eq_self_iff full).mpr other).trans ((h'.eq_self_iff full').mpr other').symm

end Text

/-! ### The list -/

theorem FileTree.read_eq_ok_iff_node? {t : FileTree} {p : Path} {s : String} :
    t.read p = .ok s ↔ t.node? p = some (.file (.text s)) := by
  simp only [read, node?, bind, Except.bind]
  cases t.locate p with
  | error e => simp
  | ok spot =>
    dsimp only
    split <;> simp_all

namespace Selection

/-- A line that names an id: blanks around it, and perhaps a comment behind. -/
def Names (line id : List Char) : Prop :=
  id ≠ [] ∧ IsTight id ∧ '#' ∉ id ∧ ∃ u v comment, IsGap u ∧ IsGap v ∧
    (comment = [] ∨ comment.head? = some '#') ∧ line = u ++ (id ++ (v ++ comment))

/-- The id stands on a line of the text. -/
def Lists (text : String) (id : List Char) : Prop :=
  ∃ line, IsPiece '\n' text.toList line ∧ Names line id

theorem names_iff {line id : List Char} : Names line id ↔ id ≠ [] ∧ lineId line = id := by
  have sign : isBlank '#' = false := by decide
  constructor
  · rintro ⟨full, tight, free, u, v, comment, hu, hv, stop, rfl⟩
    have none : comment.takeWhile (· != '#') = [] := by
      rcases stop with rfl | head
      · rfl
      · obtain ⟨rest, rfl⟩ := List.head?_eq_some_iff.mp head
        rfl
    have plain : ∀ c ∈ u ++ (id ++ v), (c != '#') = true := by
      intro c hc
      rw [bne_iff_ne]
      rintro rfl
      rw [List.mem_append, List.mem_append] at hc
      rcases hc with inside | inside | inside
      · exact hu.ne sign inside
      · exact free inside
      · exact hv.ne sign inside
    have taken : (u ++ (id ++ (v ++ comment))).takeWhile (· != '#') = u ++ (id ++ v) := by
      rw [← List.append_assoc id, ← List.append_assoc u, List.takeWhile_append_of_pos plain,
        none, List.append_nil]
    refine ⟨full, ?_⟩
    rw [lineId, taken, ← List.append_assoc]
    exact trim_eq hu tight hv
  · rintro ⟨full, rfl⟩
    obtain ⟨u, v, hu, hv, tight, taken⟩ := exists_trim (line.takeWhile (· != '#'))
    have free : '#' ∉ line.takeWhile (· != '#') := fun mem =>
      absurd (List.all_eq_true.mp List.all_takeWhile '#' mem) (by decide)
    refine ⟨full, tight, fun mem => free ?_, u, v, line.dropWhile (· != '#'), hu, hv, ?_, ?_⟩
    · rw [taken]
      exact List.mem_append_left _ (List.mem_append_right _ mem)
    · cases rest : line.dropWhile (· != '#') with
      | nil => exact .inl rfl
      | cons c comment =>
        have stop := List.head?_dropWhile_not (· != '#') line
        rw [rest] at stop
        exact .inr (by simpa using stop)
    · have regroup : u ++ (lineId line ++ (v ++ line.dropWhile (· != '#'))) =
          line.takeWhile (· != '#') ++ line.dropWhile (· != '#') := by
        rw [taken]
        simp [lineId]
      rw [regroup, List.takeWhile_append_dropWhile]

/-- A carriage return at the end of a line does not matter. -/
theorem lineId_stripReturn (line : List Char) : lineId (stripReturn line) = lineId line := by
  rw [stripReturn]
  split
  · next last =>
    obtain ⟨line, rfl⟩ := List.getLast?_eq_some_iff.mp last
    have gap : IsGap ['\r'] := List.forall_mem_singleton.mpr rfl
    rw [List.dropLast_concat, lineId, lineId, List.takeWhile_append]
    split
    · next whole =>
      rw [(List.takeWhile_prefix _).eq_of_length whole]
      exact (trim_append_gaps isGap_nil gap line).symm
    · rfl
  · rfl

theorem mem_map_lineId_lines {s id : List Char} (full : id ≠ []) :
    id ∈ (lines s).map lineId ↔ id ∈ (splitOn '\n' s).map lineId := by
  obtain ⟨pieces, last, split⟩ :=
    (List.eq_nil_or_concat (splitOn '\n' s)).resolve_left (splitOn_ne_nil '\n' s)
  rw [List.concat_eq_append] at split
  have each : (pieces.map stripReturn).map lineId = pieces.map lineId := by
    rw [List.map_map]
    exact List.map_congr_left fun line _ => lineId_stripReturn line
  have whole : lines s = pieces.map stripReturn ++ if last.isEmpty then [] else [last] := by
    simp only [lines, split, List.dropLast_concat, List.getLast?_concat, Option.getD_some]
  -- A last line that is empty is left out, and names nothing.
  rw [whole, split, List.map_append, List.map_append, each, List.mem_append, List.mem_append]
  refine or_congr_right ?_
  split
  · next empty =>
    rw [List.isEmpty_iff.mp empty]
    exact iff_of_false List.not_mem_nil fun mem => full (List.mem_singleton.mp mem)
  · rfl

theorem mem_ids_iff {text id : String} : id ∈ (ofText text).ids ↔ Lists text id.toList := by
  have kept : id ∈ (ofText text).ids ↔
      id.toList ≠ [] ∧ id.toList ∈ (lines text.toList).map lineId := by
    simp only [ofText, List.mem_map, List.mem_filter, Bool.not_eq_true', List.isEmpty_eq_false_iff]
    constructor
    · rintro ⟨w, ⟨mem, full⟩, rfl⟩
      rw [String.toList_ofList]
      exact ⟨full, mem⟩
    · rintro ⟨full, mem⟩
      exact ⟨id.toList, ⟨mem, full⟩, String.ofList_toList⟩
  rw [kept, Lists]
  constructor
  · rintro ⟨full, mem⟩
    obtain ⟨line, inside, same⟩ := List.mem_map.mp ((mem_map_lineId_lines full).mp mem)
    exact ⟨line, mem_splitOn_iff.mp inside, names_iff.mpr ⟨full, same⟩⟩
  · rintro ⟨line, piece, named⟩
    obtain ⟨full, same⟩ := names_iff.mp named
    exact ⟨full,
      (mem_map_lineId_lines full).mpr (List.mem_map.mpr ⟨line, mem_splitOn_iff.mpr piece, same⟩)⟩

theorem admits_iff {text id : String} :
    (ofText text).admits id = true ↔ (¬ ∃ id', Lists text id') ∨ Lists text id.toList := by
  rw [admits, Bool.or_eq_true, List.isEmpty_iff, List.contains_iff_mem, mem_ids_iff,
    List.eq_nil_iff_forall_not_mem]
  refine or_congr_left ⟨?_, ?_⟩
  · rintro none ⟨id', listed⟩
    exact none (String.ofList id') (mem_ids_iff.mpr (by rwa [String.toList_ofList]))
  · exact fun none id' mem => none ⟨id'.toList, mem_ids_iff.mp mem⟩

/-- The text of the list at a path: that of a file, or an empty one if nothing is there. -/
def IsListAt (t : FileTree) (p : Path) (text : String) : Prop :=
  t.node? p = none ∧ text = "" ∨ t.node? p = some (.file (.text text))

section Load

open Job FileTree

variable {t : FileTree} {p : Path}

theorem does_load {text : String} (h : IsListAt t p text) :
    Does (load p) t (.ok (ofText text)) t := by
  refine .bind (does_lift (acts_isFile p t)) (.bind (does_lift (acts_isDirectory p t)) ?_)
  rcases h with ⟨none, rfl⟩ | there
  · rw [none]
    exact .bind (does_note _ _ t) (.pure _ t)
  · have read := does_read p t
    rw [read_eq_ok_iff_node?.mpr there] at read
    rw [there]
    exact .bind read (.bind (does_note _ _ t) (.pure _ t))

theorem exists_does_load_error (h : ¬ ∃ text, IsListAt t p text) :
    ∃ e, Does (load p) t (.error e) t := by
  -- What is there and is no text is taken for a list, and then cannot be read.
  have there : t.node? p ≠ none := fun none => h ⟨"", .inl ⟨none, rfl⟩⟩
  have seen : ((t.node? p).any Node.isFile || t.node? p == some .directory) = true := by
    cases found : t.node? p with
    | none => exact absurd found there
    | some node => cases node <;> rfl
  have read := does_read p t
  cases result : t.read p with
  | ok s => exact absurd ⟨s, .inr (read_eq_ok_iff_node?.mp result)⟩ h
  | error e =>
    rw [result] at read
    refine ⟨.fileAccess p e,
      .bind (does_lift (acts_isFile p t)) (.bind (does_lift (acts_isDirectory p t)) ?_)⟩
    rw [if_pos seen]
    exact read.bind_error

end Load

end Selection

/-! ### The directory -/

section Directory

open Job FileTree

variable {t : FileTree}

/-- A file lies directly in the directory that a path leads to. -/
def FileTree.HasFileIn (t : FileTree) (p : Path) (name : String) : Prop :=
  ∃ directory content, t.locate p = .ok (.inside directory) ∧ t.find? directory = some .directory ∧
    t.find? (directory ++ [name]) = some (.file content)

theorem exists_listNames_iff {p : Path} :
    (∃ names, t.listNames p = .ok names) ↔ (t.node? p).isSome = true := by
  simp only [FileTree.listNames, FileTree.node?, bind, Except.bind]
  cases t.locate p with
  | error e => simp
  | ok spot =>
    dsimp only
    split <;> simp_all

theorem FileTree.IsProper.nodup_listNames (h : t.IsProper) {p : Path} {names : List String}
    (listed : t.listNames p = .ok names) : names.Nodup := by
  by_cases there : t.node? p = some .directory
  · obtain ⟨names', listed', single, -⟩ := h.listNames there
    exact Except.ok.inj (listed.symm.trans listed') ▸ single
  · rw [eq_nil_of_listNames listed there]
    exact .nil

end Directory

namespace Settings

open Job FileTree Selection

variable {t : FileTree} {c : Settings}

theorem isEligible_iff {pattern text name : String} : isEligible pattern (ofText text) name = true ↔
    pattern.toList <:+: name.toList ∧ ((¬ ∃ id, Lists text id) ∨
      ∃ id, Stripped pattern.toList name.toList id ∧ Lists text id) := by
  have id :
      (sourceId pattern name).toList = (stripEnd? pattern.toList name.toList).getD name.toList := by
    rw [sourceId]
    cases stripEnd? pattern.toList name.toList <;> simp
  rw [isEligible, Bool.and_eq_true, contains_iff, admits_iff, id]
  simp only [stripped_iff, exists_eq_left]

/-- The sources for a list and the names in the directory. -/
theorem does_sources {text : String} {names : List String} (proper : t.IsProper)
    (list : IsListAt t (c.resolve c.inclusionList) text)
    (listed : t.listNames (c.resolve c.jsDir) = .ok names) :
    Does c.sources t (.ok (((sortBy textLe names).filter (isEligible c.pattern (ofText text))).map
      fun name => (c.resolve c.jsDir).join ⟨name⟩)) t := by
  have chosen : ((sortBy textLe names).map fun name => (c.resolve c.jsDir).join ⟨name⟩).filter
        (fun path => isEligible c.pattern (ofText text) (path.fileName?.getD "")) =
      ((sortBy textLe names).filter (isEligible c.pattern (ofText text))).map
        fun name => (c.resolve c.jsDir).join ⟨name⟩ := by
    rw [List.filter_map]
    refine congrArg (List.map _) (List.filter_congr fun name hname => ?_)
    obtain ⟨directory, content, -, -, file⟩ :=
      (proper.mem_listNames listed name).mp (mem_sortBy.mp hname)
    simp [(proper.isFileName file).fileName?_join]
  rw [← chosen]
  exact (does_load list).bind ((does_filesIn listed).bind (.pure _ t))

theorem exists_does_sources_error (h : (¬ ∃ text, IsListAt t (c.resolve c.inclusionList) text) ∨
    t.node? (c.resolve c.jsDir) = none) : ∃ e, Does c.sources t (.error e) t := by
  by_cases list : ∃ text, IsListAt t (c.resolve c.inclusionList) text
  · obtain ⟨text, list⟩ := list
    have none := h.resolve_left fun never => never ⟨text, list⟩
    cases listed : t.listNames (c.resolve c.jsDir) with
    | ok names =>
      have there := exists_listNames_iff.mp ⟨names, listed⟩
      rw [none] at there
      cases there
    | error e =>
      obtain ⟨failure, failed⟩ := does_filesIn_error listed
      exact ⟨failure, (does_load list).bind failed.bind_error⟩
  · obtain ⟨e, failed⟩ := exists_does_load_error list
    exact ⟨e, failed.bind_error⟩

/-- Sources are found if the list can be read and something is at the path of the source directory.
They are then, each once and in the order of their names, the files directly in it that have the
pattern in their name and are listed, or all with the pattern if nothing is listed. A file is listed
by what is left of its name without the pattern, which is its base name exactly if the pattern is
the extension, or if the name ends with neither. -/
theorem sources_are_eligible (proper : t.IsProper) (valid : c.pattern ≠ "") :
    (∀ text, IsListAt t (c.resolve c.inclusionList) text →
      (t.node? (c.resolve c.jsDir)).isSome = true → ∃ names : List String,
        Does c.sources t (.ok (names.map fun name => (c.resolve c.jsDir).join ⟨name⟩)) t ∧
        names.Pairwise (· < ·) ∧
        ∀ name, name ∈ names ↔ t.HasFileIn (c.resolve c.jsDir) name ∧
          c.pattern.toList <:+: name.toList ∧
            ((¬ ∃ id, Lists text id) ∨ ∃ id, Stripped c.pattern.toList name.toList id ∧
              Lists text id)) ∧
    ((¬ ∃ text, IsListAt t (c.resolve c.inclusionList) text) ∨ t.node? (c.resolve c.jsDir) = none →
      ∃ e, Does c.sources t (.error e) t) ∧
    ∀ name id base, Stripped c.pattern.toList name id → Stripped ".js".toList name base →
      (id = base ↔ c.pattern = ".js" ∨ ¬ c.pattern.toList <:+ name ∧ ¬ ".js".toList <:+ name) := by
  refine ⟨fun text list there => ?_, exists_does_sources_error, fun name id base hid hbase => ?_⟩
  · obtain ⟨names, listed⟩ := exists_listNames_iff.mpr there
    refine ⟨_, does_sources proper list listed,
      (pairwise_lt_sortBy (proper.nodup_listNames listed)).filter _,
      fun name => ?_⟩
    rw [List.mem_filter, mem_sortBy, proper.mem_listNames listed, isEligible_iff]
    rfl
  · have full : c.pattern.toList ≠ [] := fun none => valid (String.toList_eq_nil_iff.mp none)
    rw [stripped_eq_iff full (by decide) hid hbase, String.toList_inj]

/-- Two sources and a list. -/
def listing (text : String) : FileTree :=
  ⟨[(["js"], .directory), (["js", "beta.js"], .file (.text "")),
    (["js", "alpha.js"], .file (.text "")), (["exchanges.cfg"], .file (.text text))]⟩

/-- A pattern in the middle of a name leaves the whole name as the id. -/
theorem sources_are_eligible_inside :
    (listing " beta.js # second\r\nalpha").IsProper ∧ "ta" ≠ "" ∧
    ∃ names : List String,
      Does ({ pattern := "ta" } : Settings).sources (listing " beta.js # second\r\nalpha")
        (.ok (names.map fun name => (⟨"./js"⟩ : Path).join ⟨name⟩))
        (listing " beta.js # second\r\nalpha") ∧
      "beta.js" ∈ names := by
  have proper : (listing " beta.js # second\r\nalpha").IsProper :=
    ⟨by decide +kernel, by decide +kernel⟩
  have valid : "ta" ≠ "" := by decide
  obtain ⟨found, -, -⟩ := @sources_are_eligible _ { pattern := "ta" } proper valid
  obtain ⟨names, does, -, mem⟩ :=
    found " beta.js # second\r\nalpha" (.inr (by decide +kernel)) (by decide +kernel)
  have isPiece : IsPiece '\n' " beta.js # second\r\nalpha".toList " beta.js # second\r".toList :=
    mem_splitOn_iff.mp (by decide +kernel)
  have listed : Lists " beta.js # second\r\nalpha" "beta.js".toList :=
    ⟨_, isPiece, names_iff.mpr (by decide +kernel)⟩
  have stripped : Stripped "ta".toList "beta.js".toList "beta.js".toList :=
    stripped_iff.mpr (by decide +kernel)
  have file : (listing " beta.js # second\r\nalpha").HasFileIn ⟨"./js"⟩ "beta.js" :=
    ⟨["js"], .text "", by decide +kernel, by decide +kernel, by decide +kernel⟩
  have part : "ta".toList <:+: "beta.js".toList := ⟨['b', 'e'], ['.', 'j', 's'], by decide +kernel⟩
  exact ⟨proper, valid, names, does, (mem "beta.js").mpr ⟨file, part, .inr ⟨_, stripped, listed⟩⟩⟩

/-- A source whose base name is listed and whose name contains the pattern is passed over. -/
theorem sources_miss_base_name :
    (listing "beta\n").HasFileIn ⟨"./js"⟩ "beta.js" ∧
    Stripped ".js".toList "beta.js".toList "beta".toList ∧
      Lists "beta\n" "beta".toList ∧
      Does ({ pattern := "beta.js" } : Settings).sources (listing "beta\n") (.ok [])
        (listing "beta\n") := by
  have isPiece : IsPiece '\n' "beta\n".toList "beta".toList :=
    mem_splitOn_iff.mp (by decide +kernel)
  refine ⟨⟨["js"], .text "", by decide +kernel, by decide +kernel, by decide +kernel⟩,
    stripped_iff.mpr (by decide +kernel), ⟨_, isPiece, names_iff.mpr (by decide +kernel)⟩, ?_⟩
  exact does_of_perform (Generator.steady_sources { pattern := "beta.js" }) (by decide +kernel)
    (by decide +kernel)

end Settings

end Polyglot
