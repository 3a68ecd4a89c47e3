import Polyglot.FileTree.Access
import Polyglot.Proofs.Lines
import Polyglot.Proofs.Results

/-!
Where paths lead in a file tree. A name joined to the path of a directory leads to the child of that
name, and a path that leads somewhere leads there still in every tree that has kept its directories.
Absolute paths, and those that leave the working directory, lead to no place (`inward_of_locate`).
What a change does to a tree is then said by places: writing puts a file at one, removing takes one
away, making a directory fills an empty one.
-/

namespace Polyglot

theorem Text.splitOn_append_sep (sep : Char) (s r : List Char) :
    splitOn sep (s ++ sep :: r) = splitOn sep s ++ splitOn sep r := by
  have free : ∀ l ∈ splitOn sep s ++ splitOn sep r, sep ∉ l := by
    intro l hl
    rcases List.mem_append.mp hl with left | right
    · exact not_mem_of_mem_splitOn left
    · exact not_mem_of_mem_splitOn right
  rw [← splitOn_join (by simp [splitOn_ne_nil]) free,
    join_append (splitOn_ne_nil _ _) (splitOn_ne_nil _ _), join_splitOn, join_splitOn,
    List.append_assoc, List.singleton_append]

namespace Path

/-- What may stand between two slashes as the name of a file or a directory. -/
structure IsFileName (name : String) : Prop where
  solid : isVoid name.toList = false
  down : name.toList ≠ ['.', '.']
  single : '/' ∉ name.toList

instance (name : String) : Decidable (IsFileName name) :=
  decidable_of_iff (isVoid name.toList = false ∧ name.toList ≠ ['.', '.'] ∧ '/' ∉ name.toList)
    ⟨fun ⟨solid, down, single⟩ => ⟨solid, down, single⟩, fun h => ⟨h.solid, h.down, h.single⟩⟩

namespace IsFileName

variable {name : String} (h : IsFileName name)
include h

theorem ne_nil : name.toList ≠ [] := by
  intro empty
  have := h.solid
  simp [isVoid, empty] at this

theorem isAbsolute : (Path.mk name).isAbsolute = false := by
  rw [Path.isAbsolute, decide_eq_false_iff_not]
  intro slash
  exact h.single (List.mem_of_mem_head? slash)

/-- A name joined to a path becomes its last piece. An empty piece at the end of the path is the
place for it. -/
theorem pieces_join (p : Path) : ∃ front, (p.join ⟨name⟩).pieces = front ++ [name.toList] ∧
    (p.text = "" ∧ front = [] ∨ p.text ≠ "" ∧ (front = p.pieces ∨ p.pieces = front ++ [[]])) := by
  have alone : Text.splitOn '/' name.toList = [name.toList] := Text.splitOn_of_not_mem h.single
  rw [join, if_neg (by simp [h.isAbsolute])]
  by_cases empty : p.text = ""
  · refine ⟨[], ?_, .inl ⟨empty, rfl⟩⟩
    simp [pieces, empty, alone]
  · by_cases slash : p.text.toList.getLast? = some '/'
    · obtain ⟨front, text⟩ := List.getLast?_eq_some_iff.mp slash
      refine ⟨Text.splitOn '/' front, ?_, .inr ⟨empty, .inr ?_⟩⟩
      · rw [if_pos (by simp [slash])]
        simp [pieces, text, Text.splitOn_append_sep, alone]
      · rw [pieces, text, Text.splitOn_append_sep]
        rfl
    · refine ⟨p.pieces, ?_, .inr ⟨empty, .inl rfl⟩⟩
      rw [if_neg (by simp [slash, empty])]
      simp [pieces, Text.splitOn_append_sep, alone]

theorem fileName?_join (p : Path) : (p.join ⟨name⟩).fileName? = some name := by
  obtain ⟨front, pieces, -⟩ := h.pieces_join p
  simp only [fileName?, components, pieces, List.filterMap_append, List.filterMap_cons,
    List.filterMap_nil, h.solid, Bool.false_eq_true, ↓reduceIte, h.down, String.ofList_toList,
    ← List.append_assoc, List.getLast?_append, List.getLast?_singleton, Option.some_or]

end IsFileName

/-- Without a slash at the end the last piece of a path is not empty. -/
theorem dropWhile_pieces {p : Path} (full : p.text ≠ "")
    (last : p.text.toList.getLast? ≠ some '/') :
    (p.pieces.reverse.dropWhile (· == [])).reverse = p.pieces := by
  have text : Text.join ['/'] p.pieces = p.text.toList := Text.join_splitOn '/' _
  rcases List.eq_nil_or_concat p.pieces with none | ⟨front, piece, whole⟩
  · exact absurd none (Text.splitOn_ne_nil _ _)
  · have solid : piece ≠ [] := by
      rintro rfl
      rw [whole, List.concat_eq_append] at text
      by_cases single : front = []
      · subst single
        exact full (by simpa [Text.join] using text.symm)
      · rw [Text.join_append single (List.cons_ne_nil _ _)] at text
        exact last (by simp [← text, Text.join])
    rw [whole, List.concat_eq_append, List.reverse_append, List.reverse_singleton,
      List.singleton_append, List.dropWhile_cons_of_neg (by simpa using solid), List.reverse_cons,
      List.reverse_reverse]

end Path

namespace FileTree

/-! ### Following a path -/

/-- Every directory is still one. -/
def KeepsDirectories (t u : FileTree) : Prop :=
  ∀ place, t.find? place = some .directory → u.find? place = some .directory

theorem KeepsDirectories.refl (t : FileTree) : KeepsDirectories t t :=
  fun _ h => h

theorem KeepsDirectories.trans {t u v : FileTree} (h : KeepsDirectories t u)
    (h' : KeepsDirectories u v) : KeepsDirectories t v :=
  fun place found => h' place (h place found)

theorem KeepsDirectories.look? {t u : FileTree} (h : KeepsDirectories t u) {spot : Spot}
    (found : t.look? spot = some .directory) : u.look? spot = some .directory := by
  cases spot with
  | inside place => exact h place found
  | above => rfl
  | nowhere => cases found

theorem expectDirectory_eq_ok {t : FileTree} {spot : Spot} :
    t.expectDirectory spot = .ok () ↔ t.look? spot = some .directory := by
  rw [expectDirectory]
  split <;> simp_all

theorem step_eq_ok {t : FileTree} {spot s : Spot} {piece : List Char} :
    t.step spot piece = .ok s ↔ t.look? spot = some .directory ∧
      (if Path.isVoid piece then .ok spot
        else if piece = ['.', '.'] then .ok spot.up
        else if maxName < (String.ofList piece).utf8ByteSize then .error .nameTooLong
        else .ok (spot.child (String.ofList piece)) : Except AccessError Spot) = .ok s := by
  rw [step]
  constructor
  · intro h
    obtain ⟨⟨⟩, directory, h⟩ := exists_of_bind_ok h
    exact ⟨expectDirectory_eq_ok.mp directory, h⟩
  · rintro ⟨directory, h⟩
    rw [expectDirectory_eq_ok.mpr directory]
    exact h

theorem KeepsDirectories.step {t u : FileTree} (h : KeepsDirectories t u) {spot s : Spot}
    {piece : List Char} (along : t.step spot piece = .ok s) : u.step spot piece = .ok s := by
  obtain ⟨directory, next⟩ := step_eq_ok.mp along
  exact step_eq_ok.mpr ⟨h.look? directory, next⟩

theorem KeepsDirectories.follow {t u : FileTree} (h : KeepsDirectories t u)
    {pieces : List (List Char)} {spot s : Spot} (along : pieces.foldlM t.step spot = .ok s) :
    pieces.foldlM u.step spot = .ok s := by
  induction pieces generalizing spot with
  | nil => exact along
  | cons piece pieces ih =>
    rw [List.foldlM_cons] at along ⊢
    obtain ⟨next, first, others⟩ := exists_of_bind_ok along
    rw [h.step first]
    exact ih others

theorem KeepsDirectories.locate {t u : FileTree} (h : KeepsDirectories t u) {p : Path} {spot : Spot}
    (found : t.locate p = .ok spot) : u.locate p = .ok spot := by
  obtain ⟨first, begun, along⟩ := exists_of_bind_ok found
  rw [FileTree.locate, begun]
  exact h.follow along

theorem follow_concat {t : FileTree} {pieces : List (List Char)} {piece : List Char}
    {spot s : Spot} : (pieces ++ [piece]).foldlM t.step spot = .ok s ↔
      ∃ u, pieces.foldlM t.step spot = .ok u ∧ t.step u piece = .ok s := by
  rw [List.foldlM_append]
  constructor
  · intro h
    obtain ⟨u, first, last⟩ := exists_of_bind_ok h
    obtain ⟨v, step, done⟩ := exists_of_bind_ok last
    obtain rfl : v = s := Except.ok.inj done
    exact ⟨u, first, step⟩
  · rintro ⟨u, first, last⟩
    rw [first]
    change t.step u piece >>= pure = _
    rw [last]
    rfl

/-! ### Names in directories -/

/-- Where the children of a path lie. The empty path stands for the working directory there, though
it leads nowhere itself. -/
def base (t : FileTree) (p : Path) : Except AccessError Spot :=
  if p.text = "" then .ok (.inside []) else t.locate p

theorem ne_empty_of_locate {t : FileTree} {p : Path} {spot : Spot} (h : t.locate p = .ok spot) :
    p.text ≠ "" := by
  intro empty
  obtain ⟨first, begun, -⟩ := exists_of_bind_ok h
  simp [start, empty] at begun

theorem base_of_locate {t : FileTree} {p : Path} {spot : Spot} (h : t.locate p = .ok spot) :
    t.base p = .ok spot := by
  rw [base, if_neg (ne_empty_of_locate h), h]

theorem KeepsDirectories.base {t u : FileTree} (h : KeepsDirectories t u) {p : Path} {spot : Spot}
    (found : t.base p = .ok spot) : u.base p = .ok spot := by
  rw [FileTree.base] at found ⊢
  split at found
  · rw [if_pos ‹_›]
    exact found
  · rw [if_neg ‹_›]
    exact h.locate found

theorem start_eq_ok {p : Path} {spot : Spot} (h : start p = .ok spot) :
    spot = if p.isAbsolute then .above else .inside [] := by
  rw [start] at h
  split at h
  · cases h
  · split at h
    · cases h
    · split at h
      · cases h
      · exact (Except.ok.inj h).symm

/-- A longer path begins where a path itself begins. -/
theorem start_of_append {p q : Path} {w : String} {spot : Spot} (text : q.text = p.text ++ w)
    (full : p.text ≠ "") (h : start q = .ok spot) : start p = .ok spot := by
  have first : q.isAbsolute = p.isAbsolute := by
    have : p.text.toList ≠ [] := by simpa using full
    obtain ⟨c, r, cons⟩ := List.exists_cons_of_ne_nil this
    simp [Path.isAbsolute, text, cons]
  have begun := start_eq_ok h
  rw [start] at h
  split at h
  · cases h
  · next nul =>
    split at h
    · cases h
    · next short =>
      have size : (p.text ++ w).utf8ByteSize = p.text.utf8ByteSize + w.utf8ByteSize :=
        String.utf8ByteSize_append
      rw [text] at nul short
      have nul' : '\x00' ∉ p.text.toList := by
        intro mem
        exact nul (by simp [mem])
      rw [start, if_neg (by simpa using nul'), if_neg (by omega),
        if_neg (by simpa using full), begun, first]

/-- The path of a child begins where the path itself begins. -/
theorem start_join {p : Path} {name : String} {spot : Spot} (named : Path.IsFileName name)
    (h : start (p.join ⟨name⟩) = .ok spot) (full : p.text ≠ "") : start p = .ok spot := by
  have text : ∃ w, (p.join ⟨name⟩).text = p.text ++ w := by
    rw [Path.join, if_neg (by simp [named.isAbsolute])]
    split
    · exact ⟨name, rfl⟩
    · exact ⟨"/" ++ name, by simp [String.append_assoc]⟩
  obtain ⟨w, text⟩ := text
  exact start_of_append text full h

/-- A name joined to the path of a directory can only lead to its child. -/
theorem locate_join {t : FileTree} {p : Path} {name : String} {s : Spot}
    (named : Path.IsFileName name) (found : t.locate (p.join ⟨name⟩) = .ok s) :
    ∃ spot, t.base p = .ok spot ∧ t.look? spot = some .directory ∧ s = spot.child name := by
  obtain ⟨first, begun, along⟩ := exists_of_bind_ok found
  obtain ⟨front, pieces, cases⟩ := named.pieces_join p
  rw [pieces, follow_concat] at along
  obtain ⟨spot, before, last⟩ := along
  obtain ⟨directory, next⟩ := step_eq_ok.mp last
  have child : s = spot.child name := by
    rw [if_neg (by simp [named.solid]), if_neg named.down, String.ofList_toList] at next
    split at next
    · cases next
    · exact (Except.ok.inj next).symm
  refine ⟨spot, ?_, directory, child⟩
  rcases cases with ⟨empty, rfl⟩ | ⟨full, cases⟩
  · have relative : (p.join ⟨name⟩).isAbsolute = false := by
      rw [Path.join, if_neg (by simp [named.isAbsolute]), if_pos (by simp [empty])]
      simpa [empty] using named.isAbsolute
    have begun := start_eq_ok begun
    rw [relative] at begun
    obtain rfl : first = spot := Except.ok.inj before
    rw [base, if_pos empty, begun]
    rfl
  · rw [base, if_neg full, locate, start_join named begun full]
    rcases cases with rfl | closed
    · exact before
    · change p.pieces.foldlM t.step first = _
      rw [closed, follow_concat]
      exact ⟨spot, before, step_eq_ok.mpr ⟨directory, rfl⟩⟩

/-! ### Proper trees -/

/-- The places of a tree are spelled with names, and no place stands twice. -/
structure IsProper (t : FileTree) : Prop where
  named : ∀ node ∈ t.nodes, ∀ name ∈ node.1, Path.IsFileName name
  single : (t.nodes.map Prod.fst).Nodup

theorem IsProper.erase {t : FileTree} (h : t.IsProper) (place : Place) :
    (t.erase place).IsProper where
  named node mem := h.named node (List.mem_of_mem_filter mem)
  single := h.single.sublist (List.filter_sublist.map _)

theorem IsProper.put {t : FileTree} (h : t.IsProper) {place : Place} (node : Node)
    (named : ∀ name ∈ place, Path.IsFileName name) : (t.put place node).IsProper where
  named other mem := by
    rcases List.mem_cons.mp mem with rfl | old
    · exact named
    · exact (h.erase place).named other old
  single := by
    refine List.nodup_cons.mpr ⟨?_, (h.erase place).single⟩
    rintro mem
    obtain ⟨other, inside, same⟩ := List.mem_map.mp mem
    have := (List.mem_filter.mp inside).2
    simp [same] at this

theorem mem_of_find? {t : FileTree} {place : Place} {node : Node} (full : place ≠ [])
    (h : t.find? place = some node) : (place, node) ∈ t.nodes := by
  rw [find?, if_neg full] at h
  obtain ⟨before, behind, nodes, -⟩ := List.lookup_eq_some_iff.mp h
  rw [nodes]
  exact List.mem_append_right _ List.mem_cons_self

theorem IsProper.find?_of_mem {t : FileTree} (h : t.IsProper) {place : Place} {node : Node}
    (full : place ≠ []) (mem : (place, node) ∈ t.nodes) : t.find? place = some node := by
  obtain ⟨before, behind, nodes⟩ := List.append_of_mem mem
  have single := h.single
  rw [nodes, List.map_append, List.map_cons, List.nodup_append] at single
  rw [find?, if_neg full, List.lookup_eq_some_iff]
  refine ⟨before, behind, nodes, fun other inside => ?_⟩
  have apart := single.2.2 other.1 (List.mem_map_of_mem inside) place List.mem_cons_self
  simpa using Ne.symm apart

/-- The listed names are those of the files directly in the directory. -/
theorem IsProper.mem_fileNames {t : FileTree} (h : t.IsProper) {directory : Place} {name : String} :
    name ∈ t.fileNames directory ↔ ∃ content, t.find? (directory ++ [name]) =
      some (.file content) := by
  rw [fileNames, List.mem_filterMap]
  constructor
  · rintro ⟨⟨place, node⟩, mem, here⟩
    split at here
    · next both =>
      obtain ⟨isFile, inside⟩ := Bool.and_eq_true_iff.mp both
      obtain ⟨front, rfl⟩ := List.getLast?_eq_some_iff.mp here
      have same : front = directory := by simpa using inside
      subst same
      cases node with
      | directory => cases isFile
      | file content => exact ⟨content, h.find?_of_mem (by simp) mem⟩
    · cases here
  · rintro ⟨content, found⟩
    refine ⟨_, mem_of_find? (by simp) found, ?_⟩
    simp [Node.isFile]

theorem IsProper.nodup_fileNames {t : FileTree} (h : t.IsProper) (directory : Place) :
    (t.fileNames directory).Nodup := by
  have places : (t.nodes.filterMap fun n =>
      if n.2.isFile && n.1.dropLast = directory then n.1.getLast? else none).Pairwise (· ≠ ·) := by
    rw [List.pairwise_filterMap]
    refine (List.pairwise_map.mp h.single).imp ?_
    intro a b apart m hm n hn same
    subst same
    split at hm
    · next here =>
      split at hn
      · next there =>
        refine apart ?_
        obtain ⟨front, ha⟩ := List.getLast?_eq_some_iff.mp hm
        obtain ⟨front', hb⟩ := List.getLast?_eq_some_iff.mp hn
        simp only [ha, hb, List.dropLast_concat, Bool.and_eq_true, decide_eq_true_eq] at here there
        rw [ha, hb, here.2, there.2]
      · cases hn
    · cases hm
  exact places

theorem IsProper.isFileName {t : FileTree} (h : t.IsProper) {directory : Place}
    {name : String} {node : Node} (found : t.find? (directory ++ [name]) = some node) :
    Path.IsFileName name :=
  h.named _ (mem_of_find? (by simp) found) name (by simp)

/-! ### Changes -/

theorem find?_root (t : FileTree) : t.find? [] = some .directory :=
  if_pos rfl

theorem ne_nil_of_file {t : FileTree} {place : Place} {content : Content}
    (h : t.find? place = some (.file content)) : place ≠ [] := by
  rintro rfl
  rw [find?_root] at h
  cases h

theorem node?_eq_some {t : FileTree} {p : Path} {node : Node} (h : t.node? p = some node) :
    ∃ spot, t.locate p = .ok spot ∧ t.look? spot = some node := by
  rw [node?] at h
  split at h
  · next spot found => exact ⟨spot, found, h⟩
  · cases h

theorem read_eq_ok_iff {t : FileTree} {p : Path} {place : Place}
    (leads : t.locate p = .ok (.inside place)) {s : String} :
    t.read p = .ok s ↔ t.find? place = some (.file (.text s)) := by
  simp only [read, leads, bind, Except.bind, look?]
  cases t.find? place with
  | none => simp
  | some node =>
    cases node with
    | directory => simp
    | file content => cases content <;> simp

theorem exists_place_of_read {t : FileTree} {p : Path} {s : String} (h : t.read p = .ok s) :
    ∃ place, t.locate p = .ok (.inside place) ∧ t.find? place = some (.file (.text s)) := by
  obtain ⟨spot, leads, there⟩ := exists_of_bind_ok h
  cases spot with
  | inside place => exact ⟨place, leads, (read_eq_ok_iff leads).mp h⟩
  | above => cases there
  | nowhere => cases there

theorem remove_eq_ok {t u : FileTree} {p : Path} (h : t.remove p = .ok u) :
    ∃ place content, t.locate p = .ok (.inside place) ∧ t.find? place = some (.file content) ∧
      u = t.erase place := by
  obtain ⟨spot, found, h⟩ := exists_of_bind_ok h
  cases spot with
  | inside place =>
    cases there : t.find? place with
    | none => simp [look?, there] at h
    | some node =>
      cases node with
      | directory => simp [look?, there] at h
      | file content =>
        refine ⟨place, content, found, there, ?_⟩
        simpa [look?, there] using h.symm
  | above => cases h
  | nowhere => cases h

theorem remove_of_file {t : FileTree} {p : Path} {place : Place} {content : Content}
    (leads : t.locate p = .ok (.inside place)) (file : t.find? place = some (.file content)) :
    t.remove p = .ok (t.erase place) := by
  simp only [remove, leads, bind, Except.bind, look?, file]

theorem keepsDirectories_erase {t : FileTree} {place : Place} {content : Content}
    (h : t.find? place = some (.file content)) : KeepsDirectories t (t.erase place) := by
  intro other found
  rw [find?_erase_of_ne, found]
  rintro rfl
  rw [h] at found
  cases found

theorem keepsDirectories_put {t : FileTree} {place : Place} {node : Node}
    (h : t.find? place ≠ some .directory) : KeepsDirectories t (t.put place node) := by
  intro other found
  rw [find?_put_of_ne, found]
  rintro rfl
  exact h found

theorem put_put (t : FileTree) (place : Place) (node node' : Node) :
    (t.put place node).put place node' = t.put place node' := by
  simp [put, erase]

/-- Splitting a path off its last name, which may be followed by slashes. -/
theorem split_eq_ok {t : FileTree} {p : Path} {spot : Spot} {piece : List Char}
    (h : t.split p = .ok (spot, some piece)) :
    Path.IsFileName (String.ofList piece) ∧ t.look? spot = some .directory ∧
      (p.text.toList.getLast? ≠ some '/' →
        ∃ first front, start p = .ok first ∧ p.pieces = front ++ [piece] ∧
          front.foldlM t.step first = .ok spot) := by
  obtain ⟨first, begun, h⟩ := exists_of_bind_ok h
  obtain ⟨spot', along, h⟩ := exists_of_bind_ok h
  obtain ⟨⟨⟩, directory, h⟩ := exists_of_bind_ok h
  split at h
  · cases h
  · next last ends =>
    obtain ⟨rfl, named⟩ := Prod.mk.inj (Except.ok.inj h)
    split at named
    · cases named
    · next solid =>
      obtain rfl : last = piece := Option.some.inj named
      simp only [Bool.or_eq_true, decide_eq_true_eq, not_or, Bool.not_eq_true] at solid
      have inside : last ∈ p.pieces := by
        have := List.mem_of_getLast? ends
        rw [List.mem_reverse] at this
        exact List.mem_reverse.mp ((List.dropWhile_sublist _).mem this)
      refine ⟨⟨by simpa using solid.1, by simpa using solid.2, ?_⟩,
        expectDirectory_eq_ok.mp directory, ?_⟩
      · rw [String.toList_ofList]
        exact Text.not_mem_of_mem_splitOn inside
      · intro open_
        obtain ⟨front, whole⟩ := List.getLast?_eq_some_iff.mp ends
        rw [whole, List.dropLast_concat] at along
        refine ⟨first, front, begun, ?_, along⟩
        rw [← whole, Path.dropWhile_pieces ?_ open_]
        intro empty
        simp [start, empty] at begun

/-- The piece behind the last slash leads to the child of that name. -/
theorem step_of_split {t : FileTree} {p : Path} {spot s : Spot} {piece : List Char}
    (h : t.split p = .ok (spot, some piece)) (next : t.step spot piece = .ok s) :
    s = spot.child (String.ofList piece) := by
  obtain ⟨named, -, -⟩ := split_eq_ok h
  have next := (step_eq_ok.mp next).2
  have solid := named.solid
  have down := named.down
  rw [String.toList_ofList] at solid down
  rw [if_neg (by simp [solid]), if_neg down] at next
  split at next
  · cases next
  · exact (Except.ok.inj next).symm

theorem child_eq_inside {spot : Spot} {name : String} {place : Place}
    (h : spot.child name = .inside place) :
    ∃ directory, spot = .inside directory ∧ place = directory ++ [name] := by
  cases spot with
  | inside directory => exact ⟨directory, rfl, (Spot.inside.inj h).symm⟩
  | above => cases h
  | nowhere => cases h

/-- No way leads from the directories above into the working directory. -/
theorem outside_of_follow {t : FileTree} {pieces : List (List Char)} {spot s : Spot}
    (outside : ∀ place, spot ≠ .inside place) (along : pieces.foldlM t.step spot = .ok s)
    (place : Place) : s ≠ .inside place := by
  induction pieces generalizing spot with
  | nil => exact Except.ok.inj along ▸ outside place
  | cons piece pieces ih =>
    rw [List.foldlM_cons] at along
    obtain ⟨next, first, others⟩ := exists_of_bind_ok along
    refine ih (fun place => ?_) others
    have first := (step_eq_ok.mp first).2
    split at first
    · exact Except.ok.inj first ▸ outside place
    · split at first
      · obtain rfl := Except.ok.inj first
        cases spot with
        | inside place => exact absurd rfl (outside place)
        | above => simp [Spot.up]
        | nowhere => simp [Spot.up]
      · split at first
        · cases first
        · obtain rfl := Except.ok.inj first
          intro same
          obtain ⟨directory, rfl, -⟩ := child_eq_inside same
          exact outside directory rfl

/-- A tree is that of the working directory. A path that leads to a place of it is relative, and no
part that it begins with leads out of the working directory. So all that is said of places is said
of such paths only. -/
theorem inward_of_locate {t : FileTree} {p : Path} {place : Place}
    (h : t.locate p = .ok (.inside place)) :
    p.isAbsolute = false ∧ ∀ front rest, p.pieces = front ++ rest →
      ∃ above, front.foldlM t.step (.inside []) = .ok (.inside above) := by
  obtain ⟨first, begun, along⟩ := exists_of_bind_ok h
  have begins := start_eq_ok begun
  cases absolute : p.isAbsolute with
  | true =>
    rw [absolute] at begins
    subst begins
    exact absurd rfl (outside_of_follow (fun _ same => by cases same) along place)
  | false =>
    rw [absolute] at begins
    subst begins
    refine ⟨rfl, fun front rest pieces => ?_⟩
    rw [pieces, List.foldlM_append] at along
    obtain ⟨spot, before, behind⟩ := exists_of_bind_ok along
    cases spot with
    | inside above => exact ⟨above, before⟩
    | above => exact absurd rfl (outside_of_follow (fun _ same => by cases same) behind place)
    | nowhere => exact absurd rfl (outside_of_follow (fun _ same => by cases same) behind place)

/-- A place in a directory of a proper tree is spelled with names if its last part is one. -/
theorem IsProper.named_child {t : FileTree} (h : t.IsProper) {directory : Place} {name : String}
    (there : t.find? directory = some .directory) (named : Path.IsFileName name) :
    ∀ part ∈ directory ++ [name], Path.IsFileName part := by
  intro part mem
  rcases List.mem_append.mp mem with above | last
  · exact h.named _ (mem_of_find? (List.ne_nil_of_mem above) there) part above
  · rw [List.mem_singleton.mp last]
    exact named

/-- What a write does: its path leads to a place where no directory is, and the file is put
there. -/
theorem write_eq_ok {t u : FileTree} {p : Path} {s : String} (h : t.write p s = .ok u) :
    ∃ place, t.locate p = .ok (.inside place) ∧ place ≠ [] ∧ t.find? place ≠ some .directory ∧
      u = t.put place (.file (.text s)) ∧ (t.IsProper → u.IsProper) := by
  obtain ⟨⟨spot, piece⟩, cut, h⟩ := exists_of_bind_ok h
  cases piece with
  | none => cases h
  | some piece =>
    obtain ⟨named, directory, follow⟩ := split_eq_ok cut
    dsimp only at h
    split at h
    · cases h
    · next last =>
      obtain ⟨s', next, h⟩ := exists_of_bind_ok h
      have child := step_of_split cut next
      cases s' with
      | above => cases h
      | nowhere => cases h
      | inside place =>
        obtain ⟨above, rfl, rfl⟩ := child_eq_inside child.symm
        dsimp only at h
        split at h
        · cases h
        · next free =>
          obtain rfl := Except.ok.inj h
          obtain ⟨first, front, begun, pieces, along⟩ := follow last
          refine ⟨_, ?_, by simp, free, rfl, fun proper => ?_⟩
          · rw [locate, begun]
            change p.pieces.foldlM t.step first = _
            rw [pieces, follow_concat]
            exact ⟨_, along, next⟩
          · exact proper.put _ (proper.named_child directory named)

theorem makeDirectory_eq_ok {t u : FileTree} {p : Path} (h : t.makeDirectory p = .ok u) :
    ∃ place, t.find? place = none ∧ u = t.put place .directory ∧ (t.IsProper → u.IsProper) := by
  obtain ⟨⟨spot, piece⟩, cut, h⟩ := exists_of_bind_ok h
  cases piece with
  | none => cases h
  | some piece =>
    obtain ⟨named, directory, -⟩ := split_eq_ok cut
    obtain ⟨s', next, h⟩ := exists_of_bind_ok h
    have child := step_of_split cut next
    cases missing : t.look? s' with
    | some node =>
      rw [missing] at h
      cases s' <;> cases h
    | none =>
      rw [missing] at h
      cases s' with
      | above => cases h
      | nowhere => cases h
      | inside place =>
        obtain ⟨above, rfl, rfl⟩ := child_eq_inside child.symm
        obtain rfl := Except.ok.inj h
        exact ⟨_, missing, rfl, fun proper => proper.put _ (proper.named_child directory named)⟩

end FileTree

end Polyglot
