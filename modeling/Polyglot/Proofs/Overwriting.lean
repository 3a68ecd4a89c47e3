import Polyglot.Proofs.Outputs

/-!
Saving over a file. A path that leads to a file ends in a name, and what it leads to without that
name is a directory; so there is nothing to make on the way, and saving a text changes the content
of the file and nothing else.
-/

namespace Polyglot

open Job

namespace Path

/-! ### The parent of a path -/

/-- The pieces without those at the end that name nothing. -/
def trimmed (pieces : List (List Char)) : List (List Char) :=
  (pieces.reverse.dropWhile isVoid).reverse

theorem trimmed_concat {piece : List Char} (solid : isVoid piece = false)
    (pieces : List (List Char)) : trimmed (pieces ++ [piece]) = pieces ++ [piece] := by
  rw [trimmed, List.reverse_append, List.reverse_singleton, List.singleton_append,
    List.dropWhile_cons_of_neg (by simp [solid]), List.reverse_cons, List.reverse_reverse]

theorem exists_eq_trimmed_append (pieces : List (List Char)) :
    ∃ voids, pieces = trimmed pieces ++ voids ∧ ∀ piece ∈ voids, isVoid piece = true := by
  refine ⟨(pieces.reverse.takeWhile isVoid).reverse, ?_, fun piece mem => ?_⟩
  · rw [trimmed, ← List.reverse_append, List.takeWhile_append_dropWhile, List.reverse_reverse]
  · exact List.all_eq_true.mp List.all_takeWhile piece (List.mem_reverse.mp mem)

theorem isVoid_getLast?_trimmed {pieces : List (List Char)} {piece : List Char}
    (last : (trimmed pieces).getLast? = some piece) : isVoid piece = false := by
  rw [trimmed, List.getLast?_reverse] at last
  have := List.head?_dropWhile_not isVoid pieces.reverse
  rw [last] at this
  simpa using this

theorem ne_nil_of_isVoid {piece : List Char} (solid : isVoid piece = false) : piece ≠ [] := by
  rintro rfl
  simp [isVoid] at solid

/-- A path with a name at its end does not end in a slash. -/
theorem getLast?_ne_of_pieces {p : Path} {front : List (List Char)} {piece : List Char}
    (pieces : p.pieces = front ++ [piece]) (full : piece ≠ []) :
    p.text.toList.getLast? ≠ some '/' := by
  intro slash
  obtain ⟨inner, text⟩ := List.getLast?_eq_some_iff.mp slash
  rw [Path.pieces, text, Text.splitOn_append_sep] at pieces
  obtain ⟨-, same⟩ := List.append_inj' pieces rfl
  exact full (List.cons.inj same).1.symm

theorem parent?_of_pieces {p : Path} {head piece : List Char} {middle : List (List Char)}
    (relative : p.isAbsolute = false) (pieces : p.pieces = head :: middle ++ [piece])
    (solid : isVoid piece = false) :
    p.parent? = some ⟨String.ofList (Text.join ['/'] (head :: trimmed middle))⟩ := by
  have named : trimmed (middle ++ [piece]) = middle ++ [piece] := trimmed_concat solid middle
  rw [trimmed] at named
  rw [parent?, pieces]
  simp only [List.cons_append, named]
  cases whole : middle ++ [piece] with
  | nil => simp at whole
  | cons first others =>
    have before : (first :: others).dropLast = middle := by rw [← whole, List.dropLast_concat]
    have rest : (middle.reverse.dropWhile isVoid).reverse = trimmed middle := rfl
    simp only [before, rest]
    cases trimmed middle with
    | nil => simp [relative, Text.join]
    | cons _ _ => rfl

/-- The parent of a relative path with a name at its end: what stands before the name, without the
pieces there that name nothing. -/
theorem exists_parent {p : Path} {head piece : List Char} {middle : List (List Char)}
    (relative : p.isAbsolute = false) (pieces : p.pieces = head :: middle ++ [piece])
    (solid : isVoid piece = false) :
    ∃ parent voids, p.parent? = some parent ∧ p.pieces = parent.pieces ++ voids ++ [piece] ∧
      (∀ void ∈ voids, isVoid void = true) ∧ (∃ w, p.text = parent.text ++ w) ∧
      parent.text ≠ "" ∧ parent.text.toList.getLast? ≠ some '/' := by
  obtain ⟨voids, whole, void⟩ := exists_eq_trimmed_append middle
  have parts : p.pieces = (head :: trimmed middle) ++ (voids ++ [piece]) := by
    rw [pieces, List.cons_append, List.cons_append, ← List.append_assoc, ← whole]
  have text : p.text.toList =
      Text.join ['/'] (head :: trimmed middle) ++ ['/'] ++ Text.join ['/'] (voids ++ [piece]) := by
    rw [← Text.join_append (by simp) (by simp), ← parts, Path.pieces, Text.join_splitOn]
  have solid_head : head ≠ [] := by
    rintro rfl
    rw [isAbsolute, text] at relative
    cases here : trimmed middle <;> simp [Text.join, here] at relative
  have pieces' : Path.pieces ⟨String.ofList (Text.join ['/'] (head :: trimmed middle))⟩ =
      head :: trimmed middle := by
    rw [Path.pieces, String.toList_ofList, Text.splitOn_join (by simp)]
    intro l mem
    exact Text.not_mem_of_mem_splitOn (show l ∈ p.pieces from parts ▸ List.mem_append_left _ mem)
  refine ⟨_, voids, parent?_of_pieces relative pieces solid, ?_, void,
    ⟨String.ofList ('/' :: Text.join ['/'] (voids ++ [piece])), ?_⟩, ?_, ?_⟩
  · rw [pieces', List.append_assoc, parts]
  · apply String.toList_injective
    simp [text]
  · intro empty
    have := congrArg String.toList empty
    cases here : trimmed middle <;> simp [Text.join, here, solid_head] at this
  · rcases List.eq_nil_or_concat (trimmed middle) with none | ⟨front, last, ends⟩
    · rw [none] at pieces' ⊢
      exact getLast?_ne_of_pieces (pieces'.trans (List.nil_append [head]).symm) solid_head
    · rw [List.concat_eq_append] at ends
      refine getLast?_ne_of_pieces (pieces'.trans (ends ▸ (List.cons_append ..).symm)) ?_
      exact ne_nil_of_isVoid (isVoid_getLast?_trimmed (by rw [ends, List.getLast?_concat]))

end Path

namespace FileTree

variable {t : FileTree}

/-! ### The way to a file -/

/-- What lies above the spot are directories. -/
def IsGrounded (t : FileTree) (spot : Spot) : Prop :=
  ∀ place name rest, spot = .inside (place ++ name :: rest) → t.find? place = some .directory

theorem IsGrounded.up {spot : Spot} (h : t.IsGrounded spot)
    (there : t.look? spot = some .directory) :
    t.IsGrounded spot.up ∧ t.look? spot.up = some .directory := by
  cases spot with
  | above => exact ⟨fun _ _ _ same => (by cases same), rfl⟩
  | nowhere => cases there
  | inside place =>
    rcases List.eq_nil_or_concat place with rfl | ⟨front, name, rfl⟩
    · exact ⟨fun _ _ _ same => (by cases same), rfl⟩
    · have up : (Spot.inside (front.concat name)).up = .inside front := by
        rw [List.concat_eq_append]
        cases front with
        | nil => rfl
        | cons _ _ => exact congrArg Spot.inside List.dropLast_concat
      rw [up]
      refine ⟨fun place part rest same => ?_, h front name [] (by simp)⟩
      obtain rfl := Spot.inside.inj same
      exact h place part (rest ++ [name]) (by simp)

theorem IsGrounded.child {spot : Spot} (h : t.IsGrounded spot)
    (there : t.look? spot = some .directory) (name : String) : t.IsGrounded (spot.child name) := by
  cases spot with
  | above => exact fun _ _ _ same => (by cases same)
  | nowhere => cases there
  | inside directory =>
    intro place part rest same
    have same := Spot.inside.inj same
    rcases List.eq_nil_or_concat rest with rfl | ⟨front, last, rfl⟩
    · obtain ⟨rfl, -⟩ := List.append_inj' same rfl
      exact there
    · rw [List.concat_eq_append, ← List.cons_append, ← List.append_assoc] at same
      obtain ⟨rfl, -⟩ := List.append_inj' same rfl
      exact h place part front rfl

theorem IsGrounded.step {spot s : Spot} {piece : List Char} (h : t.IsGrounded spot)
    (next : t.step spot piece = .ok s) : t.IsGrounded s := by
  obtain ⟨there, next⟩ := step_eq_ok.mp next
  split at next
  · exact Except.ok.inj next ▸ h
  · split at next
    · exact Except.ok.inj next ▸ (h.up there).1
    · split at next
      · cases next
      · exact Except.ok.inj next ▸ h.child there _

theorem IsGrounded.follow {pieces : List (List Char)} {spot s : Spot} (h : t.IsGrounded spot)
    (along : pieces.foldlM t.step spot = .ok s) : t.IsGrounded s := by
  induction pieces generalizing spot with
  | nil => exact Except.ok.inj along ▸ h
  | cons piece pieces ih =>
    rw [List.foldlM_cons] at along
    obtain ⟨next, first, others⟩ := exists_of_bind_ok along
    exact ih (h.step first) others

/-- Pieces that name nothing lead nowhere else. -/
theorem follow_voids {pieces : List (List Char)} {spot s : Spot}
    (voids : ∀ piece ∈ pieces, Path.isVoid piece = true)
    (along : pieces.foldlM t.step spot = .ok s) : s = spot := by
  induction pieces with
  | nil => exact (Except.ok.inj along).symm
  | cons piece pieces ih =>
    rw [List.foldlM_cons] at along
    obtain ⟨next, first, others⟩ := exists_of_bind_ok along
    have first := (step_eq_ok.mp first).2
    rw [if_pos (voids piece List.mem_cons_self)] at first
    obtain rfl := Except.ok.inj first
    exact ih (fun piece mem => voids piece (List.mem_cons_of_mem _ mem)) others

/-- A path to a file: a relative one, with a name behind the path of a directory. -/
theorem exists_of_locate_file {p : Path} {place : Place} {content : Content}
    (leads : t.locate p = .ok (.inside place)) (file : t.find? place = some (.file content)) :
    ∃ front piece directory, p.isAbsolute = false ∧ start p = .ok (.inside []) ∧
      p.pieces = front ++ [piece] ∧ Path.isVoid piece = false ∧ piece ≠ ['.', '.'] ∧
      front.foldlM t.step (.inside []) = .ok (.inside directory) ∧
      t.find? directory = some .directory ∧ t.step (.inside directory) piece =
        .ok (.inside place) := by
  obtain ⟨relative, -⟩ := inward_of_locate leads
  obtain ⟨first, begun, along⟩ := exists_of_bind_ok leads
  have first_eq := start_eq_ok begun
  rw [relative] at first_eq
  obtain rfl : first = .inside [] := first_eq
  rcases List.eq_nil_or_concat p.pieces with none | ⟨front, piece, pieces⟩
  · exact absurd none (Text.splitOn_ne_nil _ _)
  · rw [List.concat_eq_append] at pieces
    rw [pieces, follow_concat] at along
    obtain ⟨spot, before, last⟩ := along
    have grounded : t.IsGrounded spot := by
      refine IsGrounded.follow (fun above name rest same => ?_) before
      cases above <;> cases Spot.inside.inj same
    obtain ⟨there, next⟩ := step_eq_ok.mp last
    have other {s : Spot} (directory : t.look? s = some .directory) : s ≠ .inside place := by
      rintro rfl
      cases file.symm.trans directory
    split at next
    · exact absurd (Except.ok.inj next) (other there)
    · next solid =>
      split at next
      · exact absurd (Except.ok.inj next) (other (grounded.up there).2)
      · next down =>
        split at next
        · cases next
        · obtain ⟨directory, rfl, -⟩ := child_eq_inside (Except.ok.inj next)
          exact ⟨front, piece, directory, relative, begun, pieces,
            by simpa using solid, down, before, there, last⟩

/-- Writing over a file that a path leads to. -/
theorem write_of_file {p : Path} {place : Place} {content : Content}
    (leads : t.locate p = .ok (.inside place)) (file : t.find? place = some (.file content))
    (s : String) :
    t.write p s = .ok (t.put place (.file (.text s))) := by
  obtain ⟨front, piece, directory, -, begun, pieces, solid, down, before, there, last⟩ :=
    exists_of_locate_file leads file
  have open_ := Path.getLast?_ne_of_pieces pieces (Path.ne_nil_of_isVoid solid)
  have cut : t.split p = .ok (.inside directory, some piece) := by
    rw [split, begun]
    change (((p.pieces.reverse.dropWhile (· == [])).reverse.dropLast.foldlM t.step
      (.inside []) >>= _) : Except AccessError _) = _
    rw [Path.dropWhile_pieces (ne_empty_of_locate leads) open_, pieces,
      List.dropLast_concat, before]
    change (t.expectDirectory (.inside directory) >>= _ : Except AccessError _) = _
    rw [show t.expectDirectory (.inside directory) = .ok () from expectDirectory_eq_ok.mpr there,
      List.getLast?_concat]
    simp [bind, Except.bind, pure, Except.pure, solid, down]
  rw [write, cut]
  change (if p.text.toList.getLast? = some '/' then _ else t.step (.inside directory) piece >>= _ :
    Except AccessError _) = _
  rw [if_neg open_, last]
  change (if t.find? place = some .directory then _ else _ : Except AccessError _) = _
  rw [if_neg (by simp [file])]
  rfl

/-- The parent of a path to a file is empty or leads to a directory. -/
theorem exists_parent_of_file {p : Path} {place : Place} {content : Content}
    (leads : t.locate p = .ok (.inside place)) (file : t.find? place = some (.file content)) :
    p.parent? = some ⟨""⟩ ∨ ∃ parent, p.parent? = some parent ∧
      parent.text.toList.getLast? ≠ some '/' ∧ parent.text ≠ "" ∧
        t.node? parent = some .directory := by
  obtain ⟨front, piece, directory, relative, begun, pieces, solid, -, before, there, -⟩ :=
    exists_of_locate_file leads file
  cases front with
  | nil =>
    left
    rw [List.nil_append] at pieces
    simp [Path.parent?, pieces, Path.ne_nil_of_isVoid solid]
  | cons head middle =>
    right
    obtain ⟨parent, voids, is, parts, void, ⟨w, text⟩, full, last⟩ :=
      Path.exists_parent relative pieces solid
    refine ⟨parent, is, last, full, ?_⟩
    obtain ⟨front_eq, -⟩ := List.append_inj' (pieces.symm.trans parts) rfl
    rw [front_eq, List.foldlM_append] at before
    obtain ⟨spot, along, rest⟩ := exists_of_bind_ok before
    obtain rfl := follow_voids void rest
    have found : t.locate parent = .ok (.inside directory) := by
      rw [locate, start_of_append text full begun]
      exact along
    rw [node?, found]
    exact there

/-- There is a directory already. -/
theorem exists_makeDirectory_error {p : Path} (there : t.node? p = some .directory)
    (last : p.text.toList.getLast? ≠ some '/') : ∃ e, t.makeDirectory p = .error e := by
  cases made : t.makeDirectory p with
  | error e => exact ⟨e, rfl⟩
  | ok u =>
    obtain ⟨⟨spot, piece⟩, cut, made⟩ := exists_of_bind_ok made
    cases piece with
    | none => cases made
    | some piece =>
      obtain ⟨s, next, made⟩ := exists_of_bind_ok made
      obtain ⟨-, -, follow⟩ := split_eq_ok cut
      obtain ⟨first, front, begun, pieces, along⟩ := follow last
      have found : t.locate p = .ok s := by
        rw [locate, begun]
        change p.pieces.foldlM t.step first = _
        rw [pieces, follow_concat]
        exact ⟨_, along, next⟩
      rw [node?, found] at there
      dsimp only at there made
      rw [there] at made
      cases s <;> cases made

end FileTree

/-! ### Saving -/

open FileTree

variable {t : FileTree}

theorem acts_ensureDirectory_of_directory {p : Path} (there : t.node? p = some .directory)
    (last : p.text.toList.getLast? ≠ some '/') :
    Acts (Workspace.ensureDirectory (m := StateM Session) p) t (.ok ()) t := by
  obtain ⟨e, failed⟩ := exists_makeDirectory_error there last
  refine Acts.bind (acts_update_error (·.makeDirectory p) failed fun _ => rfl) ?_
  refine Acts.bind (acts_isDirectory p t) ?_
  rw [there]
  exact .pure _ t

theorem does_makeDirectories_of_directory {p : Path} (there : t.node? p = some .directory)
    (last : p.text.toList.getLast? ≠ some '/') (full : p.text ≠ "") :
    Does (makeDirectories p) t (.ok ()) t := by
  have ensured : Acts
      (Workspace.ensureDirectories (m := StateM Session) (p.pieces.length + 2) p)
      t (.ok ()) t := by
    rw [Workspace.ensureDirectories, if_neg (by simpa using full)]
    exact Acts.bind (acts_ensureDirectory_of_directory there last) (.pure _ t)
  exact Acts.bind ensured (.pure _ t)

/-- Saving over a file puts the new text at its place. -/
theorem does_save_of_file {p : Path} {place : Place} {content : Content}
    (leads : t.locate p = .ok (.inside place)) (file : t.find? place = some (.file content))
    (s : String) :
    Does (save p s) t (.ok ()) (t.put place (.file (.text s))) := by
  have written : Does (access p (Workspace.write p s)) t (.ok ()) (t.put place (.file (.text s))) :=
    Acts.bind (acts_update (·.write p s) (write_of_file leads file s) fun _ => rfl) (.pure _ _)
  rw [save]
  rcases exists_parent_of_file leads file with none | ⟨parent, is, last, full, there⟩
  · rw [none]
    exact written
  · rw [is]
    dsimp only
    rw [if_pos full]
    exact .bind (does_makeDirectories_of_directory there last full) written

/-- The trees have their directories and their files at the same places. -/
structure FileTree.Resembles (t u : FileTree) : Prop where
  directories : KeepsDirectories t u
  files : ∀ place, (u.find? place).any Node.isFile = (t.find? place).any Node.isFile

theorem FileTree.Resembles.isFile {t u : FileTree} (h : t.Resembles u) {p : Path} {spot : Spot}
    (leads : t.locate p = .ok spot) :
    (u.node? p).any Node.isFile = (t.node? p).any Node.isFile := by
  rw [node?, node?, leads, h.directories.locate leads]
  cases spot with
  | inside place => exact h.files place
  | above => rfl
  | nowhere => rfl

theorem FileTree.Resembles.trans {t u v : FileTree} (h : t.Resembles u) (h' : u.Resembles v) :
    t.Resembles v :=
  ⟨h.directories.trans h'.directories, fun place => (h'.files place).trans (h.files place)⟩

theorem FileTree.resembles_put {place : Place} {content : Content}
    (file : t.find? place = some (.file content)) (content' : Content) :
    t.Resembles (t.put place (.file content')) where
  directories := keepsDirectories_put (by rw [file]; exact nofun)
  files other := by
    by_cases here : other = place
    · rw [here, find?_put_self (ne_nil_of_file file), file]
      rfl
    · rw [find?_put_of_ne here]

/-- A text can be saved wherever there is a file already. -/
theorem exists_save {p : Path} (there : (t.node? p).any Node.isFile = true) (s : String) :
    ∃ u, Does (save p s) t (.ok ()) u ∧ t.Resembles u := by
  obtain ⟨node, found, isFile⟩ := (Option.any_eq_true _ _).mp there
  cases node with
  | directory => cases isFile
  | file content =>
    obtain ⟨spot, leads, found⟩ := FileTree.node?_eq_some found
    cases spot with
    | inside place => exact ⟨_, does_save_of_file leads found s, FileTree.resembles_put found _⟩
    | above => cases found
    | nowhere => cases found

end Polyglot
