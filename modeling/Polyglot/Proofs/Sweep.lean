import Polyglot.Proofs.Abort
import Polyglot.Proofs.Places
import Polyglot.Stale

/-!
Sweeping stale files. `Stale.Found` says what a stale file is: a file directly in a folder whose
name looks generated, is that of no class and is not protected. A sweep deletes exactly the files
that it says so of, each once. Such a folder lies in the working directory: its path is relative and
does not leave it (`FileTree.inward_of_locate`). Deleting files moves no directory, so what a folder
holds later is what it held at first, less what is gone by then: `Cleared` carries this through a
sweep.
-/

namespace Polyglot

/-! ### Sorted names -/

theorem perm_insertBy {α : Type} (le : α → α → Bool) (a : α) (xs : List α) :
    (insertBy le a xs).Perm (a :: xs) := by
  induction xs with
  | nil => exact .refl _
  | cons b xs ih =>
    rw [insertBy]
    split
    · exact .refl _
    · exact (ih.cons b).trans (.swap a b xs)

theorem perm_sortBy {α : Type} (le : α → α → Bool) (xs : List α) : (sortBy le xs).Perm xs := by
  induction xs with
  | nil => exact .refl _
  | cons a xs ih => exact (perm_insertBy le a _).trans (ih.cons a)

/-- Names that are all different stand in strictly increasing order. -/
theorem pairwise_lt_sortBy {names : List String} (single : names.Nodup) :
    (sortBy textLe names).Pairwise (· < ·) := by
  have apart : (sortBy textLe names).Nodup := (perm_sortBy textLe names).nodup_iff.mpr single
  refine (Generator.pairwise_sortBy names).imp₂ ?_ apart
  intro a b le ne
  by_contra not_lt
  exact ne (String.le_antisymm le (String.not_lt.mp not_lt))

namespace FileTree

/-- The names in a directory are those of its files, each once. A directory above the working
directory shows none. -/
theorem IsProper.listNames {t : FileTree} (h : t.IsProper) {p : Path}
    (there : t.node? p = some .directory) : ∃ names, t.listNames p = .ok names ∧ names.Nodup ∧
      ∀ name, name ∈ names ↔ ∃ directory content, t.locate p = .ok (.inside directory) ∧
        t.find? directory = some .directory ∧ t.find? (directory ++ [name]) =
          some (.file content) := by
  obtain ⟨spot, leads, found⟩ := node?_eq_some there
  simp only [FileTree.listNames, leads, bind, Except.bind, found]
  cases spot with
  | inside place =>
    refine ⟨t.fileNames place, rfl, h.nodup_fileNames place, fun name => ?_⟩
    rw [h.mem_fileNames]
    constructor
    · rintro ⟨content, file⟩
      exact ⟨place, content, rfl, found, file⟩
    · rintro ⟨directory, content, same, -, file⟩
      obtain rfl : place = directory := Spot.inside.inj (Except.ok.inj same)
      exact ⟨content, file⟩
  | above =>
    refine ⟨[], rfl, .nil, fun name => ?_⟩
    simp
  | nowhere => cases found

/-! ### Trees without some of their files -/

/-- The tree `u` is `t` without the files at the places `gone`. -/
structure Cleared (t : FileTree) (gone : List Place) (u : FileTree) : Prop where
  proper : u.IsProper
  files : ∀ place ∈ gone, ∃ content, t.find? place = some (.file content)
  find : ∀ place, u.find? place = if place ∈ gone then none else t.find? place

namespace Cleared

variable {t u : FileTree} {gone : List Place}

theorem refl (h : t.IsProper) : Cleared t [] t :=
  ⟨h, fun _ mem => (List.not_mem_nil mem).elim, fun _ => rfl⟩

theorem find?_file (h : Cleared t gone u) {place : Place} {content : Content} :
    u.find? place = some (.file content) ↔ place ∉ gone ∧ t.find? place = some (.file content) := by
  rw [h.find]
  split
  · next inside => simp [inside]
  · next outside => simp [outside]

theorem find?_directory (h : Cleared t gone u) {place : Place} :
    u.find? place = some .directory ↔ t.find? place = some .directory := by
  rw [h.find]
  split
  · next inside =>
    obtain ⟨content, file⟩ := h.files place inside
    simp [file]
  · exact Iff.rfl

theorem locate (h : Cleared t gone u) {p : Path} {spot : Spot} :
    u.locate p = .ok spot ↔ t.locate p = .ok spot := by
  constructor
  · exact KeepsDirectories.locate fun place found => h.find?_directory.mp found
  · exact KeepsDirectories.locate fun place found => h.find?_directory.mpr found

/-- One more file is deleted. -/
theorem erase (h : Cleared t gone u) {place : Place} {content : Content}
    (file : u.find? place = some (.file content)) :
    Cleared t (gone ++ [place]) (u.erase place) where
  proper := h.proper.erase place
  files other mem := by
    rcases List.mem_append.mp mem with old | new
    · exact h.files other old
    · rw [List.mem_singleton.mp new]
      exact ⟨content, (h.find?_file.mp file).2⟩
  find other := by
    by_cases same : other = place
    · subst same
      rw [find?_erase_self (ne_nil_of_file file), if_pos (by simp)]
    · rw [find?_erase_of_ne same, h.find]
      simp [same]

/-- A file that can be removed at first can be removed as long as it is there. -/
theorem remove (h : Cleared t gone u) {p : Path} {place : Place} {v : FileTree}
    (removed : t.remove p = .ok v) (leads : t.locate p = .ok (.inside place))
    (kept : place ∉ gone) :
    u.remove p = .ok (u.erase place) ∧ Cleared t (gone ++ [place]) (u.erase place) := by
  obtain ⟨place', content, leads', file, -⟩ := remove_eq_ok removed
  obtain rfl : place = place' := Spot.inside.inj (Except.ok.inj (leads.symm.trans leads'))
  have there := h.find?_file.mpr ⟨kept, file⟩
  exact ⟨remove_of_file (h.locate.mpr leads) there, h.erase there⟩

/-- What can be removed later could be removed at first. -/
theorem not_remove (h : Cleared t gone u) {p : Path}
    (never : ∀ v, t.remove p ≠ .ok v) (v : FileTree) : u.remove p ≠ .ok v := by
  intro removed
  obtain ⟨place, content, leads, file, -⟩ := remove_eq_ok removed
  exact never (t.erase place) (remove_of_file (h.locate.mp leads) (h.find?_file.mp file).2)

end Cleared

end FileTree

namespace Job

theorem does_filesIn {directory : Path} {t : FileTree} {names : List String}
    (h : t.listNames directory = .ok names) :
    Does (filesIn directory) t (.ok ((sortBy textLe names).map fun name =>
      directory.join ⟨name⟩)) t := by
  have listed := acts_listNames directory t
  rw [h] at listed
  exact .bind (Acts.bind (Acts.bind listed (.pure _ t)) (.pure _ t)) (.pure _ t)

theorem does_filesIn_error {directory : Path} {t : FileTree} {e : AccessError}
    (h : t.listNames directory = .error e) :
    ∃ failure, Does (filesIn directory) t (.error failure) t := by
  have listed := acts_listNames directory t
  rw [h] at listed
  exact ⟨_, .bind_error (Acts.bind (Acts.bind listed (.pure _ t)) (.pure _ t))⟩

theorem does_remove {p : Path} {t u : FileTree} (h : t.remove p = .ok u) :
    Does (remove p) t (.ok ()) u := by
  have removed : Acts (Workspace.remove p) t (.ok ()) u := acts_update (·.remove p) h fun _ => rfl
  exact Acts.bind removed (.pure _ u)

theorem does_remove_error {p : Path} {t : FileTree} (h : ∀ u, t.remove p ≠ .ok u) :
    ∃ failure, Does (remove p) t (.error failure) t := by
  cases result : t.remove p with
  | ok u => exact absurd result (h u)
  | error e =>
    have failed : Acts (Workspace.remove p) t (.error e) t :=
      acts_update_error (·.remove p) result fun _ => rfl
    exact ⟨.fileAccess p e, Acts.bind failed (.pure _ t)⟩

end Job

namespace Stale

open FileTree Job

/-- A file directly in a folder that is to be deleted: its name looks generated, is that of no
class, and is not protected. -/
structure Found (e : Exclusions) (classes : Roster) (t : FileTree) (folder : Folder) (name : String)
    (place : Place) : Prop where
  direct : ∃ directory, t.locate folder.directory = .ok (.inside directory) ∧
    t.find? directory = some .directory ∧ place = directory ++ [name]
  file : ∃ content, t.find? place = some (.file content)
  generated : folder.extension.isMatch name.toList = true
  unclaimed : classes.contains (baseName name) = false
  unprotected : e.isProtected name = false

section Sweep

variable {e : Exclusions} {classes : Roster} {t u : FileTree} {gone : List Place}

theorem isStale_iff {extension : Pattern} {name : String} :
    isStale e classes extension name = true ↔ extension.isMatch name.toList = true ∧
      classes.contains (baseName name) = false ∧ e.isProtected name = false := by
  simp [isStale, and_assoc]

/-- What is found later was found at first and is not gone. -/
theorem found_cleared (h : Cleared t gone u) {folder : Folder} {name : String} {place : Place} :
    Found e classes u folder name place ↔ Found e classes t folder name place ∧ place ∉ gone := by
  constructor
  · rintro ⟨⟨directory, leads, there, here⟩, ⟨content, file⟩, generated, unclaimed, unprotected⟩
    obtain ⟨kept, file⟩ := h.find?_file.mp file
    exact ⟨⟨⟨directory, h.locate.mp leads, h.find?_directory.mp there, here⟩, ⟨content, file⟩,
      generated, unclaimed, unprotected⟩, kept⟩
  · rintro ⟨⟨⟨directory, leads, there, here⟩, ⟨content, file⟩, generated, unclaimed,
      unprotected⟩, kept⟩
    exact ⟨⟨directory, h.locate.mpr leads, h.find?_directory.mpr there, here⟩,
      ⟨content, h.find?_file.mpr ⟨kept, file⟩⟩, generated, unclaimed, unprotected⟩

theorem Found.place_unique {folder : Folder} {name : String} {place place' : Place}
    (h : Found e classes t folder name place) (h' : Found e classes t folder name place') :
    place = place' := by
  obtain ⟨directory, leads, -, here⟩ := h.direct
  obtain ⟨directory', leads', -, here'⟩ := h'.direct
  obtain rfl : directory = directory' := Spot.inside.inj (Except.ok.inj (leads.symm.trans leads'))
  rw [here, here']

variable (e classes) in
/-- The names of the stale files of a folder. -/
theorem does_inFolder (proper : u.IsProper) (folder : Folder) :
    ∃ names : List String, names.Pairwise (· < ·) ∧
      (∀ name, name ∈ names ↔ ∃ place, Found e classes u folder name place) ∧
      Does (inFolder e classes folder) u
        (.ok (names.map fun name => folder.directory.join ⟨name⟩)) u := by
  have asked := does_lift (acts_isDirectory folder.directory u)
  by_cases there : u.node? folder.directory = some .directory
  · obtain ⟨names, listed, single, mem⟩ := proper.listNames there
    refine ⟨(sortBy textLe names).filter (isStale e classes folder.extension),
      (pairwise_lt_sortBy single).filter _, fun name => ?_, ?_⟩
    · rw [List.mem_filter, mem_sortBy, mem, isStale_iff]
      constructor
      · rintro ⟨⟨directory, content, leads, isDirectory, file⟩, generated, unclaimed, unprotected⟩
        exact ⟨_, ⟨directory, leads, isDirectory, rfl⟩, ⟨content, file⟩, generated,
          unclaimed, unprotected⟩
      · rintro ⟨place, ⟨directory, leads, isDirectory, rfl⟩, ⟨content, file⟩, generated,
          unclaimed, unprotected⟩
        exact ⟨⟨directory, content, leads, isDirectory, file⟩, generated, unclaimed, unprotected⟩
    · -- the names of the listed paths are the listed names
      have names_of : ((sortBy textLe names).map fun name => folder.directory.join ⟨name⟩).filter
            (fun path => isStale e classes folder.extension (path.fileName?.getD "")) =
          ((sortBy textLe names).filter (isStale e classes folder.extension)).map
            fun name => folder.directory.join ⟨name⟩ := by
        rw [List.filter_map]
        refine congrArg (List.map _) (List.filter_congr fun name hname => ?_)
        obtain ⟨directory, content, -, -, file⟩ := (mem name).mp (mem_sortBy.mp hname)
        simp [(proper.isFileName file).fileName?_join]
      refine asked.bind ?_
      simp only [there, beq_self_eq_true, ↓reduceIte]
      rw [← names_of]
      exact (does_filesIn listed).bind (.pure _ u)
  · refine ⟨[], .nil, fun name => ?_, ?_⟩
    · simp only [List.not_mem_nil, false_iff]
      rintro ⟨place, found⟩
      obtain ⟨directory, leads, isDirectory, -⟩ := found.direct
      exact there (by rw [node?, leads]; exact isDirectory)
    · refine asked.bind ?_
      simpa [there] using Does.pure [] u

/-- What a sweep notes for a deleted file. -/
def deletion (folder : Folder) (name : String) : Diagnostic :=
  { kind := .staleArtifact (folder.directory.join ⟨name⟩) }

/-- The diagnostic is about the file at the place. -/
def Tells (t : FileTree) (d : Diagnostic) (place : Place) : Prop :=
  ∃ path, d = { kind := .staleArtifact path } ∧ t.locate path = .ok (.inside place)

theorem does_deleteFile {folder : Folder} {name : String} {v : FileTree}
    (h : u.remove (folder.directory.join ⟨name⟩) = .ok v) :
    Does (deleteFile (folder.directory.join ⟨name⟩)) u (.ok (deletion folder name)) v :=
  .bind (does_note _ _ u) (.bind (does_remove h) (.pure _ v))

theorem does_deleteFile_error {path : Path} (h : ∀ v, u.remove path ≠ .ok v) :
    ∃ failure, Does (deleteFile path) u (.error failure) u := by
  obtain ⟨failure, failed⟩ := does_remove_error h
  exact ⟨failure, .bind (does_note _ _ u) failed.bind_error⟩

variable (e classes t) in
/-- A file that is found in a folder and cannot be removed by the path that leads through the
folder. -/
def Stuck (folder : Folder) : Prop :=
  ∃ name place, Found e classes t folder name place ∧
    ∀ v, t.remove (folder.directory.join ⟨name⟩) ≠ .ok v

/-- The path of a file that is found and can be removed leads to it. -/
theorem Found.leads {folder : Folder} {name : String} {place : Place} {v : FileTree}
    (proper : t.IsProper) (h : Found e classes t folder name place)
    (removed : t.remove (folder.directory.join ⟨name⟩) = .ok v) :
    t.locate (folder.directory.join ⟨name⟩) = .ok (.inside place) := by
  obtain ⟨directory, above, -, rfl⟩ := h.direct
  obtain ⟨content, file⟩ := h.file
  obtain ⟨place, -, leads, -⟩ := remove_eq_ok removed
  obtain ⟨spot, base, -, child⟩ := locate_join (proper.isFileName file) leads
  obtain rfl : Spot.inside directory = spot :=
    Except.ok.inj ((base_of_locate above).symm.trans base)
  rw [leads, child]
  rfl

/-- Files of one directory are deleted one after another, unless one of them cannot be removed. -/
theorem does_deleteFiles {folder : Folder} {directory : Place} {names : List String}
    (proper : t.IsProper) (cleared : Cleared t gone u) (single : names.Nodup)
    (found : ∀ name ∈ names, Found e classes t folder name (directory ++ [name]))
    (kept : ∀ name ∈ names, directory ++ [name] ∉ gone) :
    (∃ v, Does ((names.map fun name => folder.directory.join ⟨name⟩).mapM deleteFile) u
        (.ok (names.map (deletion folder))) v ∧
      Cleared t (gone ++ names.map fun name => directory ++ [name]) v ∧
      List.Forall₂ (Tells t) (names.map (deletion folder)) (names.map fun name =>
        directory ++ [name])) ∨
    Stuck e classes t folder ∧ ∃ failure v,
      Does ((names.map fun name => folder.directory.join ⟨name⟩).mapM deleteFile) u
        (.error failure) v := by
  induction names generalizing gone u with
  | nil => exact .inl ⟨u, .pure [] u, by simpa using cleared, .nil⟩
  | cons name names ih =>
    obtain ⟨fresh, single⟩ := List.nodup_cons.mp single
    have here := found name List.mem_cons_self
    simp only [List.map_cons, List.mapM_cons]
    by_cases able : ∃ v, t.remove (folder.directory.join ⟨name⟩) = .ok v
    · obtain ⟨v, removed⟩ := able
      have leads := here.leads proper removed
      obtain ⟨first, cleared⟩ := cleared.remove removed leads (kept name List.mem_cons_self)
      have others := ih cleared single (fun other mem => found other (List.mem_cons_of_mem _ mem))
        fun other mem inside => by
          rcases List.mem_append.mp inside with old | new
          · exact kept other (List.mem_cons_of_mem _ mem) old
          · obtain rfl : other = name := by simpa using new
            exact fresh mem
      rcases others with ⟨w, others, cleared, tells⟩ | ⟨stuck, failure, w, failed⟩
      · exact .inl ⟨w, .bind (does_deleteFile first) (.bind others (.pure _ w)),
          by simpa using cleared, .cons ⟨_, rfl, leads⟩ tells⟩
      · exact .inr ⟨stuck, failure, w, .bind (does_deleteFile first) failed.bind_error⟩
    · have never : ∀ v, t.remove (folder.directory.join ⟨name⟩) ≠ .ok v :=
        fun v removed => able ⟨v, removed⟩
      obtain ⟨failure, failed⟩ := does_deleteFile_error (cleared.not_remove never)
      exact .inr ⟨⟨name, _, here, never⟩, failure, u, failed.bind_error⟩

variable (e classes) in
/-- One folder: what is found in it and not yet gone is deleted, in the order of the names. -/
theorem does_folder (proper : t.IsProper) (cleared : Cleared t gone u) (folder : Folder) :
    (∃ (names : List String) (places : List Place) (v : FileTree),
      Does (inFolder e classes folder >>= List.mapM deleteFile) u
        (.ok (names.map (deletion folder))) v ∧
      Cleared t (gone ++ places) v ∧ names.Pairwise (· < ·) ∧
      (∀ name, name ∈ names ↔ ∃ place, Found e classes t folder name place ∧ place ∉ gone) ∧
      (∀ place, place ∈ places ↔ (∃ name, Found e classes t folder name place) ∧ place ∉ gone) ∧
      places.Nodup ∧ List.Forall₂ (Tells t) (names.map (deletion folder)) places) ∨
    Stuck e classes t folder ∧ ∃ failure v,
      Does (inFolder e classes folder >>= List.mapM deleteFile) u (.error failure) v := by
  obtain ⟨names, sorted, mem, listed⟩ := does_inFolder e classes cleared.proper folder
  have mem :
      ∀ name, name ∈ names ↔ ∃ place, Found e classes t folder name place ∧ place ∉ gone := by
    intro name
    rw [mem]
    exact exists_congr fun place => found_cleared cleared
  obtain ⟨directory, here⟩ : ∃ directory, ∀ name ∈ names,
      Found e classes t folder name (directory ++ [name]) ∧ directory ++ [name] ∉ gone := by
    by_cases none : names = []
    · exact ⟨[], by simp [none]⟩
    · obtain ⟨name, names', rfl⟩ := List.exists_cons_of_ne_nil none
      obtain ⟨place, found, -⟩ := (mem name).mp List.mem_cons_self
      obtain ⟨directory, leads, -, -⟩ := found.direct
      refine ⟨directory, fun other hother => ?_⟩
      obtain ⟨place, found, kept⟩ := (mem other).mp hother
      obtain ⟨directory', leads', -, rfl⟩ := found.direct
      obtain rfl : directory = directory' :=
        Spot.inside.inj (Except.ok.inj (leads.symm.trans leads'))
      exact ⟨found, kept⟩
  have single : names.Nodup := sorted.imp fun lt => String.ne_of_lt lt
  rcases does_deleteFiles proper cleared single (fun name hname => (here name hname).1)
      (fun name hname => (here name hname).2) with
        ⟨v, deleted, cleared, tells⟩ | ⟨stuck, failure, v, failed⟩
  · refine .inl ⟨names, _, v, listed.bind deleted, cleared, sorted, mem, fun place => ?_, ?_, tells⟩
    · rw [List.mem_map]
      constructor
      · rintro ⟨name, hname, rfl⟩
        exact ⟨⟨name, (here name hname).1⟩, (here name hname).2⟩
      · rintro ⟨⟨name, found⟩, kept⟩
        have hname := (mem name).mpr ⟨place, found, kept⟩
        exact ⟨name, hname, (here name hname).1.place_unique found⟩
    · exact List.pairwise_map.mpr (single.imp fun apart same => apart (by simpa using same))
  · exact .inr ⟨stuck, failure, v, listed.bind failed⟩

variable (e classes t) in
/-- Stale files folder by folder, those of a folder in the order of their names. A file stands under
the first of the folders in which it is found. -/
inductive Lists : (earlier folders : List Folder) → List (List String) → Prop where
  | nil {earlier : List Folder} : Lists earlier [] []
  | cons {earlier folders : List Folder} {folder : Folder} {names : List String}
      {lists : List (List String)} (sorted : names.Pairwise (· < ·))
      (mem : ∀ name, name ∈ names ↔ ∃ place, Found e classes t folder name place ∧
        ∀ other ∈ earlier, ∀ name', ¬ Found e classes t other name' place)
      (later : Lists (earlier ++ [folder]) folders lists) :
      Lists earlier (folder :: folders) (names :: lists)

/-- What a sweep notes: a diagnostic for each of the listed files. -/
def noted (folders : List Folder) (lists : List (List String)) : List Diagnostic :=
  (List.zipWith (fun folder names => names.map (deletion folder)) folders lists).flatten

theorem Lists.of_mem_noted {earlier folders : List Folder} {lists : List (List String)}
    (h : Lists e classes t earlier folders lists) {d : Diagnostic} (hd : d ∈ noted folders lists) :
    ∃ folder ∈ folders, ∃ name place, Found e classes t folder name place ∧ d =
      deletion folder name := by
  induction h with
  | nil => cases hd
  | cons sorted mem later ih =>
    rcases List.mem_append.mp hd with here | there
    · obtain ⟨name, hname, rfl⟩ := List.mem_map.mp here
      obtain ⟨place, found, -⟩ := (mem name).mp hname
      exact ⟨_, List.mem_cons_self, name, place, found, rfl⟩
    · obtain ⟨folder, hfolder, rest⟩ := ih there
      exact ⟨folder, List.mem_cons_of_mem _ hfolder, rest⟩

variable (e classes) in
/-- The induction is on the folders; `gone` are the files of those before. -/
theorem does_folders (earlier folders : List Folder) (proper : t.IsProper)
    (cleared : Cleared t gone u) (swept : ∀ place, place ∈ gone ↔ ∃ folder ∈ earlier, ∃ name,
      Found e classes t folder name place) :
    (∃ (lists : List (List String)) (places : List Place) (v : FileTree),
      Does (folders.mapM fun folder => inFolder e classes folder >>= List.mapM deleteFile) u
        (.ok (List.zipWith (fun folder names => names.map (deletion folder)) folders lists)) v ∧
      Cleared t (gone ++ places) v ∧ Lists e classes t earlier folders lists ∧
      (∀ place, place ∈ gone ++ places ↔
        ∃ folder ∈ earlier ++ folders, ∃ name, Found e classes t folder name place) ∧
      (gone.Nodup → (gone ++ places).Nodup) ∧ List.Forall₂ (Tells t) (noted folders lists) places) ∨
    (∃ folder ∈ folders, Stuck e classes t folder) ∧ ∃ failure v,
      Does (folders.mapM fun folder => inFolder e classes folder >>= List.mapM deleteFile) u
        (.error failure) v := by
  induction folders generalizing earlier gone u with
  | nil =>
    exact .inl ⟨[], [], u, .pure [] u,
      by simpa using cleared, .nil, by simpa using swept, by simp, .nil⟩
  | cons folder folders ih =>
    rw [List.mapM_cons]
    rcases does_folder e classes proper cleared folder with
      ⟨names, here, v, first, cleared₁, sorted, mem, mem_here, single_here, tells_here⟩ |
      ⟨stuck, failure, v, failed⟩
    · have swept₁ (place : Place) : place ∈ gone ++ here ↔
          ∃ other ∈ earlier ++ [folder], ∃ name, Found e classes t other name place := by
        rw [List.mem_append, mem_here, or_and_left, and_iff_left (Classical.em _), swept]
        simp only [List.mem_append, List.mem_singleton, or_and_right, exists_or, exists_eq_left]
      rcases ih (earlier ++ [folder]) cleared₁ swept₁ with
        ⟨lists, places, w, others, cleared₂, later, swept₂, single, tells⟩ |
        ⟨⟨other, hother, stuck⟩, failure, w, failed⟩
      · refine .inl ⟨names :: lists, here ++ places, w, .bind first (.bind others (.pure _ w)), ?_,
          .cons sorted ?_ later, by simpa using swept₂, ?_, List.rel_append tells_here tells⟩
        · rwa [← List.append_assoc]
        · intro name
          rw [mem]
          refine exists_congr fun place => and_congr_right fun _ => ?_
          rw [swept]
          simp
        · intro single_gone
          rw [← List.append_assoc]
          refine single (List.nodup_append.mpr ⟨single_gone, single_here, ?_⟩)
          rintro place old _ new rfl
          exact ((mem_here place).mp new).2 old
      · exact .inr ⟨⟨other, List.mem_cons_of_mem _ hother, stuck⟩, failure, w,
          first.bind failed.bind_error⟩
    · exact .inr ⟨⟨folder, List.mem_cons_self, stuck⟩, failure, v, failed.bind_error⟩

variable (e classes) in
/-- A sweep either deletes all that is found, or there is a file that it cannot remove. -/
theorem does_sweep (folders : List Folder) (proper : t.IsProper) :
    (∃ (lists : List (List String)) (places : List Place) (u : FileTree),
      Does (sweep e classes folders) t (.ok (noted folders lists)) u ∧ Cleared t places u ∧
      (∀ place, place ∈ places ↔ ∃ folder ∈ folders, ∃ name, Found e classes t folder name place) ∧
      Lists e classes t [] folders lists ∧
      places.Nodup ∧ List.Forall₂ (Tells t) (noted folders lists) places) ∨
    (∃ folder ∈ folders, Stuck e classes t folder) ∧
      ∃ failure u, Does (sweep e classes folders) t (.error failure) u := by
  rcases does_folders e classes [] folders proper (Cleared.refl proper) (by simp) with
    ⟨lists, places, u, deleted, cleared, listed, mem, single, tells⟩ | ⟨stuck, failure, v, failed⟩
  · rw [List.nil_append] at cleared mem single
    exact .inl ⟨lists, places, u, deleted.bind (.pure _ u), cleared, mem, listed,
      single .nil, tells⟩
  · exact .inr ⟨stuck, failure, v, failed.bind_error⟩

/-- Where nothing is found, nothing is done. -/
theorem does_folders_nil {folders : List Folder} (proper : u.IsProper)
    (clean : ∀ folder ∈ folders, ∀ name place, ¬ Found e classes u folder name place) :
    Does (folders.mapM fun folder => inFolder e classes folder >>= List.mapM deleteFile) u
      (.ok (folders.map fun _ => [])) u := by
  induction folders with
  | nil => exact .pure [] u
  | cons folder folders ih =>
    obtain ⟨names, -, mem, listed⟩ := does_inFolder e classes proper folder
    obtain rfl : names = [] := by
      refine List.eq_nil_iff_forall_not_mem.mpr fun name hname => ?_
      obtain ⟨place, found⟩ := (mem name).mp hname
      exact clean folder List.mem_cons_self name place found
    rw [List.mapM_cons]
    exact .bind (listed.bind (.pure [] u))
      (.bind (ih fun other hother => clean other (List.mem_cons_of_mem _ hother)) (.pure _ u))

/-- A sweep deletes exactly the stale files, unless it fails at one of them that cannot be removed.
The diagnostics tell of each once, folder by folder and by name, and a second sweep finds nothing
left. -/
theorem sweep_deletes_stale {folders : List Folder} (proper : t.IsProper) :
    (∃ (lists : List (List String)) (places : List Place) (u : FileTree),
      Does (sweep e classes folders) t (.ok (noted folders lists)) u ∧
      (∀ place, u.find? place = if place ∈ places then none else t.find? place) ∧
      (∀ place, place ∈ places ↔ ∃ folder ∈ folders, ∃ name, Found e classes t folder name place) ∧
      Lists e classes t [] folders lists ∧
      places.Nodup ∧ List.Forall₂ (Tells t) (noted folders lists) places ∧
      Does (sweep e classes folders) u (.ok []) u) ∨
    (∃ folder ∈ folders, Stuck e classes t folder) ∧
      ∃ failure u, Does (sweep e classes folders) t (.error failure) u := by
  rcases does_sweep e classes folders proper with
    ⟨lists, places, u, deleted, cleared, mem, listed, single, tells⟩ | failed
  case inr => exact .inr failed
  refine .inl ⟨lists, places, u, deleted, cleared.find, mem, listed, single, tells, ?_⟩
  have clean : ∀ folder ∈ folders, ∀ name place, ¬ Found e classes u folder name place := by
    intro folder hfolder name place found
    obtain ⟨found, kept⟩ := (found_cleared cleared).mp found
    exact kept ((mem place).mpr ⟨folder, hfolder, name, found⟩)
  have again : Does (sweep e classes folders) u (.ok (folders.map fun _ => []).flatten) u :=
    (does_folders_nil cleared.proper clean).bind (.pure _ u)
  rwa [List.flatten_eq_nil_iff.mpr (by simp)] at again

end Sweep

/-- The exclusions of the default settings. -/
def standardExclusions : Exclusions :=
  (Exclusions.ofTexts ["^Exchange", "errors", "__init__", r"^\."]).toOption.get (by decide +kernel)

/-- Generated files of a class and of none, of both kinds, a protected one, and a directory that
looks like a generated file. -/
def mixedFiles : FileTree :=
  ⟨[(["out"], .directory), (["out", "a.py"], .file (.text "")),
    (["out", "b.pyc"], .file (.text "")), (["out", "b.py"], .file (.text "")),
    (["out", ".c.py"], .file (.text "")), (["out", "d.php"], .file (.text "")),
    (["out", "e.py"], .directory)]⟩

/-- One directory under two spellings, and one that is missing. -/
def twoSpellings : List Folder :=
  [Kind.python.folder ⟨"out"⟩, Kind.php.folder ⟨"missing"⟩, Kind.python.folder ⟨"./out/"⟩]

theorem sweep_deletes_stale_twoSpellings :
    ∃ lists u, Does (sweep standardExclusions ⟨[("a", "Exchange")]⟩ twoSpellings) mixedFiles
        (.ok (noted twoSpellings lists)) u ∧
      u.find? ["out", "b.py"] = none ∧ u.find? ["out", "b.pyc"] = none ∧
      u.find? ["out", "a.py"] = some (.file (.text "")) ∧ u.find? ["out", ".c.py"] =
        some (.file (.text "")) ∧
      u.find? ["out", "e.py"] = some .directory ∧
      Does (sweep standardExclusions ⟨[("a", "Exchange")]⟩ twoSpellings) u (.ok []) u := by
  have proper : mixedFiles.IsProper := ⟨by decide +kernel, by decide +kernel⟩
  have able : ∀ folder ∈ twoSpellings,
      ((mixedFiles.listNames folder.directory).toOption.all fun names => names.all fun name =>
        (mixedFiles.remove (folder.directory.join ⟨name⟩)).toOption.isSome) = true := by
    decide +kernel
  rcases @sweep_deletes_stale standardExclusions ⟨[("a", "Exchange")]⟩ mixedFiles
    twoSpellings proper with
    ⟨lists, places, u, deleted, find, mem, -, -, -, again⟩ |
    ⟨⟨folder, hfolder, name, place, found, never⟩, -⟩
  case inr =>
    obtain ⟨directory, leads, there, rfl⟩ := found.direct
    obtain ⟨content, file⟩ := found.file
    have listed : mixedFiles.node? folder.directory = some .directory := by
      rw [FileTree.node?, leads]
      exact there
    obtain ⟨names, listed, -, mem_names⟩ := proper.listNames listed
    have all := able folder hfolder
    rw [listed, Except.toOption, Option.all_some, List.all_eq_true] at all
    have named := (mem_names name).mpr ⟨directory, content, leads, there, file⟩
    obtain ⟨v, hv⟩ := Option.isSome_iff_exists.mp (all name named)
    exact absurd (eq_ok_of_toOption hv) (never v)
  have gone (name : String) (file : ∃ content,
    mixedFiles.find? ["out", name] = some (.file content))
      (stale : isStale standardExclusions ⟨[("a", "Exchange")]⟩ Kind.python.extension name = true) :
      u.find? ["out", name] = none := by
    obtain ⟨generated, unclaimed, unprotected⟩ := isStale_iff.mp stale
    rw [find, if_pos ((mem _).mpr ⟨Kind.python.folder ⟨"out"⟩, by simp [twoSpellings], name, ?_⟩)]
    exact ⟨⟨["out"], eq_ok_of_toOption (by decide +kernel), by decide +kernel, rfl⟩, file,
      generated, unclaimed, unprotected⟩
  have kept (name : String) (file : mixedFiles.find? ["out", name] = some (.file (.text "")))
      (fresh : (twoSpellings.all fun folder =>
        !isStale standardExclusions ⟨[("a", "Exchange")]⟩ folder.extension name) = true) :
      u.find? ["out", name] = some (.file (.text "")) := by
    rw [find, if_neg, file]
    intro inside
    obtain ⟨folder, hfolder, other, found⟩ := (mem _).mp inside
    obtain ⟨directory, -, -, place⟩ := found.direct
    have last : ["out"] ++ [name] = directory ++ [other] := place
    obtain rfl : name = other := List.singleton_inj.mp (List.append_inj' last rfl).2
    have stale := isStale_iff.mpr ⟨found.generated, found.unclaimed, found.unprotected⟩
    simpa [stale] using List.all_eq_true.mp fresh folder hfolder
  refine ⟨lists, u, deleted, gone "b.py" ⟨.text "", by decide +kernel⟩ (by decide +kernel),
    gone "b.pyc" ⟨.text "", by decide +kernel⟩ (by decide +kernel), kept "a.py" (by decide +kernel)
    (by decide +kernel),
    kept ".c.py" (by decide +kernel) (by decide +kernel), ?_, again⟩
  have directory : mixedFiles.find? ["out", "e.py"] = some .directory := by decide +kernel
  rw [find, if_neg, directory]
  intro inside
  obtain ⟨folder, -, name, found⟩ := (mem _).mp inside
  obtain ⟨content, file⟩ := found.file
  rw [directory] at file
  cases file

end Stale

end Polyglot
