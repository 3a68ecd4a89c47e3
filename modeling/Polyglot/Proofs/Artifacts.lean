import Polyglot.Proofs.DryRuns
import Polyglot.Proofs.Endings

/-!
What becomes of the artifacts of a run. An artifact is in the tree behind a run exactly if it was
the last one to be written under its path and the sweep of stale files spared it. The sweep goes by
the names of classes, and artifacts bear the names of their sources: a class that is not called like
its source does not protect what was rendered from it.
-/

namespace Polyglot

open Job FileTree

namespace Generator

variable {g : Generator} {t u : FileTree}

/-! ### Writing one after another -/

/-- A file that was saved is where its path leads. -/
theorem exists_place_of_save {p : Path} {s : String} (h : Does (save p s) t (.ok ()) u) :
    ∃ place, u.locate p = .ok (.inside place) ∧ u.find? place = some (.file (.text s)) := by
  have frame := isFrame_touches fun _ => True
  have written (t' : FileTree) (h : Does (access p (Workspace.write p s)) t' (.ok ()) u) :
      ∃ place, u.locate p = .ok (.inside place) ∧ u.find? place = some (.file (.text s)) := by
    have changed : t'.write p s = .ok u := eq_ok_of_access (·.write p s) (fun _ => rfl) h
    obtain ⟨place, leads, full, free, rfl, -⟩ := write_eq_ok changed
    exact ⟨place, (keepsDirectories_put free).locate leads, find?_put_self full t' _⟩
  have steady :
      Steady (Touches fun _ => True) (access (m := StateM Session) p (Workspace.write p s)).run :=
    steady_access frame p (steady_update frame (fun _ => rfl) fun _ _ => Touches.write trivial)
  rw [save] at h
  split at h
  · split at h
    · obtain ⟨⟨⟩, t₁, -, last⟩ :=
        Does.exists_of_bind (steady_makeDirectories_touches (P := fun _ => True) _)
          (fun _ => steady) h
      exact written t₁ last
    · exact written t h
  · exact written t h

theorem Saves.exists_place {artifacts : List Artifact} (h : Saves t artifacts u) {a : Artifact}
    (ha : a ∈ artifacts) : ∃ place, u.locate a.path = .ok (.inside place) := by
  induction h with
  | nil => cases ha
  | cons save others ih =>
    rcases List.mem_cons.mp ha with rfl | later
    · obtain ⟨place, leads, -⟩ := exists_place_of_save save
      exact ⟨place, others.touches.directories.locate leads⟩
    · exact ih later

/-- What is written last at a place stays there. -/
theorem Saves.find?_last {before after : List Artifact} {a : Artifact} {place : Place}
    (h : Saves t (before ++ a :: after) u) (leads : u.locate a.path = .ok (.inside place))
    (last : ∀ b ∈ after, u.locate b.path ≠ .ok (.inside place)) :
    u.find? place = some (.file (.text a.text)) := by
  induction before generalizing t with
  | nil =>
    cases h with
    | cons save others =>
      obtain ⟨place', leads', found⟩ := exists_place_of_save save
      have kept := others.touches
      obtain rfl : place = place' :=
        Spot.inside.inj (Except.ok.inj (leads.symm.trans (kept.directories.locate leads')))
      refine (kept.files place ?_ _).mpr found
      rintro p ⟨b, hb, rfl⟩
      exact last b hb
  | cons b before ih =>
    cases h with
    | cons _ others => exact ih others

/-- The text that is written last under a path. -/
def lastText (written : List Artifact) (p : Path) : Option String :=
  (written.reverse.find? (·.path = p)).map Artifact.text

theorem exists_last {written : List Artifact} {a : Artifact} (ha : a ∈ written) :
    ∃ before b after, written = before ++ b :: after ∧ b.path = a.path ∧
      (∀ c ∈ after, c.path ≠ a.path) ∧ lastText written a.path = some b.text := by
  have found : (written.reverse.find? (·.path = a.path)).isSome = true := by
    rw [List.find?_isSome]
    exact ⟨a, List.mem_reverse.mpr ha, by simp⟩
  obtain ⟨b, hb⟩ := Option.isSome_iff_exists.mp found
  obtain ⟨same, after, before, whole, none⟩ := List.find?_eq_some_iff_append.mp hb
  refine ⟨before.reverse, b, after.reverse, ?_, by simpa using same, fun c hc => ?_, ?_⟩
  · rw [← List.reverse_reverse written, whole]
    simp
  · simpa using none c (List.mem_reverse.mp hc)
  · rw [lastText, hb]
    rfl

/-! ### The places of artifacts -/

theorem isFileName_artifact {stem : String} (single : '/' ∉ stem.toList) (target : Target) :
    Path.IsFileName (stem ++ "." ++ target.extension) := by
  have chars :
      (stem ++ "." ++ target.extension).toList = stem.toList ++ '.' :: target.extension.toList := by
    simp
  have long : 2 ≤ target.extension.toList.length ∧ '/' ∉ target.extension.toList := by
    cases target <;> decide
  have length : 3 ≤ (stem ++ "." ++ target.extension).toList.length := by
    rw [chars, List.length_append, List.length_cons]
    omega
  refine ⟨?_, ?_, ?_⟩
  · rw [Path.isVoid]
    generalize (stem ++ "." ++ target.extension).toList = name at length
    have : name ≠ [] ∧ name ≠ ['.'] := by
      constructor <;> rintro rfl <;> simp at length
    simp [this]
  · intro same
    rw [same] at length
    simp at length
  · rw [chars]
    simp [single, long.2]

theorem not_mem_stem {name : String} {c : Char} (h : c ∉ name.toList) :
    c ∉ (Path.stem name).toList := by
  rw [Path.stem]
  split
  · exact h
  · rw [String.toList_ofList]
    intro inside
    exact h (List.mem_reverse.mp (List.mem_of_mem_drop (List.mem_reverse.mp inside)))

/-- The stem of a source is a name without slashes. -/
theorem single_stem {c : Settings} {sources : List Path} (proper : t.IsProper)
    (found : Does c.sources t (.ok sources) t) {r : Rendition} (hr : r.source ∈ sources) :
    '/' ∉ r.stem.toList := by
  obtain ⟨inclusion, -, mem⟩ := exists_of_sources proper found
  obtain ⟨directory, name, content, -, -, file, -, source⟩ := (mem _).mp hr
  have named := proper.isFileName file
  rw [Rendition.stem, source, Path.fileStem?, named.fileName?_join]
  exact not_mem_stem named.single

theorem exists_directory_of_artifact {stem text : String} {target : Target} {place : Place}
    (single : '/' ∉ stem.toList)
    (leads : u.locate (g.artifact stem target text).path = .ok (.inside place)) :
    ∃ directory, u.base (g.settings.folder target) = .ok (.inside directory) ∧
      u.find? directory = some .directory ∧ place = directory ++
        [stem ++ "." ++ target.extension] := by
  obtain ⟨spot, base, there, child⟩ := locate_join (isFileName_artifact single target) leads
  obtain ⟨directory, rfl, rfl⟩ := child_eq_inside child.symm
  exact ⟨directory, base, there, rfl⟩

/-! ### What is spared -/

/-- A file named for the stem is not stale: nothing is swept, the artifacts of the target lie where
no sweep looks, a class of the run bears the name, or it is protected. -/
def Spared (g : Generator) (done : List Rendition) (target : Target) (stem : String) : Prop :=
  g.settings.prune.enabled = false ∨ (g.settings.folder target).text = "" ∨
    (∃ r ∈ done, r.decl.name = stem) ∨
    ∃ e, Stale.Exclusions.ofTexts g.settings.prune.exclusions = .ok e ∧
      e.isProtected (stem ++ "." ++ target.extension) = true

/-- What kind of files a target is rendered to. -/
def fileKind (target : Target) : Stale.Kind :=
  if target.isPython then .python else .php

theorem mem_endings (target : Target) : "." ++ target.extension ∈ (fileKind target).endings := by
  cases target <;> decide

/-- The file of an artifact is found by the sweep unless it is spared. -/
theorem found_artifact_iff {done : List Rendition} {e : Stale.Exclusions} {stem : String}
    {target : Target} {directory : Place} {content : Content}
    (htarget : target ∈ g.settings.activeTargets)
    (compiled : Stale.Exclusions.ofTexts g.settings.prune.exclusions = .ok e)
    (enabled : g.settings.prune.enabled = true)
    (base : t.base (g.settings.folder target) = .ok (.inside directory))
    (there : t.find? directory = some .directory)
    (file : t.find? (directory ++ [stem ++ "." ++ target.extension]) = some (.file content))
    (apart : ∀ other ∈ g.settings.activeTargets,
      t.base (g.settings.folder other) = .ok (.inside directory) → other = target) :
    (∃ other ∈ g.settings.activeTargets, ∃ name, Stale.Found e (Rendition.roster done) t
      (staleFolder g.settings other) name (directory ++ [stem ++ "." ++ target.extension])) ↔
      ¬ Spared g done target stem := by
  have baseName : Stale.baseName (stem ++ "." ++ target.extension) = stem := by
    rw [String.append_assoc]
    exact Stale.Kind.baseName_append (mem_endings target) stem
  constructor
  · rintro ⟨other, hother, name, ⟨directory', leads, -, here⟩, -, -, unclaimed, unprotected⟩ spared
    obtain ⟨rfl, single⟩ := List.append_inj' here rfl
    obtain rfl : stem ++ "." ++ target.extension = name := List.singleton_inj.mp single
    obtain rfl : other = target := apart other hother (base_of_locate leads)
    rcases spared with disabled | empty | ⟨r, hr, rfl⟩ | ⟨e', compiled', isProtected⟩
    · rw [enabled] at disabled
      cases disabled
    · exact ne_empty_of_locate leads empty
    · rw [baseName, Bool.eq_false_iff] at unclaimed
      exact unclaimed (Rendition.contains_roster.mpr ⟨r, hr, rfl⟩)
    · obtain rfl : e = e' := Except.ok.inj (compiled.symm.trans compiled')
      rw [isProtected] at unprotected
      cases unprotected
  · intro lost
    simp only [Spared, not_or] at lost
    obtain ⟨-, full, unnamed, open_⟩ := lost
    rw [FileTree.base, if_neg full] at base
    refine ⟨target, htarget, _, ⟨directory, base, there, rfl⟩, ⟨content, file⟩, ?_, ?_, ?_⟩
    · refine Stale.Kind.isMatch_extension.mpr ⟨stem, _, mem_endings target, ?_⟩
      rw [String.append_assoc]
    · rw [baseName, Bool.eq_false_iff]
      intro named
      exact unnamed (Rendition.contains_roster.mp named)
    · rw [Bool.eq_false_iff]
      intro isProtected
      exact open_ ⟨e, compiled, isProtected⟩

/-- The file of an artifact behind the sweep, by what was written there last. -/
theorem Ran.find?_artifact {done : List Rendition} {t₁ t₂ t₃ : FileTree} {report : Report}
    (ran : Ran g t done t₁ t₂ t₃ u report) {target : Target} {stem text : String}
    {directory : Place}
    (htarget : target ∈ g.settings.activeTargets)
    (base : t₂.base (g.settings.folder target) = .ok (.inside directory))
    (there : t₂.find? directory = some .directory)
    (file : t₂.find? (directory ++ [stem ++ "." ++ target.extension]) = some (.file (.text text)))
    (apart : ∀ other ∈ g.settings.activeTargets,
      t₂.base (g.settings.folder other) = .ok (.inside directory) → other = target)
    (some_done : done ≠ []) (s : String) :
    t₃.find? (directory ++ [stem ++ "." ++ target.extension]) = some (.file (.text s)) ↔
      text = s ∧ Spared g done target stem := by
  rcases ran.sweep with ⟨idle, rfl, -⟩ | ⟨-, enabled, e, compiled, ⟨places, cleared, mem⟩, -⟩
  · have spared : Spared g done target stem := .inl (idle.resolve_left some_done)
    rw [file]
    simp [spared]
  · rw [cleared.find?_file, mem, found_artifact_iff htarget compiled enabled base there file apart,
      not_not, file]
    simp [and_comm]

/-- An artifact of a run is in the final tree with its text exactly if it is the last one written
under its path and the sweep spares it, which it does for the sake of classes and not of sources.
Artifacts where the manifest or an auxiliary file is written are left aside. -/
theorem run_keeps_artifact_iff {report : Report} (proper : t.IsProper)
    (ran : Does g.run t (.ok report) u)
    (apart : ∀ a ∈ g.settings.activeTargets, ∀ b ∈ g.settings.activeTargets, ∀ spot,
      u.base (g.settings.folder a) = .ok spot → u.base (g.settings.folder b) = .ok spot → a = b) :
    ∃ done t₁ t₂, Does g.makeFolders t (.ok ()) t₁ ∧
      Does g.settings.sources t₁ (.ok (done.map Rendition.source)) t₁ ∧ Batch g t₁ done t₂ ∧
      ∀ r ∈ done, ∀ target ∈ g.settings.activeTargets, ∃ a ∈ r.artifacts, a.target = target ∧
        a.path = (g.settings.folder target).join ⟨r.stem ++ "." ++ target.extension⟩ ∧
        a.text = (g.renderer.targetText r.decl target).2 ∧
        ((∀ p ∈ g.furtherOutputs, u.locate p ≠ u.locate a.path) →
          (u.read a.path = .ok a.text ↔
            lastText (done.flatMap Rendition.artifacts) a.path = some a.text ∧
              Spared g done target r.stem)) := by
  obtain ⟨done, t₁, t₂, t₃, ran⟩ := exists_ran_of_run proper ran
  refine ⟨done, t₁, t₂, ran.folders, ran.sources, ran.batch, fun r hr target htarget => ?_⟩
  have saves := ran.batch.saves
  have kept : KeepsDirectories t₂ u := ran.keepsDirectories
  have single (r' : Rendition) (hr' : r' ∈ done) : '/' ∉ r'.stem.toList :=
    single_stem (ran.proper_folders proper) ran.sources (List.mem_map_of_mem hr')
  have ha : g.artifact r.stem target (g.renderer.targetText r.decl target).2 ∈ r.artifacts := by
    rw [ran.batch.artifacts hr]
    exact List.mem_map_of_mem htarget
  refine ⟨_, ha, rfl, rfl, rfl, fun free => ?_⟩
  have written := List.mem_flatMap.mpr ⟨r, hr, ha⟩
  obtain ⟨place, leads⟩ := saves.exists_place written
  obtain ⟨directory, base, there, rfl⟩ := exists_directory_of_artifact (single r hr) leads
  have apart₂ (other : Target) (hother : other ∈ g.settings.activeTargets)
      (same : t₂.base (g.settings.folder other) = .ok (.inside directory)) : other = target :=
    apart other hother target htarget _ (kept.base same) (kept.base base)
  obtain ⟨before, b, after, whole, same, later, last⟩ := exists_last written
  -- an artifact that leads to the same place has the same path, for the directories differ
  have file : t₂.find? (directory ++ [r.stem ++ "." ++ target.extension]) =
      some (.file (.text b.text)) := by
    rw [whole] at saves
    refine saves.find?_last (same ▸ leads) fun c hc leads' => later c hc ?_
    have hc : c ∈ done.flatMap Rendition.artifacts := by simp [whole, hc]
    obtain ⟨r', hr', hc⟩ := List.mem_flatMap.mp hc
    rw [ran.batch.artifacts hr'] at hc
    obtain ⟨target', htarget', rfl⟩ := List.mem_map.mp hc
    obtain ⟨directory', base', -, here⟩ := exists_directory_of_artifact (single r' hr') leads'
    obtain ⟨rfl, name⟩ := List.append_inj' here rfl
    obtain rfl := apart₂ target' htarget' base'
    rw [artifact, artifact, List.singleton_inj.mp name]
  have leads_u := kept.locate leads
  rw [leads_u] at free
  rw [read_eq_ok_iff leads_u, ran.rest.files _ free,
    ran.find?_artifact htarget base there file apart₂ (List.ne_nil_of_mem hr),
    last, Option.some_inj]

/-- Two sources, of which only the first declares a class of its own name. -/
def renamedClass : FileTree :=
  ⟨[(["js"], .directory),
    (["js", "foo.js"], .file (.text
      "module.exports = class foo extends Exchange \x7b\n    m () \x7b\n    \x7d\n\x7d;\n")),
    (["js", "qux.js"], .file (.text
      "module.exports = class bar extends Exchange \x7b\n    m () \x7b\n    \x7d\n\x7d;\n"))]⟩

/-- Whether a run on them keeps what is made of the first source, at a path that is not used
again. -/
def keepsFirst (done : List Rendition) (u : FileTree) : Bool :=
  done.any fun r => r.source = ⟨"./js/foo.js"⟩ && r.decl.name = r.stem &&
    (r.artifacts.all fun a => a.path = ⟨"./php/foo.php"⟩ &&
      lastText (done.flatMap Rendition.artifacts) a.path = some a.text) &&
    (ruleless phpOnly).furtherOutputs.all fun p => (u.locate p).toOption ≠
      (u.locate ⟨"./php/foo.php"⟩).toOption

/-- Whether it writes and deletes what is made of the second source. -/
def losesSecond (report : Report) (u : FileTree) : Bool :=
  report.written.contains ⟨"./php/qux.php"⟩ && report.deleted.contains ⟨"./php/qux.php"⟩ &&
    (u.find? ["php", "qux.php"]).isNone

theorem exists_run_renamedClass : ∃ g, Does (ofSettings phpOnly) renamedClass (.ok g) renamedClass ∧
    g.settings = phpOnly ∧ ∃ done t₁ t₂ report u, Does g.makeFolders renamedClass (.ok ()) t₁ ∧
      Does phpOnly.sources t₁ (.ok (done.map Rendition.source)) t₁ ∧ Batch g t₁ done t₂ ∧
      Does g.run renamedClass (.ok report) u ∧ (keepsFirst done u && losesSecond report u) = true :=
  exists_run_of_dryRun validate_phpOnly rfl (by decide) rfl
    (show dryRun phpOnly renamedClass
        (fun done report u => keepsFirst done u && losesSecond report u) = true by
      decide +kernel)

theorem run_keeps_artifact_iff_renamedClass :
    renamedClass.IsProper ∧
      ∃ g report u, Does (ofSettings phpOnly) renamedClass (.ok g) renamedClass ∧
      Does g.run renamedClass (.ok report) u ∧ ∃ r : Rendition, r.source = ⟨"./js/foo.js"⟩ ∧
        ∃ a ∈ r.artifacts, a.path = ⟨"./php/foo.php"⟩ ∧ u.read a.path = .ok a.text := by
  have proper : renamedClass.IsProper := ⟨by decide +kernel, by decide +kernel⟩
  obtain ⟨g, made, same, done, t₁, t₂, report, u, folders, sources, batch, ran, checked⟩ :=
    exists_run_renamedClass
  have targets : g.settings.activeTargets = [.php] := by
    rw [same]
    decide
  obtain ⟨done', t₁', t₂', folders', sources', batch', artifacts⟩ :=
    run_keeps_artifact_iff proper ran (by
      rw [targets]
      intro a ha b hb _ _ _
      rw [List.mem_singleton.mp ha, List.mem_singleton.mp hb])
  obtain ⟨-, rfl⟩ := Acts.unique folders folders'
  rw [same] at sources'
  obtain ⟨rfl, rfl⟩ := batch.unique batch' (Except.ok.inj (Acts.unique sources sources').1)
  simp only [keepsFirst, Bool.and_eq_true, List.any_eq_true, List.all_eq_true,
    decide_eq_true_eq] at checked
  obtain ⟨⟨r, hr, ⟨⟨source, named⟩, written⟩, free⟩, -⟩ := checked
  obtain ⟨a, ha, -, -, -, kept⟩ := artifacts r hr .php (by simp [targets])
  obtain ⟨path, last⟩ := written a ha
  refine ⟨proper, g, report, u, made, ran, r, source, a, ha, path,
    (kept ?_).mpr ⟨last, .inr (.inr (.inl ⟨r, hr, named⟩))⟩⟩
  intro p hp together
  have outputs : (ruleless phpOnly).furtherOutputs = g.furtherOutputs := by
    rw [← same]
    rfl
  rw [outputs] at free
  exact free p hp (by rw [together, path])

/-- What was rendered from the other source is deleted in the same run. -/
theorem run_deletes_artifact_renamedClass :
    ∃ g report u, Does (ofSettings phpOnly) renamedClass (.ok g) renamedClass ∧
      Does g.run renamedClass (.ok report) u ∧ ⟨"./php/qux.php"⟩ ∈ report.written ∧
      ⟨"./php/qux.php"⟩ ∈ report.deleted ∧ u.find? ["php", "qux.php"] = none := by
  obtain ⟨g, made, -, done, t₁, t₂, report, u, -, -, -, ran, checked⟩ := exists_run_renamedClass
  simp only [losesSecond, Bool.and_eq_true, List.contains_iff_mem,
    Option.isNone_iff_eq_none] at checked
  obtain ⟨-, ⟨written, deleted⟩, lost⟩ := checked
  exact ⟨g, report, u, made, ran, written, deleted, lost⟩

end Generator

end Polyglot
