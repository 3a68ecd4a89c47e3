import Polyglot.Proofs.Abort
import Polyglot.Proofs.Places

/-!
Where a run writes. `Touches P t u` says that on the way from `t` to `u` files were changed only
where a path with `P` leads, and that no directory was lost. Every job of a run is steady for it,
with the paths that the job writes to; so what follows the sweep of stale files changes nothing but
the manifest and the auxiliary files.
-/

namespace Polyglot

/-- Only files to which a path with `P` leads have changed. -/
structure Touches (P : Path → Prop) (t u : FileTree) : Prop where
  directories : FileTree.KeepsDirectories t u
  proper : t.IsProper → u.IsProper
  files : ∀ place, (∀ p, P p → u.locate p ≠ .ok (.inside place)) → ∀ content,
    u.find? place = some (.file content) ↔ t.find? place = some (.file content)

namespace Touches

open FileTree

variable {P : Path → Prop} {t u v : FileTree}

theorem refl (P : Path → Prop) (t : FileTree) : Touches P t t :=
  ⟨.refl t, fun h => h, fun _ _ _ => Iff.rfl⟩

theorem trans (h : Touches P t u) (h' : Touches P u v) : Touches P t v where
  directories := h.directories.trans h'.directories
  proper := fun proper => h'.proper (h.proper proper)
  files place free content := by
    rw [h'.files place free, h.files place]
    intro p hp leads
    exact free p hp (h'.directories.locate leads)

theorem makeDirectory {p : Path} (h : t.makeDirectory p = .ok u) : Touches P t u := by
  obtain ⟨place, missing, rfl, proper⟩ := makeDirectory_eq_ok h
  have kept : KeepsDirectories t (t.put place .directory) :=
    keepsDirectories_put (by simp [missing])
  refine ⟨kept, proper, fun other _ content => ?_⟩
  by_cases here : other = place
  · subst here
    have full : other ≠ [] := by
      rintro rfl
      rw [find?_root] at missing
      cases missing
    rw [find?_put_self full, missing]
    simp
  · rw [find?_put_of_ne here]

theorem write {p : Path} {s : String} (hp : P p) (h : t.write p s = .ok u) : Touches P t u := by
  obtain ⟨place, leads, -, free, rfl, proper⟩ := write_eq_ok h
  have kept : KeepsDirectories t (t.put place (.file (.text s))) := keepsDirectories_put free
  refine ⟨kept, proper, fun other outside content => ?_⟩
  rw [find?_put_of_ne]
  rintro rfl
  exact outside p hp (kept.locate leads)

theorem remove {p : Path} (hp : P p) (h : t.remove p = .ok u) : Touches P t u := by
  obtain ⟨place, content, leads, file, rfl⟩ := remove_eq_ok h
  have kept : KeepsDirectories t (t.erase place) := keepsDirectories_erase file
  refine ⟨kept, fun proper => proper.erase place, fun other outside content => ?_⟩
  rw [find?_erase_of_ne]
  rintro rfl
  exact outside p hp (kept.locate leads)

end Touches

theorem isFrame_touches (P : Path → Prop) : IsFrame (Touches P) :=
  ⟨Touches.refl P, Touches.trans⟩

namespace Job

variable {P : Path → Prop}

theorem steady_makeDirectories_touches (p : Path) :
    Steady (Touches P) (makeDirectories (m := StateM Session) p).run :=
  steady_makeDirectories (isFrame_touches P) (fun _ _ _ => Touches.makeDirectory) p

theorem steady_save_touches {p : Path} (hp : P p) (s : String) :
    Steady (Touches P) (save (m := StateM Session) p s).run :=
  steady_save (isFrame_touches P) (fun _ _ _ => Touches.makeDirectory) fun _ _ => Touches.write hp

theorem steady_remove_touches {p : Path} (hp : P p) :
    Steady (Touches P) (remove (m := StateM Session) p).run :=
  steady_access (isFrame_touches P) p
    (steady_update (isFrame_touches P) (fun _ => rfl) fun _ _ => Touches.remove hp)

theorem steady_splice_touches {p : Path} (hp : P p) (region : Matcher) (replacement : String) :
    Steady (Touches P) (splice (m := StateM Session) p region replacement).run := by
  have frame := isFrame_touches P
  refine steady_bind frame (steady_read frame p) fun contents => ?_
  split
  · exact steady_bind frame (steady_save_touches hp _) fun _ => steady_pure frame true
  · exact steady_bind frame (steady_note frame _ _) fun _ => steady_pure frame false

end Job

open Job

theorem Roster.steady_declareIn {P : Path → Prop} {p : Path} (hp : P p) (r : Roster) :
    Steady (Touches P) (r.declareIn (m := StateM Session) p).run := by
  have frame := isFrame_touches P
  refine steady_bind frame (steady_splice_touches hp _ _) fun replaced => ?_
  cases replaced with
  | true => exact steady_bind frame (steady_note frame _ _) fun _ => steady_pure frame true
  | false => exact steady_pure frame false

/-- The two modules that the hierarchy is spliced into. -/
def ErrorModules.outputs (root : Path) (auxiliary : AuxiliaryPaths) : List Path :=
  [root.join auxiliary.pythonErrors, root.join auxiliary.phpErrors]

theorem ErrorModules.steady_generate {P : Path → Prop} (book : RuleBook) {root : Path}
    {auxiliary : AuxiliaryPaths} (written : ∀ p ∈ outputs root auxiliary, P p) :
    Steady (Touches P) (generate (m := StateM Session) book root auxiliary).run := by
  have frame := isFrame_touches P
  have splice (p : Path) (hp : P p) (region : Matcher) (text : String) :
      Steady (Touches P) (spliceInto (m := StateM Session) p region text).run := by
    refine steady_bind frame (steady_note frame _ _) fun _ => ?_
    exact steady_bind frame (steady_splice_touches hp _ _) fun _ => steady_pure frame _
  refine steady_bind frame (steady_read frame _) fun text => ?_
  refine steady_bind frame (steady_noteAll frame _) fun _ => ?_
  refine steady_bind frame (splice _ (written _ (by simp [outputs])) _ _) fun _ => ?_
  exact steady_bind frame (splice _ (written _ (by simp [outputs])) _ _) fun _ =>
    steady_pure frame _

/-- The two files that a shared test is rendered into. -/
def SharedTest.outputs (f : SharedTest) (root : Path) (auxiliary : AuxiliaryPaths) : List Path :=
  [(root.join auxiliary.pythonTestDir).join ⟨f.pythonOutput⟩,
    (root.join auxiliary.phpTestDir).join ⟨f.phpOutput⟩]

theorem SharedTest.steady_generate {P : Path → Prop} (f : SharedTest)
    (book : RuleBook) {root : Path} {auxiliary : AuxiliaryPaths}
    (written : ∀ p ∈ f.outputs root auxiliary, P p) :
    Steady (Touches P) (f.generate (m := StateM Session) book root auxiliary).run := by
  have frame := isFrame_touches P
  have output (p : Path) (hp : P p) (text : String) :
      Steady (Touches P) (writeOutput (m := StateM Session) p text).run :=
    steady_bind frame (steady_note frame _ _) fun _ => steady_save_touches hp _
  refine steady_bind frame (steady_note frame _ _) fun _ => ?_
  refine steady_bind frame (steady_ofExcept frame _) fun filters => ?_
  refine steady_bind frame (steady_read frame _) fun text => ?_
  refine steady_bind frame (steady_noteAll frame _) fun _ => ?_
  refine steady_bind frame (output _ (written _ (by simp [outputs])) _) fun _ => ?_
  exact steady_bind frame (output _ (written _ (by simp [outputs])) _) fun _ => steady_pure frame _

namespace Generator

variable {P : Path → Prop}

theorem steady_declareClasses (g : Generator) (classes : Roster)
    (written : P (g.settings.resolve g.settings.manifest)) :
    Steady (Touches P) (g.declareClasses (m := StateM Session) classes).run := by
  have frame := isFrame_touches P
  refine steady_bind frame (steady_isFile frame _) fun isFile => ?_
  cases isFile with
  | true =>
    exact steady_bind frame (Roster.steady_declareIn written classes) fun _ => steady_pure frame _
  | false => exact steady_note frame _ _

/-- What the auxiliary files are written to. -/
def auxiliaryOutputs (g : Generator) : List Path :=
  ErrorModules.outputs g.settings.root g.settings.auxiliary ++
    SharedTest.all.flatMap (fun f => f.outputs g.settings.root g.settings.auxiliary) ++
    [g.settings.resolve g.settings.auxiliary.syncTestDriver]

theorem steady_renderErrorModules (g : Generator) (report : Report)
    (written : ∀ p ∈ g.auxiliaryOutputs, P p) :
    Steady (Touches P) (g.renderErrorModules (m := StateM Session) report).run := by
  have frame := isFrame_touches P
  refine steady_bind frame (steady_isFile frame _) fun isFile => ?_
  cases isFile with
  | true =>
    refine steady_bind frame (ErrorModules.steady_generate _ fun p hp => written p ?_) fun _ =>
      steady_pure frame _
    exact List.mem_append_left _ (List.mem_append_left _ hp)
  | false => exact steady_bind frame (steady_note frame _ _) fun _ => steady_pure frame _

theorem steady_renderSharedTest (g : Generator) (report : Report) {f : SharedTest}
    (hf : f ∈ SharedTest.all) (written : ∀ p ∈ g.auxiliaryOutputs, P p) :
    Steady (Touches P) (g.renderSharedTest (m := StateM Session) report f).run := by
  have frame := isFrame_touches P
  refine steady_bind frame (steady_isFile frame _) fun isFile => ?_
  cases isFile with
  | true =>
    refine steady_bind frame (f.steady_generate _ fun p hp => written p ?_) fun _ =>
      steady_pure frame _
    exact List.mem_append_left _ (List.mem_append_right _ (List.mem_flatMap.mpr ⟨f, hf, hp⟩))
  | false => exact steady_bind frame (steady_note frame _ _) fun _ => steady_pure frame _

theorem steady_makeSyncDriver (g : Generator) (report : Report)
    (written : ∀ p ∈ g.auxiliaryOutputs, P p) :
    Steady (Touches P) (g.makeSyncDriver (m := StateM Session) report).run := by
  have frame := isFrame_touches P
  refine steady_bind frame (steady_isFile frame _) fun isFile => ?_
  cases isFile with
  | true =>
    refine steady_bind frame ?_ fun _ => steady_pure frame _
    refine steady_bind frame (steady_note frame _ _) fun _ => ?_
    refine steady_bind frame (steady_read frame _) fun source =>
      steady_save_touches (written _ ?_) _
    exact List.mem_append_right _ (List.mem_singleton_self _)
  | false => exact steady_bind frame (steady_note frame _ _) fun _ => steady_pure frame _

theorem steady_makeAuxiliary (g : Generator) (report : Report)
    (written : ∀ p ∈ g.auxiliaryOutputs, P p) :
    Steady (Touches P) (g.makeAuxiliary (m := StateM Session) report).run := by
  have frame := isFrame_touches P
  refine steady_bind frame (g.steady_renderErrorModules report written) fun report => ?_
  refine steady_bind frame ?_ fun report => g.steady_makeSyncDriver report written
  exact steady_foldlM frame (fun report f hf => g.steady_renderSharedTest report hf written) report

/-- What is written behind the sweep of stale files. -/
def furtherOutputs (g : Generator) : List Path :=
  g.settings.resolve g.settings.manifest :: if g.settings.auxiliary.enabled then
    g.auxiliaryOutputs else []

section Model

variable {m : Type → Type} [Monad m] [Workspace m]

/-- What follows the sweep of stale files. -/
def wrapUp (g : Generator) (report : Report) : Job m Report :=
  g.declareClasses report.classes >>= fun _ =>
    (if g.settings.auxiliary.enabled then g.makeAuxiliary report else pure report) >>= fun report =>
      Job.note .info ("Transpiled successfully: " ++ report.summary "classes") >>=
        fun _ => pure report

theorem finish_eq (g : Generator) (report : Report) : g.finish (m := m) report =
    (if g.settings.prune.enabled then g.sweepStale report else pure report) >>= g.wrapUp := by
  unfold finish wrapUp
  by_cases prune : g.settings.prune.enabled = true
  · rw [if_pos prune, if_pos prune]
    by_cases auxiliary : g.settings.auxiliary.enabled = true
    · simp only [if_pos auxiliary]
    · simp only [if_neg auxiliary]
  · rw [if_neg prune, if_neg prune]
    by_cases auxiliary : g.settings.auxiliary.enabled = true
    · simp only [if_pos auxiliary]
    · simp only [if_neg auxiliary]

end Model

theorem steady_wrapUp (g : Generator) (report : Report) (written : ∀ p ∈ g.furtherOutputs, P p) :
    Steady (Touches P) (g.wrapUp (m := StateM Session) report).run := by
  have frame := isFrame_touches P
  have manifest : P (g.settings.resolve g.settings.manifest) := written _ List.mem_cons_self
  refine steady_bind frame (g.steady_declareClasses _ manifest) fun _ => ?_
  refine steady_bind frame ?_ fun report =>
    steady_bind frame (steady_note frame _ _) fun _ => steady_pure frame report
  split
  · next enabled =>
    refine g.steady_makeAuxiliary report fun p hp => written p (List.mem_cons_of_mem _ ?_)
    rwa [if_pos enabled]
  · exact steady_pure frame report

/-! ### What comes before -/

theorem steady_makeFolders_touches (g : Generator) :
    Steady (Touches P) (g.makeFolders (m := StateM Session)).run :=
  steady_forM (isFrame_touches P) fun _ _ => steady_makeDirectories_touches _

theorem steady_saveAll_touches {artifacts : List Artifact} (written : ∀ a ∈ artifacts, P a.path) :
    Steady (Touches P) (saveAll (m := StateM Session) artifacts).run :=
  steady_forM (isFrame_touches P) fun a ha => steady_save_touches (written a ha) _

theorem Saves.touches {t u : FileTree} {artifacts : List Artifact} (h : Saves t artifacts u) :
    Touches (fun p => ∃ a ∈ artifacts, a.path = p) t u :=
  (steady_saveAll_touches fun a ha => ⟨a, ha, rfl⟩).of_acts h.does

theorem steady_addSource (all : ∀ p, P p) (g : Generator) (report : Report) (source : Path) :
    Steady (Touches P) (g.addSource (m := StateM Session) report source).run := by
  have frame := isFrame_touches P
  have rendered : Steady (Touches P) (g.renderSource (m := StateM Session) source).run :=
    .of_looking frame _ (does_renderSource g source)
  refine steady_bind frame rendered fun rendition => ?_
  refine steady_bind frame (steady_forM frame fun a _ => ?_) fun _ => ?_
  · exact steady_bind frame (steady_save_touches (all a.path) _) fun _ => steady_note frame _ _
  · exact steady_bind frame (steady_noteAll frame _) fun _ => steady_pure frame _

theorem steady_sweep (all : ∀ p, P p) (e : Stale.Exclusions) (classes : Roster)
    (folders : List Stale.Folder) :
    Steady (Touches P) (Stale.sweep (m := StateM Session) e classes folders).run := by
  have frame := isFrame_touches P
  refine steady_bind frame ?_ fun _ => steady_pure frame _
  refine steady_mapM frame fun folder _ => steady_bind frame
    (steady_bind frame ?_ fun isDirectory => ?_) ?_
  · exact steady_lift (.of_looking frame _ (acts_isDirectory _))
  · cases isDirectory with
    | true => exact steady_bind frame (steady_filesIn frame _) fun files => steady_pure frame _
    | false => exact steady_pure frame _
  · intro paths
    refine steady_mapM frame fun path _ => steady_bind frame (steady_note frame _ _) fun _ => ?_
    exact steady_bind frame (steady_remove_touches (all path)) fun _ => steady_pure frame _

theorem steady_sweepStale (all : ∀ p, P p) (g : Generator) (report : Report) :
    Steady (Touches P) (g.sweepStale (m := StateM Session) report).run := by
  have frame := isFrame_touches P
  refine steady_bind frame (steady_ofExcept frame _) fun exclusions => ?_
  exact steady_bind frame (steady_sweep all _ _ _) fun _ => steady_pure frame _

theorem steady_finish (all : ∀ p, P p) (g : Generator) (report : Report) :
    Steady (Touches P) (g.finish (m := StateM Session) report).run := by
  have frame := isFrame_touches P
  rw [finish_eq]
  refine steady_bind frame ?_ fun report => g.steady_wrapUp report fun p _ => all p
  split
  · exact steady_sweepStale all g report
  · exact steady_pure frame report

theorem steady_sources_touches (c : Settings) :
    Steady (Touches P) (c.sources (m := StateM Session)).run := by
  intro t
  obtain ⟨a, u, acts, rfl⟩ := steady_sources c t
  exact ⟨a, t, acts, .refl P t⟩

theorem steady_batch (all : ∀ p, P p) (g : Generator) (sources : List Path) (report : Report) :
    Steady (Touches P) (sources.foldlM (g.addSource (m := StateM Session)) report).run :=
  steady_foldlM (isFrame_touches P) (fun _ _ _ => steady_addSource all g _ _) report

theorem steady_last (all : ∀ p, P p) (g : Generator) (report : Report) : Steady (Touches P)
    (if report.isEmpty then note (m := StateM Session) .warn "0 files transpiled." >>=
      fun _ => pure report else g.finish report).run := by
  have frame := isFrame_touches P
  split
  · exact steady_bind frame (steady_note frame _ _) fun _ => steady_pure frame _
  · exact steady_finish all g report

end Generator

end Polyglot
