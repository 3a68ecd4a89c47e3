import Polyglot.Proofs.Outputs
import Polyglot.Proofs.Sweep

/-!
The stages of a run that succeeds. `Batch` says how the sources were rendered and written, and keeps
the renditions; `Swept` says what was deleted behind them; of what came last it is only said where
it writes. `exists_ran_of_run` takes a run apart into these stages.
-/

namespace Polyglot

open Job FileTree

namespace Job

variable {α β : Type}

/-- What the job returns, if it succeeds, has the property. -/
def Returns (Q : α → Prop) (job : Job (StateM Session) α) : Prop :=
  ∀ s a s', job.run s = (.ok a, s') → Q a

namespace Returns

variable {P : α → Prop} {Q : β → Prop}

theorem any {job : Job (StateM Session) α} : Returns (fun _ => True) job :=
  fun _ _ _ _ => trivial

theorem pure {a : α} (h : P a) : Returns P (pure a) := by
  intro s b s' run
  obtain rfl := Except.ok.inj (Prod.mk.inj run).1
  exact h

theorem bind {x : Job (StateM Session) α} {f : α → Job (StateM Session) β} (hx : Returns P x)
    (hf : ∀ a, P a → Returns Q (f a)) : Returns Q (x >>= f) := by
  intro s b s' run
  obtain ⟨a, s₁, first, others⟩ := exists_of_run_bind run
  exact hf a (hx s a s₁ first) s₁ b s' others

theorem foldlM {f : β → α → Job (StateM Session) β} {b : β} {xs : List α} (h : Q b)
    (hf : ∀ b a, Q b → Returns Q (f b a)) : Returns Q (xs.foldlM f b) := by
  induction xs generalizing b with
  | nil => exact .pure h
  | cons a xs ih => exact .bind (hf b a h) fun b' hb' => ih hb'

theorem mapM {f : α → Job (StateM Session) β} {xs : List α} (hf : ∀ a, Returns Q (f a)) :
    Returns (fun bs => ∀ b ∈ bs, Q b) (xs.mapM f) := by
  induction xs with
  | nil => exact .pure (List.forall_mem_nil Q)
  | cons a xs ih =>
    rw [List.mapM_cons]
    exact .bind (hf a) fun b hb => .bind ih fun bs hbs => .pure (List.forall_mem_cons.mpr ⟨hb, hbs⟩)

end Returns

end Job

namespace Roster

theorem contains_enroll (r : Roster) (name base other : String) :
    (r.enroll name base).2.contains other = true ↔ r.contains other = true ∨ name = other := by
  rw [enroll]
  split
  · next first known =>
    refine ⟨.inl, ?_⟩
    rintro (old | rfl)
    · exact old
    · rw [contains, known]
      rfl
  · by_cases same : other = name
    · simp [contains, List.lookup_append, same]
    · have apart : (other == name) = false := beq_eq_false_iff_ne.mpr same
      simp [contains, List.lookup_append, List.lookup_cons, apart, Ne.symm same]

theorem isEmpty_enroll (r : Roster) (name base : String) :
    (r.enroll name base).2.isEmpty = false := by
  rw [enroll]
  split
  · next first known =>
    rw [isEmpty, List.isEmpty_eq_false_iff]
    intro none
    rw [none] at known
    cases known
  · simp [isEmpty]

end Roster

/-- The name under which the artifacts of a source are written. -/
def Rendition.stem (r : Rendition) : String :=
  r.source.fileStem?.getD r.decl.name

/-- The classes of the renditions, in their order. -/
def Rendition.roster (done : List Rendition) : Roster :=
  done.foldl (fun classes r => (classes.enroll r.decl.name r.decl.baseClass).2) {}

theorem Rendition.contains_roster {done : List Rendition} {name : String} :
    (roster done).contains name = true ↔ ∃ r ∈ done, r.decl.name = name := by
  have fold (classes : Roster) :
      (done.foldl (fun classes r => (classes.enroll r.decl.name r.decl.baseClass).2)
        classes).contains name = true ↔ classes.contains name = true ∨
        ∃ r ∈ done, r.decl.name = name := by
    induction done generalizing classes with
    | nil => simp
    | cons r done ih =>
      rw [List.foldl_cons, ih, Roster.contains_enroll, or_assoc]
      simp
  rw [roster, fold]
  simp [Roster.contains]

theorem Rendition.isEmpty_roster {done : List Rendition} :
    (roster done).isEmpty = done.isEmpty := by
  have fold (classes : Roster) : (done.foldl
      (fun classes r => (classes.enroll r.decl.name r.decl.baseClass).2) classes).isEmpty =
        (classes.isEmpty && done.isEmpty) := by
    induction done generalizing classes with
    | nil => simp
    | cons r done ih =>
      rw [List.foldl_cons, ih, Roster.isEmpty_enroll]
      simp
  exact fold {}

theorem Report.isEmpty_of_classes {report : Report} {done : List Rendition}
    (classes : report.classes = Rendition.roster done) : report.isEmpty = done.isEmpty := by
  rw [Report.isEmpty, classes, Rendition.isEmpty_roster]

/-- What is no directory lists no names. -/
theorem FileTree.eq_nil_of_listNames {t : FileTree} {p : Path} {names : List String}
    (listed : t.listNames p = .ok names) (other : t.node? p ≠ some .directory) : names = [] := by
  obtain ⟨spot, leads, rest⟩ := exists_of_bind_ok listed
  rw [node?, leads] at other
  dsimp only at other rest
  split at rest
  · cases rest
  · next found => exact absurd found other
  · exact (Except.ok.inj rest).symm

/-- The listed names are those of the files directly in the directory. -/
theorem FileTree.IsProper.mem_listNames {t : FileTree} (h : t.IsProper) {p : Path}
    {names : List String} (listed : t.listNames p = .ok names) (name : String) :
    name ∈ names ↔ ∃ directory content, t.locate p = .ok (.inside directory) ∧
      t.find? directory = some .directory ∧ t.find? (directory ++ [name]) =
        some (.file content) := by
  by_cases there : t.node? p = some .directory
  · obtain ⟨names', listed', -, mem⟩ := h.listNames there
    obtain rfl : names = names' := Except.ok.inj (listed.symm.trans listed')
    exact mem name
  · constructor
    · rw [eq_nil_of_listNames listed there]
      exact fun mem => (List.not_mem_nil mem).elim
    · rintro ⟨directory, content, leads', isDirectory, -⟩
      rw [node?, leads'] at there
      exact absurd isDirectory there

namespace Generator

variable {g : Generator} {t u : FileTree}

/-! ### The sources -/

/-- The sources are the eligible files of the source directory. -/
theorem exists_of_sources {c : Settings} {sources : List Path} (proper : t.IsProper)
    (found : Does c.sources t (.ok sources) t) :
    ∃ inclusion, Does (Selection.load (c.resolve c.inclusionList)) t (.ok inclusion) t ∧
      ∀ source, source ∈ sources ↔ ∃ directory name content,
        t.locate (c.resolve c.jsDir) = .ok (.inside directory) ∧
        t.find? directory = some .directory ∧ t.find? (directory ++ [name]) = some (.file content) ∧
        isEligible c.pattern inclusion name = true ∧ source = (c.resolve c.jsDir).join ⟨name⟩ := by
  have frame := isFrame_eq
  obtain ⟨inclusion, t₁, loaded, later⟩ := Does.exists_of_bind (steady_load _)
    (fun _ => steady_bind frame (steady_filesIn frame _) fun _ => steady_pure frame _) found
  obtain rfl : t = t₁ := (steady_load _).of_acts loaded
  refine ⟨inclusion, loaded, ?_⟩
  obtain ⟨files, t₁, filed, last⟩ :=
    Does.exists_of_bind (steady_filesIn frame _) (fun _ => steady_pure frame _) later
  obtain rfl : t = t₁ := (steady_filesIn frame _).of_acts filed
  obtain rfl := Except.ok.inj (Acts.unique last (Does.pure _ t)).1
  obtain ⟨names, listed, rfl⟩ : ∃ names, t.listNames (c.resolve c.jsDir) = .ok names ∧
      files = (sortBy textLe names).map fun name => (c.resolve c.jsDir).join ⟨name⟩ := by
    cases listed : t.listNames (c.resolve c.jsDir) with
    | ok names => exact ⟨names, rfl, Except.ok.inj (Acts.unique filed (does_filesIn listed)).1⟩
    | error e =>
      obtain ⟨failure, failed⟩ := does_filesIn_error listed
      cases (Acts.unique filed failed).1
  have mem := proper.mem_listNames listed
  intro source
  rw [List.mem_filter, List.mem_map]
  constructor
  · rintro ⟨⟨name, hname, rfl⟩, eligible⟩
    obtain ⟨directory, content, leads, there, file⟩ := (mem name).mp (mem_sortBy.mp hname)
    rw [(proper.isFileName file).fileName?_join] at eligible
    exact ⟨directory, name, content, leads, there, file, eligible, rfl⟩
  · rintro ⟨directory, name, content, leads, there, file, eligible, rfl⟩
    have hname := (mem name).mpr ⟨directory, content, leads, there, file⟩
    refine ⟨⟨name, mem_sortBy.mpr hname, rfl⟩, ?_⟩
    rwa [(proper.isFileName file).fileName?_join]

/-- What a rendition holds: a class that was read from the source, and its text for each target. -/
theorem renderIn_eq_ok {source : Path} {r : Rendition} (h : g.renderIn t source = .ok r) :
    r.source = source ∧
      (∃ contents, t.read source = .ok contents ∧
        ClassDecl.ofSource source.text contents = .ok r.decl) ∧
      r.artifacts = g.settings.activeTargets.map fun target =>
        g.artifact r.stem target (g.renderer.targetText r.decl target).2 := by
  rw [renderIn] at h
  split at h
  · cases h
  · next contents read =>
    simp only [render] at h
    split at h
    · cases h
    · next c parsed =>
      simp only [Renderer.classTexts] at h
      split at h
      · cases h
      · next texts context rendered =>
        split at rendered
        · obtain rfl := Except.ok.inj (Prod.mk.inj rendered).1
          obtain rfl := Except.ok.inj h
          refine ⟨rfl, ⟨contents, read, parsed⟩, ?_⟩
          simp [Rendition.stem, Function.comp_def]
        · cases (Prod.mk.inj rendered).1

/-- The renditions are made one after another, each in the tree that those before it left, and the
artifacts of each are written before the next source is read. -/
inductive Batch (g : Generator) : FileTree → List Rendition → FileTree → Prop where
  | nil {t : FileTree} : Batch g t [] t
  | cons {t u v : FileTree} {r : Rendition} {done : List Rendition} :
    g.renderIn t r.source = .ok r → Saves t r.artifacts u → Batch g u done v →
    Batch g t (r :: done) v

theorem Batch.saves {done : List Rendition} (h : Batch g t done u) :
    Saves t (done.flatMap Rendition.artifacts) u := by
  induction h with
  | nil => exact .nil
  | cons _ saves _ ih => exact saves.append ih

theorem Batch.artifacts {done : List Rendition} (h : Batch g t done u) {r : Rendition}
    (hr : r ∈ done) : r.artifacts = g.settings.activeTargets.map fun target =>
      g.artifact r.stem target (g.renderer.targetText r.decl target).2 := by
  induction h with
  | nil => cases hr
  | cons rendered _ _ ih =>
    rcases List.mem_cons.mp hr with rfl | later
    · exact (renderIn_eq_ok rendered).2.2
    · exact ih later

theorem saves_of_writeArtifact {artifacts : List Artifact}
    (h : Does (artifacts.forM writeArtifact) t (.ok ()) u) : Saves t artifacts u := by
  have frame := isFrame_touches fun _ => True
  have write (a : Artifact) :
      Steady (Touches fun _ => True) (writeArtifact (m := StateM Session) a).run :=
    steady_bind frame (steady_save_touches trivial _) fun _ => steady_note frame _ _
  induction artifacts generalizing t with
  | nil =>
    obtain ⟨-, rfl⟩ := Acts.unique h (Does.pure () t)
    exact .nil
  | cons a artifacts ih =>
    obtain ⟨⟨⟩, t₁, first, others⟩ :=
      Does.exists_of_bind (write a) (fun _ => steady_forM frame fun b _ => write b) h
    obtain ⟨⟨⟩, t₂, saved, noted⟩ :=
      Does.exists_of_bind (steady_save_touches (P := fun _ => True) trivial _)
        (fun _ => steady_note frame _ _) first
    obtain ⟨-, rfl⟩ := Acts.unique noted (does_note _ _ t₂)
    exact .cons saved (ih others)

theorem exists_of_addSource {source : Path} {report report' : Report}
    (h : Does (g.addSource report source) t (.ok report') u) :
    ∃ r, g.renderIn t source = .ok r ∧ Saves t r.artifacts u ∧
      report'.classes = (report.classes.enroll r.decl.name r.decl.baseClass).2 ∧
      report'.deleted = report.deleted := by
  have frame := isFrame_touches fun _ => True
  have rendered := does_renderSource g source
  have written (r : Rendition) : Steady (Touches fun _ => True)
      (r.artifacts.forM (writeArtifact (m := StateM Session))).run :=
    steady_forM frame fun a _ =>
      steady_bind frame (steady_save_touches trivial _) fun _ => steady_note frame _ _
  have enrolled (r : Rendition) (report' : Report) : Steady (Touches fun _ => True)
      (noteAll (m := StateM Session)
        (report.classes.enroll r.decl.name r.decl.baseClass).1 >>= fun _ =>
        pure report').run :=
    steady_bind frame (steady_noteAll frame _) fun _ => steady_pure frame _
  obtain ⟨r, t₁, first, others⟩ := Does.exists_of_bind (Steady.of_looking isFrame_eq _ rendered)
    (fun r => steady_bind frame (written r) fun _ => enrolled r _) h
  obtain ⟨same, rfl⟩ := Acts.unique first (rendered t)
  obtain ⟨⟨⟩, t₂, saved, last⟩ := Does.exists_of_bind (written r) (fun _ => enrolled r _) others
  obtain ⟨same', rfl⟩ := Acts.unique last (Does.bind (does_noteAll _ t₂) (.pure _ t₂))
  obtain rfl := Except.ok.inj same'
  exact ⟨r, same.symm, saves_of_writeArtifact saved, rfl, rfl⟩

/-- The induction is on the sources; what was enrolled before is kept general. -/
theorem exists_batch_of_foldlM {sources : List Path} {report report' : Report}
    (h : Does (sources.foldlM g.addSource report) t (.ok report') u) :
    ∃ done, done.map Rendition.source = sources ∧ Batch g t done u ∧
      report'.classes =
        done.foldl (fun classes r => (classes.enroll r.decl.name r.decl.baseClass).2)
        report.classes ∧ report'.deleted = report.deleted := by
  have all : ∀ p, (fun _ => True : Path → Prop) p := fun _ => trivial
  induction sources generalizing t report with
  | nil =>
    obtain ⟨same, rfl⟩ := Acts.unique h (Does.pure report t)
    obtain rfl := Except.ok.inj same
    exact ⟨[], rfl, .nil, rfl, rfl⟩
  | cons source sources ih =>
    rw [List.foldlM_cons] at h
    obtain ⟨report₁, t₁, first, others⟩ :=
      Does.exists_of_bind (steady_addSource all g report source) (steady_batch all g sources) h
    obtain ⟨r, rendered, saves, classes, deleted⟩ := exists_of_addSource first
    obtain ⟨done, rfl, batch, classes', deleted'⟩ := ih others
    obtain ⟨source, -, -⟩ := renderIn_eq_ok rendered
    subst source
    refine ⟨r :: done, rfl, .cons rendered saves batch, ?_, deleted'.trans deleted⟩
    rw [classes', classes, List.foldl_cons]

/-! ### What follows the sources -/

/-- What a sweep leaves of the tree behind a batch: the files that are stale for its classes are
gone, and each of the listed paths was that of such a file. -/
structure Swept (g : Generator) (done : List Rendition) (t : FileTree) (e : Stale.Exclusions)
    (deleted : List Path) (u : FileTree) : Prop where
  exclusions : Stale.Exclusions.ofTexts g.settings.prune.exclusions = .ok e
  gone : ∃ places, Cleared t places u ∧ ∀ place, place ∈ places ↔
    ∃ target ∈ g.settings.activeTargets, ∃ name, Stale.Found e (Rendition.roster done) t
    (staleFolder g.settings target) name place
  listed : ∀ path ∈ deleted, ∃ target ∈ g.settings.activeTargets, ∃ name place,
    Stale.Found e (Rendition.roster done) t (staleFolder g.settings target) name place ∧
      path = (g.settings.folder target).join ⟨name⟩

theorem exists_of_sweepStale {done : List Rendition} {report report' : Report} (proper : t.IsProper)
    (classes : report.classes = Rendition.roster done)
    (h : Does (g.sweepStale report) t (.ok report') u) :
    ∃ e deleted, Swept g done t e deleted u ∧ report'.deleted = report.deleted ++ deleted := by
  have frame := isFrame_touches fun _ => True
  have swept (e : Stale.Exclusions) :=
    steady_sweep (P := fun _ => True) (fun _ => trivial) e report.classes
    (g.settings.activeTargets.map (staleFolder g.settings))
  obtain ⟨e, t₁, first, others⟩ := Does.exists_of_bind (steady_ofExcept frame _)
    (fun e => steady_bind frame (swept e) fun _ => steady_pure frame _) h
  obtain ⟨compiled, rfl⟩ := Acts.unique first (Acts.pure _ t)
  obtain ⟨diagnostics, t₂, deleted, last⟩ :=
    Does.exists_of_bind (swept e) (fun _ => steady_pure frame _) others
  obtain ⟨same, rfl⟩ := Acts.unique last (Does.pure _ t₂)
  obtain rfl := Except.ok.inj same
  rcases Stale.does_sweep e report.classes
    (g.settings.activeTargets.map (staleFolder g.settings)) proper with
    ⟨lists, places, v, ran, cleared, mem, listed, -, -⟩ | ⟨-, failure, v, failed⟩
  · obtain ⟨same, rfl⟩ := Acts.unique deleted ran
    obtain rfl := Except.ok.inj same
    refine ⟨e, _, ⟨compiled.symm, ⟨places, cleared, fun place => ?_⟩, fun path hpath => ?_⟩, rfl⟩
    · rw [mem, classes]
      simp
    · obtain ⟨d, hd, kind⟩ := List.mem_filterMap.mp hpath
      obtain ⟨folder, hfolder, name, place, found, rfl⟩ := listed.of_mem_noted hd
      obtain ⟨target, htarget, rfl⟩ := List.mem_map.mp hfolder
      rw [classes] at found
      exact ⟨target, htarget, name, place, found, (Option.some.inj kind).symm⟩
  · cases (Acts.unique deleted failed).1

theorem deleted_wrapUp {report report' : Report} (h : Does (g.wrapUp report) t (.ok report') u) :
    report'.deleted = report.deleted := by
  have modules (r : Report) : Returns (·.deleted = r.deleted) (g.renderErrorModules r) := by
    refine .bind .any fun isFile _ => ?_
    cases isFile with
    | true => exact .bind .any fun _ _ => .pure rfl
    | false => exact .bind .any fun _ _ => .pure rfl
  have test (r : Report) (f : SharedTest) :
      Returns (·.deleted = r.deleted) (g.renderSharedTest r f) := by
    refine .bind .any fun isFile _ => ?_
    cases isFile with
    | true => exact .bind .any fun _ _ => .pure rfl
    | false => exact .bind .any fun _ _ => .pure rfl
  have driver (r : Report) : Returns (·.deleted = r.deleted) (g.makeSyncDriver r) := by
    refine .bind .any fun isFile _ => ?_
    cases isFile with
    | true => exact .bind .any fun _ _ => .pure rfl
    | false => exact .bind .any fun _ _ => .pure rfl
  have auxiliary : Returns (·.deleted = report.deleted) (g.makeAuxiliary report) := by
    refine .bind (modules report) fun r₁ h₁ => ?_
    refine .bind (.foldlM (Q := (·.deleted = report.deleted)) h₁ fun r f hr => ?_) fun r₂ h₂ => ?_
    · exact hr ▸ test r f
    · exact h₂ ▸ driver r₂
  have whole : Returns (·.deleted = report.deleted) (g.wrapUp report) := by
    refine .bind .any fun _ _ => .bind (P := (·.deleted = report.deleted)) ?_ fun r hr =>
      .bind .any fun _ _ => .pure hr
    split
    · exact auxiliary
    · exact .pure rfl
  obtain ⟨log, run⟩ := h []
  exact whole _ _ _ run

/-- A run that succeeds: the trees behind the directories, the batch, the sweep and all that is left
to do, and the renditions. -/
structure Ran (g : Generator) (t : FileTree) (done : List Rendition) (t₁ t₂ t₃ u : FileTree)
    (report : Report) : Prop where
  folders : Does g.makeFolders t (.ok ()) t₁
  sources : Does g.settings.sources t₁ (.ok (done.map Rendition.source)) t₁
  batch : Batch g t₁ done t₂
  sweep : (done = [] ∨ g.settings.prune.enabled = false) ∧ t₃ = t₂ ∧ report.deleted = [] ∨
    done ≠ [] ∧ g.settings.prune.enabled = true ∧ ∃ e, Swept g done t₂ e report.deleted t₃
  rest : Touches (· ∈ g.furtherOutputs) t₃ u

theorem Swept.keepsDirectories {done : List Rendition} {e : Stale.Exclusions} {deleted : List Path}
    (h : Swept g done t e deleted u) : KeepsDirectories t u := by
  obtain ⟨places, cleared, -⟩ := h.gone
  exact fun place found => cleared.find?_directory.mpr found

theorem Ran.proper_folders {done : List Rendition} {t₁ t₂ t₃ : FileTree} {report : Report}
    (h : Ran g t done t₁ t₂ t₃ u report) (proper : t.IsProper) : t₁.IsProper :=
  ((g.steady_makeFolders_touches (P := fun _ => True)).of_acts h.folders).proper proper

theorem Ran.keepsDirectories {done : List Rendition} {t₁ t₂ t₃ : FileTree} {report : Report}
    (h : Ran g t done t₁ t₂ t₃ u report) : KeepsDirectories t₂ u := by
  refine KeepsDirectories.trans ?_ h.rest.directories
  rcases h.sweep with ⟨-, rfl, -⟩ | ⟨-, -, e, swept⟩
  · exact .refl _
  · exact swept.keepsDirectories

/-- The stages of a run up to the batch, and what is left to do if a class was rendered. -/
theorem exists_of_run {report : Report} (h : Does g.run t (.ok report) u) :
    ∃ paths mid t₁ t₂, Does g.makeFolders t (.ok ()) t₁ ∧
      Does g.settings.sources t₁ (.ok paths) t₁ ∧
        Does (paths.foldlM g.addSource {}) t₁ (.ok mid) t₂ ∧
      (mid.isEmpty = true ∧ report = mid ∧ u = t₂ ∨ mid.isEmpty = false ∧
        Does (g.finish mid) t₂ (.ok report) u) := by
  have all : ∀ p, (fun _ => True : Path → Prop) p := fun _ => trivial
  have frame := isFrame_touches fun _ => True
  have batch := steady_batch all g
  have last := steady_last all g
  have sources := steady_sources_touches (P := fun _ => True) g.settings
  have first := g.steady_makeFolders_touches (P := fun _ => True)
  obtain ⟨⟨⟩, t₁, folders, later⟩ := Does.exists_of_bind first
    (fun _ => steady_bind frame sources fun _ => steady_bind frame (batch _ _) last) h
  obtain ⟨paths, t₁', listed, later⟩ := Does.exists_of_bind sources
    (fun _ => steady_bind frame (batch _ _) last) later
  obtain rfl : t₁ = t₁' := (steady_sources g.settings).of_acts listed
  obtain ⟨mid, t₂, added, ended⟩ := Does.exists_of_bind (batch _ _) last later
  refine ⟨paths, mid, t₁, t₂, folders, listed, added, ?_⟩
  cases empty : mid.isEmpty with
  | true =>
    rw [if_pos empty] at ended
    obtain ⟨same, rfl⟩ := Acts.unique ended (Does.bind (does_note _ _ t₂) (.pure mid t₂))
    exact .inl ⟨rfl, Except.ok.inj same, rfl⟩
  | false =>
    rw [if_neg (by simp [empty])] at ended
    exact .inr ⟨rfl, ended⟩

theorem exists_of_finish {mid report : Report} (h : Does (g.finish mid) t (.ok report) u) :
    ∃ behind v, Does (if g.settings.prune.enabled then g.sweepStale mid else pure mid)
      t (.ok behind) v ∧ Does (g.wrapUp behind) v (.ok report) u := by
  have all : ∀ p, (fun _ => True : Path → Prop) p := fun _ => trivial
  have swept : Steady (Touches fun _ => True)
      (if g.settings.prune.enabled then g.sweepStale (m := StateM Session) mid
        else pure mid).run := by
    split
    · exact steady_sweepStale all g mid
    · exact steady_pure (isFrame_touches fun _ => True) mid
  rw [finish_eq] at h
  exact Does.exists_of_bind swept (fun r => g.steady_wrapUp r fun p _ => all p) h

theorem exists_ran_of_run {report : Report} (proper : t.IsProper)
    (h : Does g.run t (.ok report) u) : ∃ done t₁ t₂ t₃, Ran g t done t₁ t₂ t₃ u report := by
  have first := g.steady_makeFolders_touches (P := fun _ => True)
  obtain ⟨paths, mid, t₁, t₂, folders, listed, added, ended⟩ := exists_of_run h
  obtain ⟨done, rfl, batch, classes, deleted⟩ := exists_batch_of_foldlM added
  have proper : t₂.IsProper := batch.saves.touches.proper ((first.of_acts folders).proper proper)
  have empty := Report.isEmpty_of_classes classes
  rcases ended with ⟨none, rfl, rfl⟩ | ⟨some, ended⟩
  · have none : done = [] := by simpa [empty] using none
    exact ⟨done, t₁, u, u, folders, listed, batch, .inl ⟨.inl none, rfl, deleted⟩, .refl _ u⟩
  · have some : done ≠ [] := by simpa [empty] using some
    obtain ⟨behind, t₃, sweep, wrapped⟩ := exists_of_finish ended
    have rest : Touches (· ∈ g.furtherOutputs) t₃ u :=
      (g.steady_wrapUp behind fun p hp => hp).of_acts wrapped
    refine ⟨done, t₁, t₂, t₃, folders, listed, batch, ?_, rest⟩
    rw [deleted_wrapUp wrapped]
    by_cases enabled : g.settings.prune.enabled = true
    · rw [if_pos enabled] at sweep
      obtain ⟨e, gone, swept, listed⟩ := exists_of_sweepStale proper classes sweep
      rw [listed, deleted]
      exact .inr ⟨some, enabled, e, swept⟩
    · rw [if_neg enabled] at sweep
      obtain ⟨same, rfl⟩ := Acts.unique sweep (Does.pure mid t₂)
      obtain rfl := Except.ok.inj same
      exact .inl ⟨.inr (by simpa using enabled), rfl, deleted⟩

end Generator

end Polyglot
