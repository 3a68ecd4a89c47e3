import Polyglot.Generator.Run
import Polyglot.Proofs.HollowClasses

/-!
Runs that stop at a source. A source is rendered for all targets before anything of it is written,
so one that cannot be rendered leaves nothing behind, and the tree is the one that the sources
before it left. `Progress` says how far a run has come; what follows the sources (pruning, the
manifest, the auxiliary files) is not reached.
-/

namespace Polyglot

open Job

/-- What is reported when the artifacts of one more source are written. -/
def Report.add (report : Report) (r : Rendition) : Report where
  classes := (report.classes.enroll r.decl.name r.decl.baseClass).2
  written := report.written ++ r.artifacts.map Artifact.path
  deleted := report.deleted
  diagnostics := report.diagnostics ++ r.diagnostics

namespace Generator

/-- What a source is rendered to in a tree. -/
def renderIn (g : Generator) (t : FileTree) (source : Path) : Except Failure Rendition :=
  match t.read source with
  | .error e => .error (.fileAccess source e)
  | .ok contents => (g.render source.text contents).1

variable {g : Generator}

theorem renderIn_of_error {t : FileTree} {source : Path} {e : Failure}
    (h : (ruleless g.settings).renderIn t source = .error e) : g.renderIn t source = .error e := by
  unfold renderIn at h ⊢
  cases read : t.read source with
  | error failure =>
    rw [read] at h
    exact h
  | ok contents =>
    rw [read] at h
    exact render_of_error h

theorem renderIn_of_isHollow (regular : g.renderer.book.IsRegular)
    (php : g.settings.activeTargets = [.php]) {t : FileTree} {source : Path} {r : Rendition}
    (h : (ruleless g.settings).renderIn t source = .ok r)
    (hollow : r.decl.isHollow = true) : g.renderIn t source = .ok r := by
  unfold renderIn at h ⊢
  cases read : t.read source with
  | error failure =>
    rw [read] at h
    cases h
  | ok contents =>
    rw [read] at h
    exact render_of_isHollow regular php h hollow

section Model

variable {m : Type → Type} [Monad m] [Workspace m]

/-- Makes the directories of the enabled targets. -/
def makeFolders (g : Generator) : Job m Unit :=
  g.settings.activeTargets.forM fun target => Job.makeDirectories (g.settings.folder target)

/-- Writes artifacts in their order. -/
def saveAll (artifacts : List Artifact) : Job m Unit :=
  artifacts.forM fun a => Job.save a.path a.text

end Model

/-- The artifacts are written one after another, and every write succeeds. -/
inductive Saves : FileTree → List Artifact → FileTree → Prop where
  | nil {t : FileTree} : Saves t [] t
  | cons {t u v : FileTree} {a : Artifact} {artifacts : List Artifact} :
    Does (Job.save a.path a.text) t (.ok ()) u → Saves u artifacts v → Saves t (a :: artifacts) v

/-- The sources are rendered one after another, each in the tree that those before it left, and the
artifacts of each are written before the next is read. -/
inductive Progress (g : Generator) : FileTree → List Path → List Artifact → FileTree → Prop where
  | nil {t : FileTree} : Progress g t [] [] t
  | cons {t u v : FileTree} {source : Path} {sources : List Path} {r : Rendition}
      {written : List Artifact} :
    g.renderIn t source = .ok r → Saves t r.artifacts u → Progress g u sources written v →
      Progress g t (source :: sources) (r.artifacts ++ written) v

theorem Saves.append {t u v : FileTree} {as bs : List Artifact} (h : Saves t as u)
    (h' : Saves u bs v) : Saves t (as ++ bs) v := by
  induction h with
  | nil => exact h'
  | cons save _ ih => exact .cons save (ih h')

theorem Saves.does {t u : FileTree} {artifacts : List Artifact} (h : Saves t artifacts u) :
    Does (saveAll artifacts) t (.ok ()) u := by
  induction h with
  | nil => exact .pure () _
  | cons save _ ih => exact .bind save ih

theorem steady_saveAll (artifacts : List Artifact) :
    Steady KeepsFiles (saveAll (m := StateM Session) artifacts).run := by
  induction artifacts with
  | nil => exact steady_pure isFrame_keepsFiles ()
  | cons a artifacts ih =>
    exact steady_bind isFrame_keepsFiles (steady_save_keepsFiles _ _) fun _ => ih

theorem saves_of_does {t u : FileTree} {artifacts : List Artifact}
    (h : Does (saveAll artifacts) t (.ok ()) u) : Saves t artifacts u := by
  induction artifacts generalizing t with
  | nil =>
    obtain ⟨-, rfl⟩ := Acts.unique h (Does.pure () t)
    exact .nil
  | cons a artifacts ih =>
    obtain ⟨log, run⟩ := h []
    obtain ⟨_, s₁, first, others⟩ := exists_of_run_bind run
    exact .cons ((steady_save_keepsFiles _ _).acts_of_run first)
      (ih ((steady_saveAll artifacts).acts_of_run others))

theorem Saves.does_writeArtifact {t u : FileTree} {artifacts : List Artifact}
    (h : Saves t artifacts u) : Does (artifacts.forM writeArtifact) t (.ok ()) u := by
  induction h with
  | nil => exact .pure () _
  | cons save _ ih => exact .bind (.bind save (does_note _ _ _)) ih

theorem Saves.keepsFiles {t u : FileTree} {artifacts : List Artifact} (h : Saves t artifacts u) :
    KeepsFiles t u :=
  (steady_saveAll artifacts).of_acts h.does

theorem Progress.saves {t u : FileTree} {sources : List Path} {written : List Artifact}
    (h : Progress g t sources written u) : Saves t written u := by
  induction h with
  | nil => exact .nil
  | cons _ saves _ ih => exact saves.append ih

/-! ### One source -/

theorem does_renderFile (g : Generator) (source : Path) (t : FileTree) :
    Does (g.renderFile source) t (g.renderIn t source) t := by
  have read := does_read source t
  rw [renderIn]
  cases h : t.read source with
  | error e =>
    rw [h] at read
    exact read.bind_error
  | ok contents =>
    rw [h] at read
    exact read.bind (.bind (does_noteAll _ t) (Acts.pure _ t))

theorem does_renderSource (g : Generator) (source : Path) (t : FileTree) :
    Does (g.renderSource source) t (g.renderIn t source) t := by
  refine .bind (does_note _ _ t) ?_
  have rendered := does_renderFile g source t
  cases h : g.renderIn t source with
  | ok r =>
    rw [h] at rendered
    exact rendered.tryCatch_ok
  | error e =>
    rw [h] at rendered
    exact rendered.tryCatch_error (.bind (does_note _ _ t) (Acts.pure _ t))

/-- A source that fails leaves the tree as it was. -/
theorem does_addSource_error {t : FileTree} {source : Path} {e : Failure} (report : Report)
    (failure : g.renderIn t source = .error e) :
    Does (g.addSource report source) t (.error e) t := by
  have rendered := does_renderSource g source t
  rw [failure] at rendered
  exact rendered.bind_error

theorem does_addSource {t u : FileTree} {source : Path} {r : Rendition} (report : Report)
    (success : g.renderIn t source = .ok r) (saves : Saves t r.artifacts u) :
    Does (g.addSource report source) t (.ok (report.add r)) u := by
  have rendered := does_renderSource g source t
  rw [success] at rendered
  exact rendered.bind (saves.does_writeArtifact.bind (.bind (does_noteAll _ u) (.pure _ u)))

theorem Progress.does {t u : FileTree} {sources : List Path} {written : List Artifact}
    (h : Progress g t sources written u) (report : Report) :
    ∃ report', Does (sources.foldlM g.addSource report) t (.ok report') u := by
  induction h generalizing report with
  | nil => exact ⟨report, .pure report _⟩
  | cons success saves _ ih =>
    obtain ⟨report', others⟩ := ih _
    exact ⟨report', (does_addSource report success saves).bind others⟩

/-! ### Discovery -/

theorem steady_load (path : Path) : Steady Eq (Selection.load (m := StateM Session) path).run := by
  refine steady_bind isFrame_eq
    (steady_lift (.of_looking isFrame_eq _ (acts_isFile path))) fun file => ?_
  refine steady_bind isFrame_eq (steady_lift (.of_looking isFrame_eq _ (acts_isDirectory path)))
    fun directory => ?_
  split
  · refine steady_bind isFrame_eq (steady_read isFrame_eq path) fun text => ?_
    exact steady_bind isFrame_eq (steady_note isFrame_eq _ _) fun _ => steady_pure isFrame_eq _
  · exact steady_bind isFrame_eq (steady_note isFrame_eq _ _) fun _ => steady_pure isFrame_eq _

theorem steady_sources (c : Settings) : Steady Eq (c.sources (m := StateM Session)).run := by
  refine steady_bind isFrame_eq (steady_load _) fun inclusion => ?_
  exact steady_bind isFrame_eq (steady_filesIn isFrame_eq _) fun files => steady_pure isFrame_eq _

theorem textLe_iff {a b : String} : textLe a b = true ↔ a ≤ b := by
  rw [textLe, Bool.not_eq_true', decide_eq_false_iff_not]
  exact String.not_lt

theorem pairwise_sortBy (names : List String) : (sortBy textLe names).Pairwise (· ≤ ·) :=
  Polyglot.pairwise_sortBy (fun _ _ => textLe_iff.mp)
    (fun a b behind =>
      (String.le_total a b).resolve_left fun before => by simp [textLe_iff.mpr before] at behind)
    (fun _ _ _ => String.le_trans) names

/-- Sources are found in the order of their names. -/
theorem exists_names_of_sources {c : Settings} {t u : FileTree} {sources : List Path}
    (found : Does c.sources t (.ok sources) u) :
    ∃ names : List String, names.Pairwise (· ≤ ·) ∧
      sources = names.map fun name => (c.resolve c.jsDir).join ⟨name⟩ := by
  obtain ⟨log, run⟩ := found []
  obtain ⟨inclusion, s₁, -, run⟩ := exists_of_run_bind run
  obtain ⟨files, s₂, listed, run⟩ := exists_of_run_bind run
  obtain ⟨names, s₃, -, listed⟩ := exists_of_run_bind listed
  obtain rfl : (sortBy textLe names).map (fun name => (c.resolve c.jsDir).join ⟨name⟩) = files :=
    Except.ok.inj (Prod.mk.inj listed).1
  have chosen := Except.ok.inj (Prod.mk.inj run).1
  rw [List.filter_map] at chosen
  exact ⟨_, (pairwise_sortBy names).filter _, chosen.symm⟩

/-! ### Whole runs -/

theorem steady_makeFolders (g : Generator) :
    Steady KeepsFiles (g.makeFolders (m := StateM Session)).run := by
  rw [makeFolders]
  induction g.settings.activeTargets with
  | nil => exact steady_pure isFrame_keepsFiles ()
  | cons target targets ih =>
    exact steady_bind isFrame_keepsFiles (steady_makeDirectories_keepsFiles _) fun _ => ih

/-- A run stops with the failure of the first source that cannot be rendered. Its tree is then the
one of making the directories and writing the artifacts of the sources before, in the order of the
names. -/
theorem does_run_error {t t₁ u t₂ : FileTree} {done later : List Path} {source : Path}
    {written : List Artifact} {e : Failure} (folders : Does g.makeFolders t (.ok ()) t₁)
    (found : Does g.settings.sources t₁ (.ok (done ++ source :: later)) u)
    (progress : Progress g t₁ done written t₂) (failure : g.renderIn t₂ source = .error e) :
    Does g.run t (.error e) t₂ ∧ Does (g.makeFolders >>= fun _ => saveAll written) t (.ok ()) t₂ ∧
      KeepsFiles t t₂ ∧
      ∃ names : List String, names.Pairwise (· ≤ ·) ∧
        done ++ source :: later = names.map fun name =>
          (g.settings.resolve g.settings.jsDir).join ⟨name⟩ := by
  obtain rfl : t₁ = u := (steady_sources g.settings).of_acts found
  obtain ⟨report, rendered⟩ := progress.does {}
  have stopped : Does ((done ++ source :: later).foldlM g.addSource {}) t₁ (.error e) t₂ := by
    rw [List.foldlM_append]
    exact rendered.bind (does_addSource_error report failure).bind_error
  have kept : KeepsFiles t t₂ :=
    isFrame_keepsFiles.trans ((steady_makeFolders g).of_acts folders) progress.saves.keepsFiles
  exact ⟨folders.bind (found.bind stopped.bind_error), folders.bind progress.saves.does, kept,
    exists_names_of_sources found⟩

/-- A configuration that asks for PHP alone and for no auxiliary files. -/
def phpOnly : Settings where
  targets := ⟨false, false, true⟩
  auxiliary := { enabled := false }

theorem validate_phpOnly : phpOnly.validate = .ok () :=
  eq_ok_of_toOption (by decide +kernel)

/-- Two sources, of which only the first is a class. -/
def twoSources : FileTree :=
  ⟨[(["js"], .directory), (["js", "b.js"], .file (.text "class b")),
    (["js", "a.js"],
      .file (.text "module.exports = class a extends B \x7b\n    m () \x7b\n    \x7d\n\x7d;\n"))]⟩

def firstRendition : Rendition :=
  ((ruleless phpOnly).renderIn twoSources ⟨"./js/a.js"⟩).toOption.get (by decide +kernel)

theorem does_run_error_twoSources :
    ∃ g t, Does (ofSettings phpOnly) twoSources (.ok g) twoSources ∧
      Does g.run twoSources (.error (.format "./js/b.js"
        "no `module.exports = class <Name> extends <Base> \x7b` header found" none)) t ∧
      KeepsFiles twoSources t ∧ ((t.find? ["php", "a.php"]).any Node.isFile) = true := by
  have folders :
      Does (ruleless phpOnly).makeFolders twoSources (.ok ()) (twoSources.put ["php"] .directory) :=
    does_of_perform (steady_makeFolders _) (by decide +kernel) (by decide +kernel)
  have found : Does phpOnly.sources (twoSources.put ["php"] .directory)
      (.ok ([⟨"./js/a.js"⟩] ++ ⟨"./js/b.js"⟩ :: [])) (twoSources.put ["php"] .directory) :=
    does_of_perform (steady_sources phpOnly) (by decide +kernel) (by decide +kernel)
  have saves : Saves (twoSources.put ["php"] .directory) firstRendition.artifacts
      ((Session.mk (twoSources.put ["php"] .directory) []).perform
        (saveAll firstRendition.artifacts)).2.tree :=
    saves_of_does (does_of_perform (steady_saveAll _) (by decide +kernel) rfl)
  have targets : phpOnly.activeTargets = [.php] := by decide
  have first : (ruleless phpOnly).renderIn (twoSources.put ["php"] .directory) ⟨"./js/a.js"⟩ =
      .ok firstRendition :=
    eq_ok_of_toOption (by decide +kernel)
  have hollow : firstRendition.decl.isHollow = true := by decide +kernel
  have failure :
      (ruleless phpOnly).renderIn ((Session.mk (twoSources.put ["php"] .directory) []).perform
      (saveAll firstRendition.artifacts)).2.tree ⟨"./js/b.js"⟩ = .error (.format "./js/b.js"
        "no `module.exports = class <Name> extends <Base> \x7b` header found" none) :=
    eq_error_of_match (by decide +kernel)
  have file : ((((Session.mk (twoSources.put ["php"] .directory) []).perform
      (saveAll firstRendition.artifacts)).2.tree.find? ["php", "a.php"]).any
        Node.isFile) = true := by
    decide +kernel
  generalize ((Session.mk (twoSources.put ["php"] .directory) []).perform
    (saveAll firstRendition.artifacts)).2.tree = t₂ at saves failure file
  obtain ⟨g, made, same, -, book⟩ := exists_ofSettings validate_phpOnly rfl
  rw [← same] at targets found first failure
  have progress : Progress g _ [⟨"./js/a.js"⟩] _ t₂ :=
    .cons (renderIn_of_isHollow (RuleBook.isRegular_of_make book) targets first hollow) saves .nil
  have folders : Does g.makeFolders twoSources (.ok ()) (twoSources.put ["php"] .directory) := by
    rw [makeFolders, same]
    exact folders
  obtain ⟨stopped, -, kept, -⟩ := does_run_error folders found progress (renderIn_of_error failure)
  exact ⟨g, t₂, made twoSources, stopped, kept, file⟩

end Generator

end Polyglot
