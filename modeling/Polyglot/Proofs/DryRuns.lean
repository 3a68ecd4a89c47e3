import Polyglot.Proofs.Batch

/-!
Runs on hollow classes, computed without rules. A dry run goes through the stages of a run with a
generator that has no rules. If all classes that it meets are hollow, the generator of the
configuration goes the same way, up to the auxiliary files (`exists_settle_of_dryRun`).
-/

namespace Polyglot

open Job FileTree

namespace Generator

variable {g : Generator} {t t₁ t₂ t₃ u : FileTree} {done : List Rendition}

/-! ### Stages in their order -/

theorem classes_foldl_add (done : List Rendition) (report : Report) :
    (done.foldl Report.add report).classes =
      done.foldl (fun classes r =>
        (classes.enroll r.decl.name r.decl.baseClass).2) report.classes := by
  induction done generalizing report with
  | nil => rfl
  | cons r done ih => exact ih _

theorem Batch.does (h : Batch g t done u) (report : Report) :
    Does ((done.map Rendition.source).foldlM g.addSource report) t
      (.ok (done.foldl Report.add report)) u := by
  induction h generalizing report with
  | nil => exact .pure report _
  | cons rendered saves _ ih => exact (does_addSource report rendered saves).bind (ih _)

/-- The sources and the tree decide what is rendered. -/
theorem Batch.unique {done' : List Rendition} {u' : FileTree} (h : Batch g t done u)
    (h' : Batch g t done' u') (same : done.map Rendition.source = done'.map Rendition.source) :
    done = done' ∧ u = u' := by
  induction h generalizing done' with
  | nil =>
    obtain rfl := List.map_eq_nil_iff.mp same.symm
    cases h'
    exact ⟨rfl, rfl⟩
  | cons rendered saves _ ih =>
    cases h' with
    | nil => cases same
    | cons rendered' saves' others' =>
      obtain ⟨source, sources⟩ := List.cons.inj same
      rw [source] at rendered
      obtain rfl := Except.ok.inj (rendered.symm.trans rendered')
      obtain ⟨-, rfl⟩ := Acts.unique saves.does saves'.does
      obtain ⟨rfl, rfl⟩ := ih others' sources
      exact ⟨rfl, rfl⟩

section Model

variable {m : Type → Type} [Monad m] [Workspace m]

/-- What follows the sources, up to the auxiliary files. -/
def settle (g : Generator) (mid : Report) : Job m Report :=
  (if g.settings.prune.enabled then g.sweepStale mid else pure mid) >>= fun report =>
    g.declareClasses report.classes >>= fun _ => pure report

/-- The auxiliary files, if they are wanted. -/
def furnish (g : Generator) (report : Report) : Job m Report :=
  if g.settings.auxiliary.enabled then g.makeAuxiliary report else pure report

end Model

theorem steady_settle (g : Generator) (mid : Report) :
    Steady (Touches fun _ => True) (g.settle (m := StateM Session) mid).run := by
  have frame := isFrame_touches fun _ => True
  refine steady_bind frame ?_ fun report =>
    steady_bind frame (g.steady_declareClasses _ trivial) fun _ => steady_pure frame report
  split
  · exact steady_sweepStale (fun _ => trivial) g mid
  · exact steady_pure frame mid

theorem does_finish {mid behind report : Report} (settled : Does (g.settle mid) t (.ok behind) t₁)
    (furnished : Does (g.furnish behind) t₁ (.ok report) u) :
    Does (g.finish mid) t (.ok report) u := by
  have stages : g.finish (m := StateM Session) mid = g.settle mid >>= fun behind =>
    g.furnish behind >>= fun report =>
      note .info ("Transpiled successfully: " ++ report.summary "classes") >>=
        fun _ => pure report := by
    rw [finish_eq, settle, bind_assoc]
    refine congrArg _ (funext fun report => ?_)
    rw [bind_assoc]
    rfl
  rw [stages]
  exact settled.bind (furnished.bind ((does_note _ _ u).bind (.pure report u)))

theorem does_run {behind report : Report} (folders : Does g.makeFolders t (.ok ()) t₁)
    (sources : Does g.settings.sources t₁ (.ok (done.map Rendition.source)) t₁)
    (batch : Batch g t₁ done t₂)
    (some : done ≠ []) (settled : Does (g.settle (done.foldl Report.add {})) t₂ (.ok behind) t₃)
    (furnished : Does (g.furnish behind) t₃ (.ok report) u) : Does g.run t (.ok report) u := by
  have full : (done.foldl Report.add {}).isEmpty = false := by
    rw [Report.isEmpty_of_classes (classes_foldl_add done {}), List.isEmpty_eq_false_iff]
    exact some
  refine folders.bind (sources.bind ((batch.does {}).bind ?_))
  rw [if_neg (by simp [full])]
  exact does_finish settled furnished

/-! ### Without rules -/

theorem Batch.of_isHollow (regular : g.renderer.book.IsRegular)
    (php : g.settings.activeTargets = [.php]) (h : Batch (ruleless g.settings) t done u)
    (hollow : ∀ r ∈ done, r.decl.isHollow = true) : Batch g t done u := by
  induction h with
  | nil => exact .nil
  | cons rendered saves _ ih =>
    obtain ⟨first, others⟩ := List.forall_mem_cons.mp hollow
    exact .cons (renderIn_of_isHollow regular php rendered first) saves (ih others)

/-- The renditions of sources, one after another, and the tree behind the last. -/
def renderAll (g : Generator) (t : FileTree) : List Path → Option (List Rendition × FileTree)
  | [] => some ([], t)
  | source :: sources =>
    (g.renderIn t source).toOption.bind fun r =>
      let saved := (Session.mk t []).perform (saveAll r.artifacts)
      saved.1.toOption.bind fun _ =>
        (renderAll g saved.2.tree sources).map fun made => (r :: made.1, made.2)

theorem batch_of_renderAll {sources : List Path} (h : g.renderAll t sources = some (done, u)) :
    done.map Rendition.source = sources ∧ Batch g t done u := by
  induction sources generalizing t done with
  | nil =>
    obtain ⟨rfl, rfl⟩ := Prod.mk.inj (Option.some.inj h)
    exact ⟨rfl, .nil⟩
  | cons source sources ih =>
    obtain ⟨r, rendered, h⟩ := Option.bind_eq_some_iff.mp h
    obtain ⟨⟨⟩, saved, h⟩ := Option.bind_eq_some_iff.mp h
    obtain ⟨⟨others, v⟩, made, same⟩ := Option.map_eq_some_iff.mp h
    obtain ⟨rfl, rfl⟩ := Prod.mk.inj same
    obtain ⟨rfl, batch⟩ := ih made
    have rendered := eq_ok_of_toOption rendered
    obtain ⟨rfl, -, -⟩ := renderIn_eq_ok rendered
    exact ⟨rfl, .cons rendered (saves_of_does (does_of_perform (steady_saveAll _) saved rfl)) batch⟩

/-- Goes through a run without rules up to the auxiliary files, and checks what comes of it if all
classes are hollow. -/
def dryRun (c : Settings) (t : FileTree) (check : List Rendition → Report → FileTree → Bool) :
    Bool :=
  let folders := (Session.mk t []).perform (ruleless c).makeFolders
  let found := (Session.mk folders.2.tree []).perform c.sources
  folders.1.toOption.isSome && found.1.toOption.any fun sources =>
    ((ruleless c).renderAll folders.2.tree sources).any fun made =>
      let settled :=
        (Session.mk made.2 []).perform ((ruleless c).settle (made.1.foldl Report.add {}))
      !made.1.isEmpty && made.1.all (·.decl.isHollow) && settled.1.toOption.any fun behind =>
        check made.1 behind settled.2.tree

/-- What a dry run comes to is what the configuration's own generator comes to. -/
theorem exists_settle_of_dryRun {c : Settings} (valid : c.validate = .ok ())
    (builtin : c.errorHierarchyJson = none) (php : c.activeTargets = [.php])
    {check : List Rendition → Report → FileTree → Bool}
    (h : dryRun c t check = true) :
    ∃ g, Does (ofSettings c) t (.ok g) t ∧ g.settings = c ∧ g.renderer.strict = c.strictNesting ∧
      RuleBook.make (.ofNames Name.standard) .builtin c.nestingPasses = .ok g.renderer.book ∧
      ∃ done t₁ t₂ behind t₃, Does g.makeFolders t (.ok ()) t₁ ∧
        Does c.sources t₁ (.ok (done.map Rendition.source)) t₁ ∧ Batch g t₁ done t₂ ∧
          check done behind t₃ = true ∧
        ∀ report u, Does (g.furnish behind) t₃ (.ok report) u → Does g.run t (.ok report) u := by
  obtain ⟨g, made, rfl, strict, book⟩ := exists_ofSettings valid builtin
  have regular := RuleBook.isRegular_of_make book
  unfold dryRun at h
  dsimp only at h
  obtain ⟨folders, h⟩ := Bool.and_eq_true_iff.mp h
  obtain ⟨⟨⟩, folders⟩ := Option.isSome_iff_exists.mp folders
  obtain ⟨sources, found, h⟩ := (Option.any_eq_true _ _).mp h
  have folders := does_of_perform (steady_makeFolders (ruleless g.settings)) folders rfl
  have found := does_of_perform (steady_sources g.settings) found rfl
  rw [← (steady_sources g.settings).of_acts found] at found
  generalize ((Session.mk t []).perform (ruleless g.settings).makeFolders).2.tree =
    t₁ at folders found h
  obtain ⟨⟨done, t₂⟩, rendered, h⟩ := (Option.any_eq_true _ _).mp h
  simp only [Bool.and_eq_true, Bool.not_eq_true', List.isEmpty_eq_false_iff, List.all_eq_true] at h
  obtain ⟨⟨some, hollow⟩, h⟩ := h
  obtain ⟨behind, settled, checked⟩ := (Option.any_eq_true _ _).mp h
  obtain ⟨rfl, batch⟩ := batch_of_renderAll rendered
  have batch := batch.of_isHollow regular php hollow
  have settled := does_of_perform (steady_settle _ _) settled rfl
  generalize ((Session.mk t₂ []).perform ((ruleless g.settings).settle _)).2.tree =
    t₃ at settled checked
  -- Settling goes by the settings alone.
  have settled : Does (g.settle (done.foldl Report.add {})) t₂ (.ok behind) t₃ := settled
  exact ⟨g, made t, rfl, strict, book, done, t₁, t₂, behind, t₃, folders, found, batch, checked,
    fun report u => does_run folders found batch some settled⟩

/-- Without auxiliary files a dry run is a whole run. -/
theorem exists_run_of_dryRun {c : Settings} (valid : c.validate = .ok ())
    (builtin : c.errorHierarchyJson = none) (php : c.activeTargets = [.php])
    (quiet : c.auxiliary.enabled = false)
    {check : List Rendition → Report → FileTree → Bool} (h : dryRun c t check = true) :
    ∃ g, Does (ofSettings c) t (.ok g) t ∧ g.settings = c ∧ ∃ done t₁ t₂ report u,
      Does g.makeFolders t (.ok ()) t₁ ∧ Does c.sources t₁ (.ok (done.map Rendition.source)) t₁ ∧
      Batch g t₁ done t₂ ∧ Does g.run t (.ok report) u ∧ check done report u = true := by
  obtain ⟨g, made, rfl, -, -, done, t₁, t₂, behind, t₃, folders, found, batch, checked, runs⟩ :=
    exists_settle_of_dryRun valid builtin php h
  have furnished : Does (g.furnish behind) t₃ (.ok behind) t₃ := by
    rw [furnish, if_neg (by simp [quiet])]
    exact .pure behind t₃
  exact ⟨g, made, rfl, done, t₁, t₂, behind, t₃, folders, found, batch,
    runs behind t₃ furnished, checked⟩

end Generator

end Polyglot
