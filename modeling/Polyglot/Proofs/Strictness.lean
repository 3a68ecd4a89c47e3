import Polyglot.Proofs.DryRuns
import Polyglot.Proofs.NumberLists
import Polyglot.Proofs.Overwriting

/-!
Strict nesting. A configuration may ask that a collection literal that the bounded rules leave is a
failure. The methods of classes are held to that: a class with such a literal in a PHP method is not
rendered, and a run that meets one fails. The auxiliary sources are not: what is left in the
definition of the hierarchy and in the shared tests is noted as a diagnostic, however strict the
configuration is. `run_strict` says so exactly.
-/

namespace Polyglot

open Job

/-- Whether a collection literal was left. -/
def Diagnostic.isNesting (d : Diagnostic) : Bool :=
  match d.kind with
  | .nestingExceeded _ => true
  | _ => false

/-- The diagnostics about collection literals that were left. -/
def Diagnostic.nestings (ds : List Diagnostic) : List Diagnostic :=
  ds.filter isNesting

theorem Diagnostic.nestings_append (ds es : List Diagnostic) :
    nestings (ds ++ es) = nestings ds ++ nestings es :=
  List.filter_append _ _

open Diagnostic

/-! ### Classes -/

theorem Transcript.nestings_report_missing (c : Transcript) (name : String) :
    nestings (c.report (.missingEntry name)).2.diagnostics = nestings c.diagnostics := by
  change nestings (Diagnostic.report c.file (.missingEntry name) c.diagnostics).2 = _
  unfold Diagnostic.report
  split
  · rfl
  · exact (nestings_append _ _).trans (List.append_nil _)

namespace Renderer

variable {r : Renderer} {className : String} {c c' : Transcript}

theorem nestings_absorb (strict : r.strict = true) {f : Finding}
    (h : r.absorb className c f = (c', none)) :
    nestings c'.diagnostics = nestings c.diagnostics := by
  cases f with
  | rendering method target =>
    obtain rfl := (Prod.mk.inj h).1
    rfl
  | overflow method line =>
    rw [absorb, if_pos strict] at h
    cases h
  | missing name =>
    have kept := c.nestings_report_missing name
    unfold absorb at h
    dsimp only at h
    split at h
    · next reported =>
      rw [reported] at kept
      obtain rfl := (Prod.mk.inj h).1
      exact kept
    · next reported =>
      rw [reported] at kept
      obtain rfl := (Prod.mk.inj h).1
      exact kept

theorem nestings_absorbAll (strict : r.strict = true) {findings : List Finding}
    (h : r.absorbAll className c findings = (c', none)) :
    nestings c'.diagnostics = nestings c.diagnostics := by
  induction findings generalizing c with
  | nil =>
    obtain rfl := (Prod.mk.inj h).1
    rfl
  | cons f rest ih =>
    unfold absorbAll at h
    split at h
    · next first => rw [ih h, nestings_absorb strict first]
    · cases h

end Renderer

namespace Generator

variable {g : Generator}

/-- Under strict nesting a rendition has no diagnostic about nesting, and in no PHP method a literal
is left. -/
theorem nestings_render (strict : g.renderer.strict = true) {file contents : String} {r : Rendition}
    (h : (g.render file contents).1 = .ok r) :
    nestings r.diagnostics = [] ∧
      (Target.php ∈ g.settings.activeTargets → g.renderer.IsConverted r.decl) := by
  obtain ⟨c, read, converted⟩ := (render_eq_ok_iff g file contents).mp ⟨r, h⟩
  unfold render at h
  rw [read] at h
  dsimp only at h
  split at h
  · cases h
  · next texts context rendered =>
    obtain rfl := Except.ok.inj h
    refine ⟨?_, converted strict⟩
    unfold Renderer.classTexts at rendered
    dsimp only at rendered
    split at rendered
    · next absorbed =>
      obtain ⟨-, rfl⟩ := Prod.mk.inj rendered
      exact Renderer.nestings_absorbAll strict absorbed
    · cases (Prod.mk.inj rendered).1

theorem returns_addSource (strict : g.renderer.strict = true) (report : Report) (source : Path) :
    Returns (fun report' => nestings report'.diagnostics = nestings report.diagnostics)
      (g.addSource report source) := by
  have rendered : Returns (fun r => nestings r.diagnostics = []) (g.renderSource source) := by
    intro s r s' run
    obtain ⟨log, same⟩ := does_renderSource g source s.tree s.log
    obtain ⟨read, -⟩ := Prod.mk.inj (run.symm.trans same)
    have read := read.symm
    rw [renderIn] at read
    split at read
    · cases read
    · exact (nestings_render strict read).1
  refine .bind rendered fun r none => .bind .any fun _ _ => .bind .any fun _ _ => .pure ?_
  rw [nestings_append, none, List.append_nil]

theorem returns_sweepStale (report : Report) :
    Returns (fun report' => nestings report'.diagnostics = nestings report.diagnostics)
      (g.sweepStale report) := by
  have swept (e : Stale.Exclusions) (folders : List Stale.Folder) :
      Returns (fun ds => nestings ds = []) (Stale.sweep e report.classes folders) := by
    refine .bind (.mapM (Q := fun ds => ∀ d ∈ ds, d.isNesting = false) fun folder => ?_)
      fun lists none => .pure ?_
    · exact .bind .any fun _ _ => .mapM fun path => .bind .any fun _ _ =>
        .bind .any fun _ _ => .pure rfl
    · refine List.filter_eq_nil_iff.mpr fun d mem => ?_
      obtain ⟨ds, hds, mem⟩ := List.mem_flatten.mp mem
      simp [none ds hds d mem]
  refine .bind .any fun e _ => .bind (swept e _) fun ds none => .pure ?_
  rw [nestings_append, none, List.append_nil]

theorem returns_makeSyncDriver (report : Report) :
    Returns (fun report' => report'.diagnostics = report.diagnostics)
      (g.makeSyncDriver report) := by
  refine .bind .any fun isFile _ => ?_
  cases isFile with
  | true => exact .bind .any fun _ _ => .pure rfl
  | false => exact .bind .any fun _ _ => .pure rfl

/-- The generator of a configuration has its settings, and is strict if it asks for that. -/
theorem returns_ofSettings (c : Settings) :
    Returns (fun g => g.settings = c ∧ g.renderer.strict = c.strictNesting) (ofSettings c) := by
  unfold ofSettings
  split
  case' h_1 => refine .bind .any fun _ _ => ?_
  all_goals
    exact .bind .any fun _ _ => .bind .any fun _ _ => .bind .any fun _ _ =>
      .bind .any fun _ _ => .pure ⟨rfl, rfl⟩

end Generator

/-! ### Auxiliary sources -/

/-- What the job returns on the tree, if it succeeds, has the property. -/
def Job.ReturnsOn {α : Type} (t : FileTree) (Q : α → Prop) (job : Job (StateM Session) α) : Prop :=
  ∀ log a s', job.run ⟨t, log⟩ = (.ok a, s') → Q a

namespace Job.ReturnsOn

variable {α β : Type} {t u : FileTree} {P : α → Prop} {Q : β → Prop} {x : Job (StateM Session) α}
  {f : α → Job (StateM Session) β}

theorem of_returns (h : Returns P x) : ReturnsOn t P x :=
  fun log => h ⟨t, log⟩

theorem of_does (h : ReturnsOn t P x) {a : α} (does : Does x t (.ok a) u) : P a := by
  obtain ⟨log, run⟩ := does []
  exact h [] a _ run

theorem bind (hx : ReturnsOn t P x) (hf : ∀ a, P a → Returns Q (f a)) :
    ReturnsOn t Q (x >>= f) := by
  intro log b s' run
  obtain ⟨a, s, first, others⟩ := exists_of_run_bind run
  exact hf a (hx log a s first) s b s' others

/-- A step that only looks is followed by one on the same tree. -/
theorem bind_looking {r : Except Failure α} (looks : Does x t r t)
    (hf : ∀ a, r = .ok a → ReturnsOn t Q (f a)) : ReturnsOn t Q (x >>= f) := by
  intro log b s' run
  obtain ⟨a, s, first, others⟩ := exists_of_run_bind run
  obtain ⟨log', same⟩ := looks log
  obtain ⟨result, rfl⟩ := Prod.mk.inj (same.symm.trans first)
  exact hf a result log' b s' others

theorem bind_read {p : Path} {f : String → Job (StateM Session) β}
    (hf : ∀ contents, t.read p = .ok contents → ReturnsOn t Q (f contents)) :
    ReturnsOn t Q (Job.read p >>= f) := by
  refine bind_looking (does_read p t) fun contents read => hf contents ?_
  split at read
  · next same => rw [same, Except.ok.inj read]
  · cases read

theorem bind_isFile {p : Path} {f : Bool → Job (StateM Session) β}
    (there : (t.node? p).any Node.isFile = true → ReturnsOn t Q (f true))
    (missing : (t.node? p).any Node.isFile = false → ReturnsOn t Q (f false)) :
    ReturnsOn t Q (Job.isFile p >>= f) := by
  refine bind_looking (does_lift (acts_isFile p t)) fun isFile same => ?_
  have same := Except.ok.inj same
  cases isFile with
  | true => exact there same
  | false => exact missing same

end Job.ReturnsOn

/-- What is rendered beside the classes. -/
inductive Auxiliary where
  | errors
  | test (f : SharedTest)
  deriving DecidableEq, Repr

/-- A piece of source, with the text of the path it comes from. -/
structure Passage where
  origin : String
  code : String
  deriving DecidableEq, Repr

namespace Passage

/-- The lines on which collection literals are left. -/
def left (book : RuleBook) (p : Passage) : List String :=
  (Fragment.render book p.code false).2

def diagnostics (book : RuleBook) (p : Passage) : List Diagnostic :=
  Fragment.diagnostics p.origin (p.left book)

/-- All that is noted of passages is about nesting. -/
theorem nestings_flatMap (book : RuleBook) (ps : List Passage) :
    nestings (ps.flatMap (diagnostics book)) = ps.flatMap (diagnostics book) := by
  refine List.filter_eq_self.mpr fun d mem => ?_
  obtain ⟨p, -, mem⟩ := List.mem_flatMap.mp mem
  obtain ⟨line, -, rfl⟩ := List.mem_map.mp mem
  rfl

theorem flatMap_diagnostics_eq_nil_iff {book : RuleBook} {ps : List Passage} :
    ps.flatMap (diagnostics book) = [] ↔ ∀ p ∈ ps, p.left book = [] := by
  simp [diagnostics, Fragment.diagnostics]

end Passage

namespace Auxiliary

/-- The auxiliary sources in the order of a run. -/
def all : List Auxiliary :=
  errors :: SharedTest.all.map test

def source (g : Generator) : Auxiliary → Path
  | errors => g.settings.root.join g.settings.auxiliary.errorHierarchySource
  | test f => f.sourcePath g.settings.root g.settings.auxiliary

/-- The part of the source that is rendered. -/
def code : Auxiliary → String → Except Failure String
  | errors, contents => .ok (ErrorModules.definition contents)
  | test f, contents => (Ruleset.ofTable f.source f.filters).map (·.apply contents)

/-- What is rendered in a tree: nothing, if there is no source. -/
def passages (g : Generator) (t : FileTree) (a : Auxiliary) : List Passage :=
  if (t.node? (a.source g)).any Node.isFile then
    match t.read (a.source g) with
    | .error _ => []
    | .ok contents =>
      match a.code contents with
      | .error _ => []
      | .ok code => [⟨(a.source g).text, code⟩]
  else []

section Model

variable {m : Type → Type} [Monad m] [Workspace m]

/-- Renders an auxiliary source, if it is there. -/
def render (g : Generator) (report : Report) : Auxiliary → Job m Report
  | errors => g.renderErrorModules report
  | test f => g.renderSharedTest report f

end Model

variable {g : Generator} {t u : FileTree}

/-- The diagnostics are those of the part of the source that is rendered. -/
def Yields (g : Generator) (t : FileTree) (a : Auxiliary) (ds : List Diagnostic) : Prop :=
  ∃ contents code, t.read (a.source g) = .ok contents ∧ a.code contents = .ok code ∧
    ds = Passage.diagnostics g.renderer.book ⟨(a.source g).text, code⟩

theorem Yields.eq_flatMap {a : Auxiliary} {ds : List Diagnostic} (h : a.Yields g t ds)
    (there : (t.node? (a.source g)).any Node.isFile = true) :
    ds = (a.passages g t).flatMap (Passage.diagnostics g.renderer.book) := by
  obtain ⟨contents, code, read, cut, rfl⟩ := h
  have only : a.passages g t = [⟨(a.source g).text, code⟩] := by
    rw [passages, if_pos there, read]
    dsimp only
    rw [cut]
  rw [only, List.flatMap_singleton]

theorem passages_eq_nil {a : Auxiliary} (missing : (t.node? (a.source g)).any Node.isFile = false) :
    a.passages g t = [] :=
  if_neg (by simp [missing])

theorem returnsOn_errors (g : Generator) (t : FileTree) :
    ReturnsOn t (errors.Yields g t) (ErrorModules.generate g.renderer.book g.settings.root
      g.settings.auxiliary) := by
  refine .bind_read fun contents read => .of_returns ?_
  have yields : errors.Yields g t (Passage.diagnostics g.renderer.book
      ⟨(errors.source g).text, ErrorModules.definition contents⟩) :=
    ⟨contents, _, read, rfl, rfl⟩
  exact .bind .any fun _ _ => .bind .any fun _ _ => .bind .any fun _ _ => .pure yields

theorem returnsOn_test (g : Generator) (f : SharedTest) (t : FileTree) :
    ReturnsOn t (fun made => (test f).Yields g t made.2)
      (f.generate g.renderer.book g.settings.root g.settings.auxiliary) := by
  refine .bind_looking (does_note _ _ t) fun _ _ => .bind_looking
    (Acts.pure _ t) fun filters table => ?_
  refine .bind_read fun contents read => .of_returns ?_
  have cut : (test f).code contents = .ok (filters.apply contents) := by
    rw [code, table]
    rfl
  have yields : (test f).Yields g t (Passage.diagnostics g.renderer.book
      ⟨((test f).source g).text, filters.apply contents⟩) :=
    ⟨contents, _, read, cut, rfl⟩
  exact .bind .any fun _ _ => .bind .any fun _ _ => .bind .any fun _ _ => .pure yields

/-- Rendering an auxiliary source adds the diagnostics of what is rendered, and no failure comes of
them. -/
theorem returnsOn_render (a : Auxiliary) (g : Generator) (report : Report) (t : FileTree) :
    ReturnsOn t (fun report' => report'.diagnostics =
      report.diagnostics ++ (a.passages g t).flatMap (Passage.diagnostics g.renderer.book))
        (a.render g report) := by
  have absent (missing : (t.node? (a.source g)).any Node.isFile = false) : report.diagnostics =
      report.diagnostics ++ (a.passages g t).flatMap (Passage.diagnostics g.renderer.book) := by
    rw [passages_eq_nil missing, List.flatMap_nil, List.append_nil]
  cases a with
  | errors =>
    refine .bind_isFile (fun there => ?_) fun missing =>
      .of_returns (.bind .any fun _ _ => .pure (absent missing))
    refine .bind (returnsOn_errors g t) fun ds yields => .pure ?_
    exact congrArg (report.diagnostics ++ ·) (yields.eq_flatMap there)
  | test f =>
    refine .bind_isFile (fun there => ?_) fun missing =>
      .of_returns (.bind .any fun _ _ => .pure (absent missing))
    refine .bind (returnsOn_test g f t) fun made yields => .pure ?_
    exact congrArg (report.diagnostics ++ ·) (yields.eq_flatMap there)

theorem steady_render (a : Auxiliary) (g : Generator) (report : Report) :
    Steady (Touches fun _ => True) (a.render (m := StateM Session) g report).run := by
  have frame := isFrame_touches fun _ => True
  cases a with
  | errors => exact g.steady_renderErrorModules report fun _ _ => trivial
  | test f =>
    refine steady_bind frame (steady_isFile frame _) fun isFile => ?_
    cases isFile with
    | true =>
      exact steady_bind frame (f.steady_generate _ fun _ _ => trivial) fun _ => steady_pure frame _
    | false => exact steady_bind frame (steady_note frame _ _) fun _ => steady_pure frame _

/-- Auxiliary sources are rendered one after another, each in the tree that those before it left. -/
inductive Renders (g : Generator) : List Auxiliary → FileTree → List Passage → FileTree → Prop where
  | nil {t : FileTree} : Renders g [] t [] t
  | cons {a : Auxiliary} {as : List Auxiliary} {t u v : FileTree} {ps : List Passage}
      {report report' : Report} :
    Does (a.render g report) t (.ok report') u → Renders g as u ps v →
      Renders g (a :: as) t (a.passages g t ++ ps) v

/-- The induction is on the sources; what was reported before is kept general. -/
theorem exists_renders {as : List Auxiliary} {report report' : Report}
    (h : Does (as.foldlM (fun report a => a.render g report) report) t (.ok report') u) :
    ∃ ps, Renders g as t ps u ∧
      report'.diagnostics =
        report.diagnostics ++ ps.flatMap (Passage.diagnostics g.renderer.book) := by
  have frame := isFrame_touches fun _ => True
  induction as generalizing t report with
  | nil =>
    obtain ⟨same, rfl⟩ := Acts.unique h (Does.pure report t)
    obtain rfl := Except.ok.inj same
    exact ⟨[], .nil, (List.append_nil _).symm⟩
  | cons a as ih =>
    rw [List.foldlM_cons] at h
    obtain ⟨report₁, v, first, others⟩ := Does.exists_of_bind (a.steady_render g report)
      (steady_foldlM frame fun report b _ => b.steady_render g report) h
    have added := (returnsOn_render a g report t).of_does first
    obtain ⟨ps, renders, more⟩ := ih others
    refine ⟨a.passages g t ++ ps, .cons first renders, ?_⟩
    rw [more, added, List.flatMap_append, List.append_assoc]

end Auxiliary

namespace Generator

variable {g : Generator} {t u : FileTree} {report report' : Report}

open Auxiliary in
theorem exists_renders_of_makeAuxiliary (h : Does (g.makeAuxiliary report) t (.ok report') u) :
    ∃ ps v, Renders g Auxiliary.all t ps v ∧
      report'.diagnostics =
        report.diagnostics ++ ps.flatMap (Passage.diagnostics g.renderer.book) := by
  have frame := isFrame_touches fun _ => True
  have driver (r : Report) := g.steady_makeSyncDriver (P := fun _ => True) r fun _ _ => trivial
  have tests (r : Report) : Steady (Touches fun _ => True)
      (SharedTest.all.foldlM (g.renderSharedTest (m := StateM Session)) r).run :=
    steady_foldlM frame (fun r f _ => (Auxiliary.test f).steady_render g r) r
  obtain ⟨report₁, t₁, first, later⟩ := Does.exists_of_bind (errors.steady_render g report)
    (fun r => steady_bind frame (tests r) driver) h
  obtain ⟨report₂, t₂, tested, last⟩ := Does.exists_of_bind (tests report₁) driver later
  have added := (returnsOn_render errors g report t).of_does first
  have tested :
      Does ((SharedTest.all.map test).foldlM (fun report a => a.render g report) report₁) t₁
      (.ok report₂) t₂ := by
    rw [List.foldlM_map]
    exact tested
  obtain ⟨ps, renders, more⟩ := exists_renders tested
  refine ⟨errors.passages g t ++ ps, t₂, .cons first renders, ?_⟩
  rw [(ReturnsOn.of_returns (returns_makeSyncDriver report₂)).of_does last, more, added,
    List.flatMap_append, List.append_assoc]

theorem exists_of_wrapUp (h : Does (g.wrapUp report) t (.ok report') u) :
    ∃ v, Does (g.declareClasses report.classes) t (.ok ()) v ∧
      Does (if g.settings.auxiliary.enabled then g.makeAuxiliary report else pure report)
        v (.ok report') u := by
  have frame := isFrame_touches fun _ => True
  have noted (r : Report) : Steady (Touches fun _ => True)
      (note (m := StateM Session) .info ("Transpiled successfully: " ++ r.summary "classes") >>=
        fun _ => pure r).run :=
    steady_bind frame (steady_note frame _ _) fun _ => steady_pure frame r
  have made : Steady (Touches fun _ => True)
      (if g.settings.auxiliary.enabled then g.makeAuxiliary (m := StateM Session) report
        else pure report).run := by
    split
    · exact g.steady_makeAuxiliary report fun _ _ => trivial
    · exact steady_pure frame report
  obtain ⟨⟨⟩, v, declared, later⟩ := Does.exists_of_bind
    (g.steady_declareClasses (P := fun _ => True) report.classes trivial)
    (fun _ => steady_bind frame made noted) h
  obtain ⟨report₁, w, first, last⟩ := Does.exists_of_bind made noted later
  obtain ⟨same, rfl⟩ := Acts.unique last (Does.bind (does_note _ _ w) (.pure report₁ w))
  obtain rfl := Except.ok.inj same
  exact ⟨v, declared, first⟩

/-- Sweeping stale files notes nothing about nesting. -/
theorem nestings_of_sweep
    (h : Does (if g.settings.prune.enabled then g.sweepStale report else pure report) t
      (.ok report') u) :
    nestings report'.diagnostics = nestings report.diagnostics := by
  split at h
  · exact (ReturnsOn.of_returns (returns_sweepStale report)).of_does h
  · rw [Except.ok.inj (Acts.unique h (Does.pure report t)).1]

/-- What a run has rendered: the classes, and the passages of the auxiliary sources in the trees
that were left for them. -/
structure Rendered (g : Generator) (t : FileTree) (done : List Rendition) (t₁ t₂ : FileTree)
    (passages : List Passage) : Prop where
  folders : Does g.makeFolders t (.ok ()) t₁
  sources : Does g.settings.sources t₁ (.ok (done.map Rendition.source)) t₁
  batch : Batch g t₁ done t₂
  auxiliary : (done = [] ∨ g.settings.auxiliary.enabled = false) ∧ passages = [] ∨
    done ≠ [] ∧ g.settings.auxiliary.enabled = true ∧ ∃ mid behind t₃ t₄ t₅,
      Does (if g.settings.prune.enabled then g.sweepStale mid else pure mid) t₂ (.ok behind) t₃ ∧
      mid.classes = Rendition.roster done ∧ Does (g.declareClasses behind.classes) t₃ (.ok ()) t₄ ∧
      Auxiliary.Renders g Auxiliary.all t₄ passages t₅

theorem Batch.isConverted {done : List Rendition} (h : Batch g t done u)
    (strict : g.renderer.strict = true) (php : Target.php ∈ g.settings.activeTargets) :
    ∀ r ∈ done, g.renderer.IsConverted r.decl := by
  induction h with
  | nil => exact List.forall_mem_nil _
  | @cons t u v r done rendered saves rest ih =>
    refine List.forall_mem_cons.mpr ⟨?_, ih⟩
    rw [renderIn] at rendered
    split at rendered
    · cases rendered
    · exact (nestings_render strict rendered).2 php

/-- The nesting diagnostics of a strict run are those of the auxiliary passages. -/
theorem exists_rendered_of_run (strict : g.renderer.strict = true)
    (h : Does g.run t (.ok report) u) : ∃ done t₁ t₂ passages, Rendered g t done t₁ t₂ passages ∧
      nestings report.diagnostics = passages.flatMap (Passage.diagnostics g.renderer.book) := by
  obtain ⟨paths, mid, t₁, t₂, folders, listed, added, ended⟩ := exists_of_run h
  obtain ⟨done, rfl, batch, classes, -⟩ := exists_batch_of_foldlM added
  have empty := Report.isEmpty_of_classes classes
  have clean : nestings mid.diagnostics = [] := by
    refine (ReturnsOn.of_returns (.foldlM (Q := fun r => nestings r.diagnostics = []) rfl
      ?_)).of_does added
    intro r source none
    rw [← none]
    exact returns_addSource strict r source
  rcases ended with ⟨none, rfl, rfl⟩ | ⟨some, ended⟩
  · have none : done = [] := by simpa [empty] using none
    exact ⟨done, t₁, u, [], ⟨folders, listed, batch, .inl ⟨.inl none, rfl⟩⟩, clean⟩
  · have some : done ≠ [] := by simpa [empty] using some
    obtain ⟨behind, t₃, sweep, wrapped⟩ := exists_of_finish ended
    obtain ⟨t₄, declared, made⟩ := exists_of_wrapUp wrapped
    have swept := nestings_of_sweep sweep
    by_cases enabled : g.settings.auxiliary.enabled = true
    · rw [if_pos enabled] at made
      obtain ⟨ps, t₅, renders, more⟩ := exists_renders_of_makeAuxiliary made
      refine ⟨done, t₁, t₂, ps,
        ⟨folders, listed, batch, .inr ⟨some, enabled, mid, behind, t₃, t₄, t₅, sweep,
        classes, declared, renders⟩⟩, ?_⟩
      rw [more, nestings_append, swept, clean, List.nil_append, Passage.nestings_flatMap]
    · rw [if_neg enabled] at made
      obtain ⟨same, rfl⟩ := Acts.unique made (Does.pure behind t₄)
      obtain rfl := Except.ok.inj same
      exact ⟨done, t₁, t₂, [], ⟨folders, listed, batch, .inl ⟨.inr (by simpa using enabled), rfl⟩⟩,
        swept.trans clean⟩

/-- The generator of a strict configuration is strict. A run of a strict generator that succeeds has
rendered no class in whose PHP methods a collection literal is left. Its diagnostics about nesting
are those of the auxiliary passages, so there are none exactly if no literal is left in a
passage. -/
theorem run_strict (c : Settings) (strict : c.strictNesting = true) :
    (∀ t g u, Does (ofSettings c) t (.ok g) u → g.settings = c ∧ g.renderer.strict = true) ∧
    ∀ g : Generator, g.settings = c → g.renderer.strict = true →
      ∀ t report u, Does g.run t (.ok report) u → ∃ done t₁ t₂ passages,
        Rendered g t done t₁ t₂ passages ∧ (Target.php ∈ c.activeTargets → ∀ r ∈ done,
          g.renderer.IsConverted r.decl) ∧
        nestings report.diagnostics = passages.flatMap (Passage.diagnostics g.renderer.book) ∧
        (nestings report.diagnostics = [] ↔ ∀ p ∈ passages, p.left g.renderer.book = []) := by
  constructor
  · intro t g u made
    obtain ⟨settings, checks⟩ := (ReturnsOn.of_returns (returns_ofSettings c)).of_does made
    exact ⟨settings, checks.trans strict⟩
  · rintro g rfl checks t report u ran
    obtain ⟨done, t₁, t₂, passages, rendered, noted⟩ := exists_rendered_of_run checks ran
    refine ⟨done, t₁, t₂, passages, rendered, rendered.batch.isConverted checks, noted, ?_⟩
    rw [noted, Passage.flatMap_diagnostics_eq_nil_iff]

end Generator

/-! ### A literal that is left -/

namespace Auxiliary

variable {g : Generator} {t : FileTree} {f : SharedTest}

theorem does_render_missing (a : Auxiliary) (report : Report)
    (missing : (t.node? (a.source g)).any Node.isFile = false) :
    Does (a.render g report) t (.ok report) t := by
  have looked := does_lift (acts_isFile (a.source g) t)
  rw [missing] at looked
  cases a with
  | errors => exact looked.bind ((does_note _ _ t).bind (.pure report t))
  | test f => exact looked.bind ((does_note _ _ t).bind (.pure report t))

/-- The settings decide where sources are. -/
theorem source_ruleless (a : Auxiliary) (g : Generator) :
    a.source (.ruleless g.settings) = a.source g := by
  cases a <;> rfl

theorem passages_ruleless (a : Auxiliary) (g : Generator) (t : FileTree) :
    a.passages (.ruleless g.settings) t = a.passages g t := by
  rw [passages, source_ruleless, passages]

/-- What is rendered has been read and cut. -/
theorem exists_of_passages {a : Auxiliary} (full : a.passages g t ≠ []) :
    (t.node? (a.source g)).any Node.isFile = true ∧
      ∃ contents code, t.read (a.source g) = .ok contents ∧ a.code contents = .ok code := by
  unfold passages at full
  split at full
  · next there =>
    split at full
    · exact absurd rfl full
    · next contents read =>
      split at full
      · exact absurd rfl full
      · next code cut => exact ⟨there, contents, code, read, cut⟩
  · exact absurd rfl full

/-- A text can be written over a file that is there already. -/
theorem exists_writeOutput {p : Path} (there : (t.node? p).any Node.isFile = true) (s : String) :
    ∃ u, Does (SharedTest.writeOutput p s) t (.ok ()) u ∧ t.Resembles u := by
  obtain ⟨u, saved, alike⟩ := exists_save there s
  exact ⟨u, (does_note _ _ t).bind saved, alike⟩

/-- A shared test can be rendered over files that are there already. -/
theorem exists_generate {filters : Ruleset} {contents : String}
    (table : Ruleset.ofTable f.source f.filters = .ok filters)
    (read : t.read ((test f).source g) = .ok contents)
    (there : ∀ p ∈ f.outputs g.settings.root g.settings.auxiliary,
      (t.node? p).any Node.isFile = true) :
    ∃ made u,
      Does (f.generate g.renderer.book g.settings.root g.settings.auxiliary) t (.ok made) u ∧
      t.Resembles u := by
  have filtered : Does (Job.ofExcept (Ruleset.ofTable f.source f.filters)) t (.ok filters) t := by
    rw [table]
    exact .pure filters t
  have contained := does_read ((test f).source g) t
  rw [read] at contained
  obtain ⟨python, php⟩ := List.forall_mem_cons.mp there
  have php := List.forall_mem_singleton.mp php
  let rendered := Fragment.render g.renderer.book (filters.apply contents) false
  obtain ⟨u, first, alike⟩ := exists_writeOutput python (f.pythonText rendered.1.python2)
  obtain ⟨node, found, -⟩ := (Option.any_eq_true _ _).mp php
  obtain ⟨spot, leads, -⟩ := FileTree.node?_eq_some found
  obtain ⟨v, second, alike'⟩ :=
    exists_writeOutput ((alike.isFile leads).trans php) (f.phpText rendered.1.php)
  refine ⟨(f.outputs g.settings.root g.settings.auxiliary,
    Fragment.diagnostics ((test f).source g).text rendered.2), v, ?_, alike.trans alike'⟩
  refine (does_note _ _ t).bind (filtered.bind (contained.bind ((does_noteAll _ t).bind ?_)))
  exact first.bind (second.bind (.pure _ v))

theorem exists_render_test (report : Report) (full : (test f).passages g t ≠ [])
    (there : ∀ p ∈ f.outputs g.settings.root g.settings.auxiliary,
      (t.node? p).any Node.isFile = true) :
    ∃ report' u, Does ((test f).render g report) t (.ok report') u ∧ t.Resembles u := by
  obtain ⟨isFile, contents, code, read, cut⟩ := exists_of_passages full
  have looked := does_lift (acts_isFile ((test f).source g) t)
  rw [isFile] at looked
  obtain ⟨filters, table⟩ : ∃ filters, Ruleset.ofTable f.source f.filters = .ok filters := by
    cases table : Ruleset.ofTable f.source f.filters with
    | ok filters => exact ⟨filters, rfl⟩
    | error e =>
      rw [Auxiliary.code, table] at cut
      cases cut
  obtain ⟨made, u, generated, alike⟩ := exists_generate table read there
  exact ⟨_, u, looked.bind (generated.bind (.pure _ u)), alike⟩

theorem does_foldlM_missing {fs : List SharedTest} (report : Report)
    (missing : ∀ f ∈ fs, (t.node? ((test f).source g)).any Node.isFile = false) :
    Does (fs.foldlM g.renderSharedTest report) t (.ok report) t := by
  induction fs with
  | nil => exact .pure report t
  | cons f fs ih =>
    obtain ⟨first, others⟩ := List.forall_mem_cons.mp missing
    exact ((test f).does_render_missing report first).bind (ih others)

/-- If the last shared test is all that there is to render, its outputs being files already, the
auxiliary files are made. -/
theorem exists_makeAuxiliary {fs : List SharedTest} (last : SharedTest.all = fs ++ [f])
    (report : Report) (errors : (t.node? (errors.source g)).any Node.isFile = false)
    (missing : ∀ f ∈ fs, (t.node? ((test f).source g)).any Node.isFile = false)
    (full : (test f).passages g t ≠ [])
    (there : ∀ p ∈ f.outputs g.settings.root g.settings.auxiliary,
      (t.node? p).any Node.isFile = true) {spot : Spot}
    (leads : t.locate (g.settings.resolve g.settings.auxiliary.asyncTestDriver) = .ok spot)
    (driver : (t.node? (g.settings.resolve g.settings.auxiliary.asyncTestDriver)).any
      Node.isFile = false) :
    ∃ report' u, Does (g.makeAuxiliary report) t (.ok report') u ∧ report'.diagnostics =
      report.diagnostics ++
        ((test f).passages g t).flatMap (Passage.diagnostics g.renderer.book) := by
  obtain ⟨report', u, rendered, alike⟩ := exists_render_test report full there
  have looked := does_lift (acts_isFile (g.settings.resolve g.settings.auxiliary.asyncTestDriver) u)
  rw [alike.isFile leads, driver] at looked
  have tests : Does (SharedTest.all.foldlM g.renderSharedTest report) t (.ok report') u := by
    rw [last, List.foldlM_append]
    exact (does_foldlM_missing report missing).bind (rendered.bind (.pure report' u))
  refine ⟨report', u, ?_, (returnsOn_render (test f) g report t).of_does rendered⟩
  refine (Auxiliary.errors.does_render_missing report errors).bind (tests.bind ?_)
  exact looked.bind ((does_note _ _ u).bind (.pure report' u))

end Auxiliary

namespace Generator

/-- A strict configuration that reaches one level of nesting. -/
def strictPhp : Settings where
  targets := ⟨false, false, true⟩
  nestingPasses := 1
  strictNesting := true

theorem validate_strictPhp : strictPhp.validate = .ok () :=
  eq_ok_of_toOption (by decide +kernel)

/-- A class, and a shared test with a list of two levels that has been rendered before. -/
def deepTest : FileTree :=
  ⟨[(["js"], .directory), (["js", "foo.js"],
      .file (.text
        "module.exports = class foo extends Bar \x7b\n    m () \x7b\n    \x7d\n\x7d;\n")),
    (["js", "test"], .directory), (["js", "test", "base"], .directory),
    (["js", "test", "base", "functions"], .directory),
    (["js", "test", "base", "functions", "test.crypto.js"], .file (.text "a = [ [ 1 ] ]\n")),
    (["python"], .directory), (["python", "test"], .directory),
    (["python", "test", "test_crypto.py"], .file (.text "")), (["php"], .directory),
      (["php", "test"], .directory),
    (["php", "test", "test_crypto.php"], .file (.text ""))]⟩

/-- What there is to render when the classes of a tree are done: one shared test, over files that
are there. -/
def onlyCrypto (c : Settings) (report : Report) (t : FileTree) : Bool :=
  nestings report.diagnostics == [] &&
  [.errors, .test .number, .test .datetime].all (fun a : Auxiliary =>
    !(t.node? (a.source (ruleless c))).any Node.isFile) &&
  Auxiliary.passages (ruleless c) t (.test .crypto) ==
    [⟨"./js/test/base/functions/test.crypto.js", "a = [ [ 1 ] ]\n"⟩] &&
  (SharedTest.crypto.outputs c.root c.auxiliary).all (fun p => (t.node? p).any Node.isFile) &&
  (t.locate (c.resolve c.auxiliary.asyncTestDriver)).toOption.isSome &&
  !(t.node? (c.resolve c.auxiliary.asyncTestDriver)).any Node.isFile

theorem exists_furnish {g : Generator} {t : FileTree} {behind : Report}
    (enabled : g.settings.auxiliary.enabled = true) (h : onlyCrypto g.settings behind t = true) :
    ∃ report u, Does (g.furnish behind) t (.ok report) u ∧ nestings report.diagnostics =
      Passage.diagnostics g.renderer.book ⟨"./js/test/base/functions/test.crypto.js",
        "a = [ [ 1 ] ]\n"⟩ := by
  simp only [onlyCrypto, Bool.and_eq_true, beq_iff_eq, List.all_cons, List.all_nil,
    Bool.not_eq_true', and_true, Auxiliary.source_ruleless, Auxiliary.passages_ruleless] at h
  obtain ⟨⟨⟨⟨⟨clean, errors, number, datetime⟩, passages⟩, there⟩, located⟩, driver⟩ := h
  obtain ⟨spot, leads⟩ := Option.isSome_iff_exists.mp located
  have missing : ∀ f ∈ [SharedTest.number, .datetime],
      (t.node? ((Auxiliary.test f).source g)).any Node.isFile = false :=
    List.forall_mem_cons.mpr ⟨number, List.forall_mem_singleton.mpr datetime⟩
  have full : (Auxiliary.test .crypto).passages g t ≠ [] := by
    rw [passages]
    exact List.cons_ne_nil _ _
  obtain ⟨report, u, made, added⟩ := Auxiliary.exists_makeAuxiliary rfl behind errors missing full
    (List.all_eq_true.mp there) (eq_ok_of_toOption leads) driver
  refine ⟨report, u, ?_, ?_⟩
  · rw [furnish, if_pos enabled]
    exact made
  · rw [added, nestings_append, clean, passages, Passage.nestings_flatMap,
      List.flatMap_singleton, List.nil_append]

theorem exists_run_deepTest :
    ∃ g, Does (ofSettings strictPhp) deepTest (.ok g) deepTest ∧ g.settings = strictPhp ∧
    g.renderer.strict = true ∧ ∃ report u, Does g.run deepTest (.ok report) u ∧
      nestings report.diagnostics = [⟨.nestingExceeded "a = array ( [ 1 ) ]",
        some "./js/test/base/functions/test.crypto.js"⟩] := by
  obtain ⟨g, made, settings, strict, book, done, t₁, t₂, behind, t₃, -, -, -, checked, runs⟩ :=
    exists_settle_of_dryRun validate_strictPhp rfl (by decide)
      (show dryRun strictPhp deepTest (fun _ report t => onlyCrypto strictPhp report t) =
        true by decide +kernel)
  rw [← settings] at checked
  obtain ⟨report, u, furnished, noted⟩ := exists_furnish (by rw [settings]; rfl) checked
  refine ⟨g, made, settings, strict, report, u, runs report u furnished, noted.trans ?_⟩
  have unbound : ClassDecl.boundNames [] "a = [ [ 1 ] ]\n".toList = [] := by decide +kernel
  have left : Passage.left g.renderer.book ⟨"./js/test/base/functions/test.crypto.js",
    "a = [ [ 1 ] ]\n"⟩ =
      ["a = array ( [ 1 ) ]"] := by
    change (Render.Php.phpText g.renderer.book _ (ClassDecl.boundNames [] _)).2 = _
    rw [unbound]
    exact Render.Php.overflows_pair book
  rw [Passage.diagnostics, left]
  rfl

theorem run_strict_deepTest :
    strictPhp.strictNesting = true ∧ ∃ g, Does (ofSettings strictPhp) deepTest (.ok g) deepTest ∧
      ∃ report u, Does g.run deepTest (.ok report) u ∧
        ∃ done t₁ t₂ passages, Rendered g deepTest done t₁ t₂ passages ∧
          (∀ r ∈ done, g.renderer.IsConverted r.decl) ∧
          ¬∀ p ∈ passages, p.left g.renderer.book = [] := by
  obtain ⟨g, made, -, -, report, u, ran, noted⟩ := exists_run_deepTest
  obtain ⟨checks, runs⟩ := run_strict strictPhp rfl
  obtain ⟨settings, strict⟩ := checks deepTest g deepTest made
  obtain ⟨done, t₁, t₂, passages, rendered, converted, -, clean⟩ :=
    runs g settings strict deepTest report u ran
  refine ⟨rfl, g, made, report, u, ran, done, t₁, t₂, passages, rendered,
    converted (by decide), fun none => ?_⟩
  rw [clean.mpr none] at noted
  cases noted

/-- A strict run succeeds although a collection literal is left in a shared test. -/
theorem run_strict_leaves_literal :
    ∃ g, Does (ofSettings strictPhp) deepTest (.ok g) deepTest ∧ g.renderer.strict = true ∧
      ∃ report u, Does g.run deepTest (.ok report) u ∧
        nestings report.diagnostics = [⟨.nestingExceeded "a = array ( [ 1 ) ]",
          some "./js/test/base/functions/test.crypto.js"⟩] := by
  obtain ⟨g, made, -, strict, report, u, ran, noted⟩ := exists_run_deepTest
  exact ⟨g, made, strict, report, u, ran, noted⟩

end Generator

end Polyglot
