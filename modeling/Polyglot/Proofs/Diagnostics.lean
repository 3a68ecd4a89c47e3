import Polyglot.Proofs.NumberLists

/-!
The diagnostics of a class. One transcript goes through all methods of all targets, and a finding is
recorded only if nothing of its kind has been recorded before, by whatever target. So the record
depends on the order of the targets, but the set of its kinds does not: it is the union of what the
targets record when each is rendered alone (`classTexts_kinds`).
-/

namespace Polyglot

namespace Diagnostic

theorem Kind.same_self (k : Kind) : k.same k = true := by
  cases k <;> simp [Kind.same, Path.same]

/-- Kinds that carry no path are the same only if they are equal. -/
def Kind.IsNamed (k : Kind) : Prop :=
  ∀ other : Kind, other.same k = true → other = k

theorem Kind.isNamed_of_ne {k : Kind} (pathless : ∀ p, k ≠ .staleArtifact p) : k.IsNamed := by
  intro other same
  cases k with
  | staleArtifact p => exact absurd rfl (pathless p)
  | missingEntry _ | nestingExceeded _ => cases other <;> simp_all [Kind.same]

def kinds (ds : List Diagnostic) : List Kind :=
  ds.map kind

/-- Diagnostics about one file, no two of them of the same kind. -/
structure IsRecord (file : String) (ds : List Diagnostic) : Prop where
  apart : ds.Pairwise fun d e => d.kind.same e.kind = false
  placed : ∀ d ∈ ds, d.file = some file

/-- Reports kinds one after another. -/
def reportAll (file : String) (ks : List Kind) (ds : List Diagnostic) : List Diagnostic :=
  ks.foldl (fun ds k => (report file k ds).2) ds

section Report

variable {file : String} {ds : List Diagnostic}

theorem isRecord_nil (file : String) : IsRecord file [] :=
  ⟨.nil, List.forall_mem_nil _⟩

theorem IsRecord.report (h : IsRecord file ds) (k : Kind) : IsRecord file (report file k ds).2 := by
  unfold Diagnostic.report
  split
  · exact h
  · next fresh =>
    have fresh : ∀ d ∈ ds, d.kind.same k = false := by simpa using fresh
    constructor
    · refine List.pairwise_append.mpr ⟨h.apart, List.pairwise_singleton _ _, fun d hd e he => ?_⟩
      rw [List.mem_singleton.mp he]
      exact fresh d hd
    · intro d hd
      rcases List.mem_append.mp hd with old | new
      · exact h.placed d old
      · rw [List.mem_singleton.mp new]

theorem IsRecord.reportAll (h : IsRecord file ds) (ks : List Kind) :
    IsRecord file (reportAll file ks ds) := by
  induction ks generalizing ds with
  | nil => exact h
  | cons k ks ih => exact ih (h.report k)

/-- What is reported is on record afterwards, if it was not before. -/
theorem mem_kinds_report {k : Kind} (named : k.IsNamed) (k' : Kind) :
    k' ∈ kinds (report file k ds).2 ↔ k' ∈ kinds ds ∨ k' = k := by
  unfold report
  split
  · next there =>
    obtain ⟨d, hd, same⟩ := List.any_eq_true.mp there
    have listed : k ∈ kinds ds := List.mem_map.mpr ⟨d, hd, named d.kind same⟩
    exact ⟨.inl, fun h => h.elim id fun same => same ▸ listed⟩
  · simp [kinds]

theorem mem_kinds_reportAll {ks : List Kind} (named : ∀ k ∈ ks, k.IsNamed) (k' : Kind) :
    k' ∈ kinds (reportAll file ks ds) ↔ k' ∈ kinds ds ∨ k' ∈ ks := by
  induction ks generalizing ds with
  | nil => simp [reportAll]
  | cons k ks ih =>
    obtain ⟨first, others⟩ := List.forall_mem_cons.mp named
    change k' ∈ kinds (reportAll file ks (report file k ds).2) ↔ _
    rw [ih others, mem_kinds_report first, or_assoc, List.mem_cons]

theorem IsRecord.ne (h : IsRecord file ds) : ds.Pairwise fun d e => d.kind ≠ e.kind := by
  refine h.apart.imp fun {d e} other same => ?_
  rw [same, Kind.same_self] at other
  cases other

/-- A record holds a diagnostic exactly if it is about the file and its kind is listed. -/
theorem IsRecord.mem_iff (h : IsRecord file ds) (d : Diagnostic) :
    d ∈ ds ↔ d.file = some file ∧ d.kind ∈ kinds ds := by
  constructor
  · exact fun mem => ⟨h.placed d mem, List.mem_map_of_mem mem⟩
  · rintro ⟨placed, listed⟩
    obtain ⟨e, he, same⟩ := List.mem_map.mp listed
    have whole : e = d := by
      obtain ⟨kind, place⟩ := d
      obtain ⟨kind', place'⟩ := e
      obtain rfl : kind' = kind := same
      have here : place' = some file := h.placed _ he
      rw [here, ← placed]
    exact whole ▸ he

/-- Records of the same kinds differ at most in their order. -/
theorem IsRecord.perm {es : List Diagnostic} (h : IsRecord file ds) (h' : IsRecord file es)
    (same : ∀ k, k ∈ kinds ds ↔ k ∈ kinds es) : ds.Perm es := by
  have nodup {ds : List Diagnostic} (h : IsRecord file ds) : ds.Nodup :=
    h.ne.imp fun other same => other (congrArg kind same)
  refine (List.perm_ext_iff_of_nodup (nodup h) (nodup h')).mpr fun d => ?_
  rw [h.mem_iff, h'.mem_iff, same]

end Report

end Diagnostic

open Diagnostic

/-- The kind of diagnostic that a finding is recorded as, if any. -/
def Finding.kind? : Finding → Option Diagnostic.Kind
  | .rendering _ _ => none
  | .overflow _ line => some (.nestingExceeded line)
  | .missing name => some (.missingEntry name)

theorem Finding.isNamed_of_kind? {f : Finding} {k : Diagnostic.Kind} (h : f.kind? = some k) :
    k.IsNamed := by
  cases f with
  | rendering method target => cases h
  | overflow _ _ | missing _ =>
    obtain rfl := Option.some.inj h
    exact Kind.isNamed_of_ne nofun

namespace Renderer

variable {r : Renderer}

/-- A finding reports its kind about the file of the transcript, and does nothing else to the
record. -/
theorem absorb_lenient (lenient : r.strict = false) (className : String)
    (c : Transcript) (f : Finding) : (r.absorb className c f).1.file = c.file ∧
      (r.absorb className c f).1.diagnostics = reportAll c.file f.kind?.toList c.diagnostics := by
  cases f with
  | rendering method target => exact ⟨rfl, rfl⟩
  | overflow method line =>
    simp only [absorb, lenient, Bool.false_eq_true, ↓reduceIte]
    exact ⟨rfl, rfl⟩
  | missing name =>
    have reported : (c.report (.missingEntry name)).2.file = c.file ∧
      (c.report (.missingEntry name)).2.diagnostics =
        reportAll c.file [.missingEntry name] c.diagnostics := ⟨rfl, rfl⟩
    unfold absorb
    dsimp only
    split
    · next added =>
      rw [added] at reported
      exact reported
    · next added =>
      rw [added] at reported
      exact reported

theorem absorbAll_lenient (lenient : r.strict = false) (className : String) (c : Transcript)
    (findings : List Finding) :
    (r.absorbAll className c findings).1.diagnostics =
      reportAll c.file (findings.filterMap Finding.kind?) c.diagnostics := by
  induction findings generalizing c with
  | nil => rfl
  | cons f rest ih =>
    obtain ⟨file, first⟩ := absorb_lenient lenient className c f
    have goes : (r.absorb className c f).2 = none :=
      (absorb_eq_none_iff r className c f).mpr fun strict => by rw [lenient] at strict; cases strict
    have split :
        (f :: rest).filterMap Finding.kind? = f.kind?.toList ++ rest.filterMap Finding.kind? := by
      cases h : f.kind? <;> simp [h]
    unfold absorbAll
    split
    · next c' absorbed =>
      rw [absorbed] at file first
      rw [ih c', file, first, split, reportAll, reportAll, reportAll, List.foldl_append]
    · next c' e absorbed =>
      rw [absorbed] at goes
      cases goes

/-- The kinds of all findings about a class in a target, in the order in which they arise. -/
def kindsFor (r : Renderer) (c : ClassDecl) (target : Target) : List Diagnostic.Kind :=
  (r.targetText c target).1.filterMap Finding.kind?

/-- What is on record when a class has been rendered in a fresh transcript. -/
def record (r : Renderer) (targets : List Target) (c : ClassDecl) (file : String) :
    List Diagnostic :=
  (r.classTexts targets c { file := file }).2.diagnostics

theorem record_eq (lenient : r.strict = false) (targets : List Target) (c : ClassDecl)
    (file : String) :
    r.record targets c file = reportAll file (targets.flatMap (r.kindsFor c)) [] := by
  have kinds :
      ((targets.map fun target => (target, r.targetText c target)).flatMap fun t => t.2.1).filterMap
      Finding.kind? = targets.flatMap (r.kindsFor c) := by
    rw [List.flatMap_map, List.filterMap_flatMap]
    rfl
  have absorbed := absorbAll_lenient lenient c.name { file := file }
    ((targets.map fun target => (target, r.targetText c target)).flatMap fun t => t.2.1)
  rw [kinds] at absorbed
  unfold record classTexts
  dsimp only
  split
  · next whole => rw [whole] at absorbed; exact absorbed
  · next whole => rw [whole] at absorbed; exact absorbed

theorem isRecord_record (lenient : r.strict = false) (targets : List Target) (c : ClassDecl)
    (file : String) : IsRecord file (r.record targets c file) := by
  rw [record_eq lenient]
  exact (isRecord_nil file).reportAll _

theorem mem_kinds_record (lenient : r.strict = false) (targets : List Target)
    (c : ClassDecl) (file : String) (k : Diagnostic.Kind) :
    k ∈ kinds (r.record targets c file) ↔ ∃ target ∈ targets, k ∈ r.kindsFor c target := by
  have named : ∀ k ∈ targets.flatMap (r.kindsFor c), k.IsNamed := by
    intro k mem
    obtain ⟨target, -, mem⟩ := List.mem_flatMap.mp mem
    obtain ⟨f, -, kind⟩ := List.mem_filterMap.mp mem
    exact Finding.isNamed_of_kind? kind
  rw [record_eq lenient, mem_kinds_reportAll named, List.mem_flatMap]
  simp [kinds]

/-- A class that is rendered leniently in any targets has all its texts. The diagnostics then on
record are of different kinds and about the file that was given. A kind is among them exactly if one
of the targets records it when rendered alone, so the order of the targets and repetitions change
nothing but the order of the record. -/
theorem classTexts_kinds (r : Renderer) (lenient : r.strict = false) (c : ClassDecl)
    (targets : List Target) (file : String) :
    (∃ texts, (r.classTexts targets c { file := file }).1 = .ok texts) ∧
    (r.record targets c file).Pairwise (fun d e => d.kind ≠ e.kind ∧ d.kind.same e.kind = false) ∧
    (∀ d ∈ r.record targets c file, d.file = some file) ∧
    (∀ k, k ∈ kinds (r.record targets c file) ↔ ∃ target ∈ targets,
      k ∈ kinds (r.record [target] c file)) ∧
    ∀ targets' : List Target, (∀ target, target ∈ targets' ↔ target ∈ targets) →
      (r.record targets' c file).Perm (r.record targets c file) := by
  have recorded := isRecord_record lenient targets c file
  refine ⟨?_, recorded.ne.and recorded.apart, recorded.placed, fun k => ?_, fun targets' same => ?_⟩
  · exact (classTexts_eq_ok_iff r targets c _).mpr fun strict => by
      rw [lenient] at strict; cases strict
  · simp only [mem_kinds_record lenient, List.mem_singleton, exists_eq_left]
  · refine (isRecord_record lenient targets' c file).perm recorded fun k => ?_
    simp only [mem_kinds_record lenient, same]

/-- What is recorded of a class in PHP are the lines of its methods that nest too deeply. -/
theorem kindsFor_php (r : Renderer) (c : ClassDecl) : r.kindsFor c .php =
    c.methods.flatMap fun m =>
      (Render.Php.phpText r.book m.body m.bindings).2.map .nestingExceeded := by
  have found (m : Method) : (r.method .php c.name m).1.filterMap Finding.kind? =
      (Render.Php.phpText r.book m.body m.bindings).2.map .nestingExceeded := by
    change (List.map (Finding.overflow m.name) _).filterMap Finding.kind? = _
    rw [List.filterMap_map]
    exact congrFun List.filterMap_eq_map _
  unfold kindsFor targetText
  dsimp only
  rw [show r.classFindings .php _ = [] from if_neg (by decide), List.append_nil, List.flatMap_map,
    List.filterMap_flatMap]
  exact congrArg (c.methods.flatMap ·) (funext found)

/-- Two methods with the same list, which is nested too deeply for one pass. -/
def deepLists : ClassDecl where
  name := "foo"
  baseClass := "Exchange"
  methods :=
    [⟨"sign", false, [], "a = [ [ 1 ] ]\n", []⟩, ⟨"send", false, [], "a = [ [ 1 ] ]\n", []⟩]

theorem classTexts_kinds_deepLists :
    ∃ g, (∀ t, Job.Does (Generator.ofSettings { nestingPasses := 1 }) t (.ok g) t) ∧
      g.renderer.strict = false ∧
    g.renderer.record [.php, .php] deepLists "foo.js" =
      [⟨.nestingExceeded "a = array ( [ 1 ) ]", some "foo.js"⟩] ∧
    (g.renderer.record [.python2, .php] deepLists "foo.js").Perm
      (g.renderer.record [.php, .python2, .php] deepLists "foo.js") := by
  obtain ⟨g, made, -, lenient, book⟩ := Generator.exists_ofSettings (c := { nestingPasses := 1 })
    (by decide +kernel) rfl
  have recorded : g.renderer.record [.php, .php] deepLists "foo.js" =
      [⟨.nestingExceeded "a = array ( [ 1 ) ]", some "foo.js"⟩] := by
    rw [record_eq lenient, List.flatMap_cons, List.flatMap_singleton, kindsFor_php, deepLists]
    simp only [List.flatMap_cons, List.flatMap_nil, Render.Php.overflows_pair book]
    decide +kernel
  obtain ⟨-, -, -, -, alike⟩ :=
    classTexts_kinds g.renderer lenient deepLists [.php, .python2, .php] "foo.js"
  exact ⟨g, made, lenient, recorded,
    alike [.python2, .php] fun target => by cases target <;> decide⟩

end Renderer

end Polyglot
