import Polyglot.Proofs.Failures
import Polyglot.Proofs.Literals

/-!
Classes whose methods are empty. No rule of a book matches where nothing is written, so the
generators of all configurations make the same PHP text of such a class, and it is the text that a
generator without rules makes of it (`Generator.render_of_isHollow`).
-/

namespace Polyglot

open Job

/-- No method has a body or binds a variable. -/
def ClassDecl.isHollow (c : ClassDecl) : Bool :=
  c.methods.all fun m => m.body = "" && m.bindings = []

/-! ### Texts -/

namespace RuleBook

def IsRegular (b : RuleBook) : Prop :=
  ∀ c ∈ b.rulesets, c.IsRegular

theorem isRegular_of_make {glossary : Name.Glossary} {hierarchy : Hierarchy} {passes : Nat}
    {book : RuleBook} (made : make glossary hierarchy passes = .ok book) : book.IsRegular := by
  have some : passes ≠ 0 := by
    rintro rfl
    cases made
  obtain ⟨book', made', -, regular⟩ := exists_make glossary hierarchy some
  exact Except.ok.inj (made'.symm.trans made) ▸ regular

/-- A book without rules. -/
def blank : RuleBook :=
  ⟨⟨"", []⟩, ⟨"", []⟩, ⟨"", []⟩, ⟨"", []⟩, ⟨"", []⟩, ⟨"", []⟩, 1⟩

theorem isRegular_blank : blank.IsRegular := by
  intro c mem rule listed
  simp only [blank, rulesets, List.mem_cons, List.not_mem_nil, or_false, or_self] at mem
  rw [mem] at listed
  cases listed

end RuleBook

theorem Render.Php.phpText_empty {book : RuleBook} (regular : book.IsRegular) :
    phpText book "" [] = ("", []) := by
  have php : book.php.IsRegular := regular _ (by simp [RuleBook.rulesets])
  have restore : book.phpRestore.IsRegular := regular _ (by simp [RuleBook.rulesets])
  have collections : book.collections.IsRegular := regular _ (by simp [RuleBook.rulesets])
  have sigiled : sigiled book "" [] = [] := by
    change (Ruleset.sigils []).applyChars (book.php.applyChars []) = []
    rw [php.applyChars_nil]
    rfl
  have none : overflows book [] = [] := by
    refine overflows_eq_nil_iff.mpr fun rule mem => ?_
    rw [Rule.isMatch, Pattern.isMatch, Pattern.findAll,
      Pattern.scan_nil (collections rule mem).solid]
    rfl
  rw [phpText, sigiled, restore.applyChars_nil, none]

namespace Renderer

variable {r r' : Renderer}

/-- The PHP text of a class whose methods are empty. -/
def hollowText (c : ClassDecl) : String :=
  let methods := c.methods.map fun m => ⟨m.name, Render.Php.signature m, ""⟩
  Render.Php.classFile c.name c.baseClass
    (String.ofList (phpCalls.renameCalls c.methodNames (Render.Php.methodBlocks methods).toList))

theorem method_of_isEmpty (regular : r.book.IsRegular) (className : String) {m : Method}
    (body : m.body = "") (bindings : m.bindings = []) : r.method .php className m =
      ([.rendering m.name .php], ⟨m.name, Render.Php.signature m, ""⟩) := by
  have text : r.body .php className m = ("", []) := by
    refine (if_neg (by decide)).trans ?_
    rw [body, bindings]
    exact Render.Php.phpText_empty regular
  rw [Renderer.method, text]
  rfl

theorem targetText_of_isHollow (regular : r.book.IsRegular) {c : ClassDecl}
    (hollow : c.isHollow = true) :
    r.targetText c .php = (c.methods.map fun m => .rendering m.name .php, hollowText c) := by
  have methods : c.methods.map (r.method .php c.name) =
      c.methods.map fun m => ([.rendering m.name .php], ⟨m.name, Render.Php.signature m, ""⟩) := by
    refine List.map_congr_left fun m mem => ?_
    have empty := List.all_eq_true.mp hollow m mem
    simp only [Bool.and_eq_true, decide_eq_true_eq] at empty
    exact method_of_isEmpty regular c.name empty.1 empty.2
  have findings : ((c.methods.map fun m => ([Finding.rendering m.name .php],
      MethodText.mk m.name (Render.Php.signature m) "")).flatMap Prod.fst) =
        c.methods.map fun m => .rendering m.name .php := by
    rw [List.flatMap_map, List.map_eq_flatMap]
  rw [targetText, methods, findings, classFindings, if_neg (by decide), classText,
    if_neg (by decide), List.append_nil, List.map_map]
  rfl

/-- What is rendered is all the same to strict and lenient renderers. -/
theorem absorbAll_renderings (r r' : Renderer) (className : String) (context : Transcript)
    (methods : List Method) :
    r.absorbAll className context (methods.map fun m => .rendering m.name .php) =
      r'.absorbAll className context (methods.map fun m => .rendering m.name .php) := by
  induction methods generalizing context with
  | nil => rfl
  | cons m methods ih => exact ih _

theorem classTexts_of_isHollow (regular : r.book.IsRegular)
    (regular' : r'.book.IsRegular) {c : ClassDecl} (hollow : c.isHollow = true)
    (context : Transcript) :
    r.classTexts [.php] c context = r'.classTexts [.php] c context := by
  simp only [classTexts, List.map_cons, List.map_nil, List.flatMap_cons,
    List.flatMap_nil, List.append_nil, targetText_of_isHollow regular hollow,
    targetText_of_isHollow regular' hollow,
    absorbAll_renderings r r' c.name context c.methods]

end Renderer

namespace Generator

/-- A generator that has no rules. -/
def ruleless (c : Settings) : Generator :=
  ⟨c, ⟨.blank, ⟨[]⟩, false⟩⟩

/-- The generator of a valid configuration that names no hierarchy of its own. -/
theorem exists_ofSettings {c : Settings} (valid : c.validate = .ok ())
    (builtin : c.errorHierarchyJson = none) :
    ∃ g, (∀ t, Does (ofSettings c) t (.ok g) t) ∧ g.settings = c ∧ g.renderer.strict =
      c.strictNesting ∧ RuleBook.make (.ofNames Name.standard) .builtin c.nestingPasses =
        .ok g.renderer.book := by
  obtain ⟨book, made, -⟩ :=
    RuleBook.exists_make (.ofNames Name.standard) .builtin (nestingPasses_of_validate valid)
  refine ⟨⟨c, ⟨book, .builtin, c.strictNesting⟩⟩,
    fun t => does_ofSettings valid ?_ made, rfl, rfl, made⟩
  unfold readHierarchy
  rw [builtin]
  exact .pure _ t

variable {g : Generator}

/-- Without rules a text is refused only if it is no class, and then every generator refuses it. -/
theorem render_of_error {file contents : String} {e : Failure}
    (h : ((ruleless g.settings).render file contents).1 = .error e) :
    (g.render file contents).1 = .error e := by
  unfold render at h ⊢
  cases read : ClassDecl.ofSource file contents with
  | error failure =>
    rw [read] at h
    exact h
  | ok c =>
    obtain ⟨r, rendered⟩ := (render_eq_ok_iff (ruleless g.settings) file contents).mpr
      ⟨c, read, fun strict => (Bool.false_ne_true strict).elim⟩
    unfold render at rendered
    rw [rendered] at h
    cases h

/-- Where only PHP is asked for, rules play no part in what becomes of a hollow class. -/
theorem render_of_isHollow (regular : g.renderer.book.IsRegular)
    (php : g.settings.activeTargets = [.php]) {file contents : String} {r : Rendition}
    (h : ((ruleless g.settings).render file contents).1 = .ok r)
    (hollow : r.decl.isHollow = true) : (g.render file contents).1 = .ok r := by
  have targets : (ruleless g.settings).settings.activeTargets = [.php] := php
  have blank : (ruleless g.settings).renderer.book.IsRegular := RuleBook.isRegular_blank
  unfold render at h ⊢
  rw [targets] at h
  rw [php]
  cases read : ClassDecl.ofSource file contents with
  | error failure =>
    rw [read] at h
    cases h
  | ok c =>
    rw [read] at h
    have named : r.decl = c := by
      dsimp only at h
      split at h
      · cases h
      · rw [← Except.ok.inj h]
    rw [named] at hollow
    dsimp only at h ⊢
    rw [Renderer.classTexts_of_isHollow regular blank hollow]
    exact h

end Generator

end Polyglot
