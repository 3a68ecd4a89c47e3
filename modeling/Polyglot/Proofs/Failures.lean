import Polyglot.Generator.Basic
import Polyglot.Proofs.Books
import Polyglot.Proofs.Jobs

/-!
What can go wrong on the way to the artifacts of a class. A valid configuration whose hierarchy can
be read has a generator, since no name can spoil a rule. On a class the generator fails in two ways
only, and both name the file: the text is no class, or nesting is checked strictly and a collection
literal is left in a PHP method.
-/

namespace Polyglot

open Job

/-! ### Findings -/

namespace Renderer

variable (r : Renderer) (className : String)

theorem absorb_eq_none_iff (c : Transcript) (f : Finding) :
    (r.absorb className c f).2 = none ↔
    (r.strict = true → ∀ method line, f ≠ .overflow method line) := by
  cases f with
  | rendering method target => simp [absorb]
  | overflow method line =>
    unfold absorb
    by_cases strict : r.strict = true
    · simp [strict]
    · simp [strict]
  | missing name =>
    have answer : (r.absorb className c (.missing name)).2 = none := by
      unfold absorb
      dsimp only
      split <;> rfl
    simp [answer]

theorem exists_render_of_absorb {c : Transcript} {f : Finding} {e : Failure}
    (h : (r.absorb className c f).2 = some e) :
    ∃ message context, e = .render message context none := by
  cases f with
  | rendering method target => cases h
  | overflow method line =>
    unfold absorb at h
    dsimp only at h
    split at h
    · cases h
      exact ⟨_, _, rfl⟩
    · cases h
  | missing name =>
    unfold absorb at h
    dsimp only at h
    split at h <;> cases h

/-- Findings are taken in without a failure, unless nesting is checked and one of them is an
overflow. -/
theorem absorbAll_eq_none_iff (c : Transcript) (findings : List Finding) :
    (r.absorbAll className c findings).2 = none ↔
      (r.strict = true → ∀ method line, Finding.overflow method line ∉ findings) := by
  induction findings generalizing c with
  | nil => simp [absorbAll]
  | cons f rest ih =>
    have first := absorb_eq_none_iff r className c f
    unfold absorbAll
    split
    · next c' absorbed =>
      rw [absorbed] at first
      rw [ih c']
      refine imp_congr_right fun strict => forall₂_congr fun method line => ?_
      have other := first.mp rfl strict method line
      simp [Ne.symm other]
    · next c' e absorbed =>
      rw [absorbed] at first
      simp only [reduceCtorEq, false_iff] at first ⊢
      intro clean
      exact first fun strict method line same => clean strict method line
        (same ▸ List.mem_cons_self)

theorem exists_render_of_absorbAll {c : Transcript} {findings : List Finding} {e : Failure}
    (h : (r.absorbAll className c findings).2 = some e) :
    ∃ message context, e = .render message context none := by
  induction findings generalizing c with
  | nil => cases h
  | cons f rest ih =>
    unfold absorbAll at h
    split at h
    · exact ih h
    · next c' e' absorbed =>
      cases h
      exact exists_render_of_absorb r className (congrArg Prod.snd absorbed)

/-- Only PHP bodies overflow. -/
theorem overflow_mem_method {target : Target} {m : Method} {method line : String} :
    Finding.overflow method line ∈ (r.method target className m).1 ↔
      target = .php ∧ method = m.name ∧ line ∈ (Render.Php.phpText r.book m.body m.bindings).2 := by
  cases target with
  | python2 => simp [Renderer.method, body, Target.isPython]
  | python3 => simp [Renderer.method, body, Target.isPython]
  | php => simp [Renderer.method, body, Target.isPython, eq_comm, and_comm]

theorem overflow_mem_targetText {c : ClassDecl} {target : Target} {method line : String} :
    Finding.overflow method line ∈ (r.targetText c target).1 ↔
      target = .php ∧ ∃ m ∈ c.methods, method = m.name ∧
        line ∈ (Render.Php.phpText r.book m.body m.bindings).2 := by
  have missing : Finding.overflow method line ∉ r.classFindings target
      ((c.methods.map (r.method target c.name)).map Prod.snd) := by
    unfold classFindings
    split <;> simp
  simp only [targetText, List.mem_append, missing, or_false, List.mem_flatMap, List.mem_map,
    exists_exists_and_eq_and, overflow_mem_method]
  constructor
  · rintro ⟨m, mem, php, rest⟩
    exact ⟨php, m, mem, rest⟩
  · rintro ⟨php, m, mem, rest⟩
    exact ⟨m, mem, php, rest⟩

/-- No method of the class leaves a collection literal that the bounded rules do not reach. -/
def IsConverted (r : Renderer) (c : ClassDecl) : Prop :=
  ∀ m ∈ c.methods, (Render.Php.phpText r.book m.body m.bindings).2 = []

/-- A class has its texts, unless nesting is checked and a literal is left in a PHP method. -/
theorem classTexts_eq_ok_iff (targets : List Target) (c : ClassDecl) (context : Transcript) :
    (∃ texts, (r.classTexts targets c context).1 = .ok texts) ↔
      (r.strict = true → Target.php ∈ targets → r.IsConverted c) := by
  have found :
      (∀ method line, Finding.overflow method line ∉
        ((targets.map fun target => (target, r.targetText c target)).flatMap fun t => t.2.1)) ↔
        (Target.php ∈ targets → r.IsConverted c) := by
    simp only [List.mem_flatMap, List.mem_map, exists_exists_and_eq_and, overflow_mem_targetText]
    constructor
    · intro clean listed m mem
      by_contra left
      obtain ⟨line, lines⟩ := List.exists_mem_of_ne_nil _ left
      exact clean m.name line ⟨.php, listed, rfl, m, mem, rfl, lines⟩
    · rintro converted method line ⟨target, listed, rfl, m, mem, -, lines⟩
      rw [converted listed m mem] at lines
      cases lines
  have absorbed := absorbAll_eq_none_iff r c.name context
    ((targets.map fun target => (target, r.targetText c target)).flatMap fun t => t.2.1)
  rw [found] at absorbed
  rw [← absorbed]
  unfold classTexts
  dsimp only
  split
  · next taken => simp [taken]
  · next taken => simp [taken]

theorem exists_render_of_classTexts {targets : List Target} {c : ClassDecl}
    {context : Transcript} {e : Failure} (h : (r.classTexts targets c context).1 = .error e) :
    ∃ message context, e = .render message context none := by
  unfold classTexts at h
  dsimp only at h
  split at h
  · cases h
  · next taken =>
    cases h
    exact exists_render_of_absorbAll r c.name (congrArg Prod.snd taken)

/-- The patterns that the renderer makes of names are all spelled by texts in which the names are
quoted: those of its rules, those of variables and methods of any name, and those that find the
hierarchy's names. -/
structure SpellsNames (r : Renderer) : Prop where
  rules : ∀ c ∈ r.book.rulesets, c.IsSpelled
  bindings : ∀ names, (Ruleset.sigils names).IsSpelled
  calls : ∀ target method, ((ownCalls target).callMatcher method).IsSpelled
  words : ∀ name ∈ r.hierarchy.names, (Imports.wordMatcher name).IsSpelled

theorem spellsNames_of_rules {r : Renderer} (rules : ∀ c ∈ r.book.rulesets, c.IsSpelled) :
    r.SpellsNames where
  rules := rules
  bindings _ _ := Ruleset.isSpelled_of_mem_sigils
  calls target method := Name.CallStyle.isSpelled_callMatcher (ownCalls target) method
  words name _ := Imports.isSpelled_wordMatcher name

end Renderer

namespace Generator

/-! ### Rendering a class -/

theorem exists_format_of_ofSource {file contents : String} {e : Failure}
    (h : ClassDecl.ofSource file contents = .error e) :
    ∃ message method, e = .format file message method := by
  unfold ClassDecl.ofSource at h
  split at h
  · cases h
  · next flaw _ =>
    cases h
    cases flaw with
    | noHeader => exact ⟨_, _, rfl⟩
    | noSignature line => exact ⟨_, _, rfl⟩

/-- A failure on a class is one of its format or of its rendering, and names the file. -/
theorem render_eq_error {g : Generator} {file contents : String} {e : Failure}
    (h : (g.render file contents).1 = .error e) :
    (∃ message method, e = .format file message method) ∨
      ∃ message context, e = .render message context (some file) := by
  unfold render at h
  dsimp only at h
  split at h
  · next failure read =>
    cases h
    exact .inl (exists_format_of_ofSource read)
  · next c read =>
    split at h
    · next failure context rendered =>
      cases h
      obtain ⟨message, context, rfl⟩ :=
        Renderer.exists_render_of_classTexts _ (congrArg Prod.fst rendered)
      exact .inr ⟨message, context, rfl⟩
    · cases h

/-- A text is rendered exactly if it is a class in which no literal is left that has to be
converted. -/
theorem render_eq_ok_iff (g : Generator) (file contents : String) :
    (∃ r, (g.render file contents).1 = .ok r) ↔
      ∃ c, ClassDecl.ofSource file contents = .ok c ∧
        (g.renderer.strict = true → Target.php ∈ g.settings.activeTargets →
          g.renderer.IsConverted c) := by
  unfold render
  dsimp only
  split
  · next failure read => simp [read]
  · next c read =>
    have texts :=
      Renderer.classTexts_eq_ok_iff g.renderer g.settings.activeTargets c { file := file }
    simp only [read, Except.ok.injEq, exists_eq_left']
    rw [← texts]
    split
    · next rendered => simp [rendered]
    · next rendered => simp [rendered]

/-! ### Making a generator -/

theorem nestingPasses_of_validate {c : Settings} (valid : c.validate = .ok ()) :
    c.nestingPasses ≠ 0 := by
  intro none
  unfold Settings.validate at valid
  rw [if_pos none] at valid
  dsimp only at valid
  split at valid <;> cases valid

theorem does_ofSettings {c : Settings} {t t' : FileTree} {h : Hierarchy} {book : RuleBook}
    (valid : c.validate = .ok ()) (loaded : Does (readHierarchy c) t (.ok h) t')
    (made : RuleBook.make (Name.Glossary.ofNames Name.standard) h c.nestingPasses = .ok book) :
    Does (ofSettings c) t (.ok ⟨c, ⟨book, h, c.strictNesting⟩⟩) t' := by
  unfold ofSettings
  rw [valid]
  refine loaded.bind ?_
  rw [made]
  exact .bind (Acts.pure _ t') (.bind (does_noteAll _ t') (.bind (does_note _ _ t') (.pure _ t')))

/-- A valid configuration whose hierarchy can be read has a generator, whatever names the hierarchy
has. No name of it, of a variable or of a method spoils a pattern. Every failure on a class is one
of its format or of its rendering and names the file, and there is none if the text is a class and
no collection literal is left that has to be converted. -/
theorem exists_generator_of_validate {c : Settings} {t t' : FileTree} {h : Hierarchy}
    (valid : c.validate = .ok ()) (loaded : Does (readHierarchy c) t (.ok h) t') :
    ∃ g, Does (ofSettings c) t (.ok g) t' ∧
      g.settings = c ∧ g.renderer.hierarchy = h ∧ g.renderer.SpellsNames ∧
      ∀ file contents,
        (∀ e, (g.render file contents).1 = .error e → e.file? = some file ∧
          ((∃ message method, e = .format file message method) ∨
            ∃ message context, e = .render message context (some file))) ∧
        ((∃ r, (g.render file contents).1 = .ok r) ↔
          ∃ decl, ClassDecl.ofSource file contents = .ok decl ∧
            (c.strictNesting = true → Target.php ∈ c.activeTargets →
              g.renderer.IsConverted decl)) := by
  obtain ⟨book, made, -, regular⟩ := RuleBook.exists_make (Name.Glossary.ofNames Name.standard) h
    (nestingPasses_of_validate valid)
  refine ⟨⟨c, ⟨book, h, c.strictNesting⟩⟩, does_ofSettings valid loaded made, rfl, rfl,
    Renderer.spellsNames_of_rules fun c mem => (regular c mem).isSpelled,
    fun file contents => ⟨fun e failed => ?_, render_eq_ok_iff _ file contents⟩⟩
  have kinds := render_eq_error failed
  refine ⟨?_, kinds⟩
  rcases kinds with ⟨message, method, rfl⟩ | ⟨message, context, rfl⟩
  · rfl
  · rfl

theorem steady_readHierarchy (c : Settings) :
    Steady Eq (readHierarchy (m := StateM Session) c).run := by
  unfold readHierarchy
  split
  · exact steady_pure isFrame_eq _
  · exact steady_bind isFrame_eq (steady_read isFrame_eq _) fun _ =>
      steady_bind isFrame_eq (steady_note isFrame_eq _ _) fun _ => steady_ofExcept isFrame_eq _

/-- A hierarchy of names in which every character has a meaning in patterns. -/
def reservedNames : Settings where
  errorHierarchyJson := some ⟨"errors.json"⟩

def reservedNamesTree : FileTree :=
  ⟨[(["errors.json"], .file (.text "\x7b\"(a|\": \x7b\"[^?\": \x7b\x7d\x7d\x7d"))]⟩

theorem exists_generator_of_validate_reservedNames :
    reservedNames.validate = .ok () ∧
    Does (readHierarchy reservedNames) reservedNamesTree
      (.ok (Hierarchy.ofPairs [("(a|", none), ("[^?", some "(a|")])) reservedNamesTree ∧
    ∃ g, Does (ofSettings reservedNames) reservedNamesTree (.ok g) reservedNamesTree ∧
      g.renderer.SpellsNames ∧ ∀ contents e, (g.render "foo.js" contents).1 = .error e →
        e.file? = some "foo.js" := by
  have valid : reservedNames.validate = .ok () := eq_ok_of_toOption (by decide +kernel)
  have loaded : Does (readHierarchy reservedNames) reservedNamesTree
      (.ok (Hierarchy.ofPairs [("(a|", none), ("[^?", some "(a|")])) reservedNamesTree :=
    does_of_perform (steady_readHierarchy reservedNames) (by decide +kernel) (by decide +kernel)
  obtain ⟨g, made, -, -, spelled, rendered⟩ := exists_generator_of_validate valid loaded
  exact ⟨valid, loaded, g, made, spelled, fun contents e failed =>
    ((rendered "foo.js" contents).1 e failed).1⟩

end Generator

end Polyglot
