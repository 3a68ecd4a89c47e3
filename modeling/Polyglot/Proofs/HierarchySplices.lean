import Polyglot.Proofs.Books
import Polyglot.Proofs.Overwriting
import Polyglot.Proofs.PythonLoops
import Polyglot.Proofs.Regions

/-!
Rendering the hierarchy of exceptions twice. Each module gets the rendered hierarchy in the place of
its first region, so the second time nothing changes exactly if what was rendered is a region and
nothing else, or if no region is left (`generate_again`). A comment before the hierarchy is rendered
as well and stands outside of the region, so that it is there once more with every run.
-/

namespace Polyglot

open Pattern Job FileTree

/-! ### One file with another text -/

/-- The trees are the same but for the text of one file. -/
structure FileTree.Rewrites (t u : FileTree) (place : Place) (s : String) : Prop where
  old : ∃ content, t.find? place = some (.file content)
  new : u.find? place = some (.file (.text s))
  others : ∀ other, other ≠ place → u.find? other = t.find? other

theorem FileTree.Rewrites.put {t : FileTree} {place : Place} {content : Content}
    (file : t.find? place = some (.file content)) (s : String) :
    t.Rewrites (t.put place (.file (.text s))) place s :=
  ⟨⟨content, file⟩, find?_put_self (ne_nil_of_file file) t _,
    fun _ apart => find?_put_of_ne apart t _⟩

theorem FileTree.Rewrites.refl {t : FileTree} {place : Place} {s : String}
    (file : t.find? place = some (.file (.text s))) : t.Rewrites t place s :=
  ⟨⟨_, file⟩, file, fun _ _ => rfl⟩

theorem FileTree.Rewrites.keepsDirectories {t u : FileTree} {place : Place} {s : String}
    (h : t.Rewrites u place s) : KeepsDirectories t u := by
  intro other found
  rw [h.others other, found]
  rintro rfl
  obtain ⟨content, file⟩ := h.old
  cases file.symm.trans found

theorem FileTree.Rewrites.locate_iff {t u : FileTree} {place : Place} {s : String}
    (h : t.Rewrites u place s) {p : Path} {spot : Spot} :
    u.locate p = .ok spot ↔ t.locate p = .ok spot := by
  have back : KeepsDirectories u t := by
    intro other found
    rw [← h.others other, found]
    rintro rfl
    cases h.new.symm.trans found
  exact ⟨back.locate, h.keepsDirectories.locate⟩

/-! ### Splicing into a file -/

section Splice

variable {t : FileTree} {p : Path} {place : Place} {s : String} {d : Delimiters} {region : Matcher}

theorem Job.does_splice (same : region.pattern = d.pattern)
    (leads : t.locate p = .ok (.inside place)) (file : t.find? place = some (.file (.text s)))
    (w : String) :
    ∃ u, Does (splice p region w) t (.ok (region.isMatch s)) u ∧
      t.Rewrites u place (String.ofList (d.splice w.toList s.toList)) := by
  have read := does_read p t
  rw [(read_eq_ok_iff leads).mpr file] at read
  by_cases found : region.isMatch s = true
  · refine ⟨_, read.bind ?_, .put file _⟩
    rw [if_pos found, found, same]
    exact (does_save_of_file leads file _).bind (.pure true _)
  · have none : d.pattern.isMatch s.toList = false := by
      rw [← same]
      exact Bool.eq_false_iff.mpr found
    refine ⟨t, read.bind ?_, ?_⟩
    · rw [if_neg found, Bool.eq_false_iff.mpr found]
      exact (does_note _ _ t).bind (.pure false t)
    · rw [Delimiters.splice_of_not_isMatch none, String.ofList_toList]
      exact .refl file

theorem Job.does_splice_error {e : AccessError} (missing : t.read p = .error e) (w : String) :
    Does (splice p region w) t (.error (.fileAccess p e)) t := by
  have read := does_read p t
  rw [missing] at read
  exact read.bind_error

theorem ErrorModules.does_spliceInto (same : region.pattern = d.pattern)
    (leads : t.locate p = .ok (.inside place)) (file : t.find? place = some (.file (.text s)))
    (w : String) :
    ∃ u, Does (spliceInto p region w) t (.ok ()) u ∧
      t.Rewrites u place (String.ofList (d.splice w.toList s.toList)) := by
  obtain ⟨u, spliced, rewrites⟩ := does_splice same leads file w
  exact ⟨u, (does_note _ _ t).bind (spliced.bind (.pure () u)), rewrites⟩

theorem ErrorModules.does_spliceInto_error {e : AccessError}
    (missing : t.read p = .error e) (w : String) :
    Does (spliceInto p region w) t (.error (.fileAccess p e)) t :=
  (does_note _ _ t).bind (does_splice_error missing w).bind_error

end Splice

namespace ErrorModules

/-! ### Both modules -/

def pythonDelimiters : Delimiters :=
  ⟨"error_hierarchy = ".toList, "\n\x7d".toList, by decide +kernel⟩

def phpDelimiters : Delimiters :=
  ⟨"$error_hierarchy = ".toList, "\n);".toList, by decide +kernel⟩

theorem pattern_pythonRegion : pythonRegion.pattern = pythonDelimiters.pattern := rfl

theorem pattern_phpRegion : phpRegion.pattern = phpDelimiters.pattern := rfl

/-- The hierarchy of a source in the languages of the modules. -/
def fragment (book : RuleBook) (source : String) : Fragment :=
  (Fragment.render book (definition source) false).1

/-- What is reported about the hierarchy of a source. -/
def notes (book : RuleBook) (root : Path) (a : AuxiliaryPaths) (source : String) :
    List Diagnostic :=
  Fragment.diagnostics (root.join a.errorHierarchySource).text
    (Fragment.render book (definition source) false).2

/-- Where the source and the two modules are, and what they hold. -/
structure Stands (root : Path) (a : AuxiliaryPaths) (t : FileTree) (source : String)
    (python php : Place) (x y : String) : Prop where
  source : t.read (root.join a.errorHierarchySource) = .ok source
  leadsPython : t.locate (root.join a.pythonErrors) = .ok (.inside python)
  leadsPhp : t.locate (root.join a.phpErrors) = .ok (.inside php)
  filePython : t.find? python = some (.file (.text x))
  filePhp : t.find? php = some (.file (.text y))
  apart : python ≠ php

variable {book : RuleBook} {root : Path} {a : AuxiliaryPaths} {t u : FileTree} {source x y : String}
  {python php : Place} {ds : List Diagnostic}

/-- A run writes both modules anew. -/
theorem Stands.does_generate (h : Stands root a t source python php x y) (book : RuleBook) :
    ∃ u, Does (generate book root a) t (.ok (notes book root a source)) u ∧ KeepsDirectories t u ∧
      u.find? python = some (.file (.text (String.ofList
        (pythonDelimiters.splice (fragment book source).python3.toList x.toList)))) ∧
      u.find? php = some (.file (.text (String.ofList
        (phpDelimiters.splice (fragment book source).php.toList y.toList)))) ∧
      ∀ other, other ≠ python → other ≠ php → u.find? other = t.find? other := by
  have read := does_read (root.join a.errorHierarchySource) t
  rw [h.source] at read
  obtain ⟨t₁, first, rewrites₁⟩ := does_spliceInto pattern_pythonRegion h.leadsPython h.filePython
    (fragment book source).python3
  obtain ⟨u, second, rewrites₂⟩ :=
    does_spliceInto pattern_phpRegion (rewrites₁.locate_iff.mpr h.leadsPhp)
    ((rewrites₁.others php (Ne.symm h.apart)).trans h.filePhp) (fragment book source).php
  refine ⟨u, read.bind ((does_noteAll _ t).bind (first.bind (second.bind (.pure _ u)))),
    rewrites₁.keepsDirectories.trans rewrites₂.keepsDirectories, ?_, rewrites₂.new,
    fun other hpython hphp => ?_⟩
  · rw [rewrites₂.others python h.apart, rewrites₁.new]
  · rw [rewrites₂.others other hphp, rewrites₁.others other hpython]

theorem Stands.after (h : Stands root a t source python php x y) (keeps : KeepsDirectories t u)
    (same : u.read (root.join a.errorHierarchySource) = .ok source) {x' y' : String}
    (newPython : u.find? python = some (.file (.text x')))
    (newPhp : u.find? php = some (.file (.text y'))) :
    Stands root a u source python php x' y' :=
  ⟨same, keeps.locate h.leadsPython, keeps.locate h.leadsPhp, newPython, newPhp, h.apart⟩

theorem Stands.locate_ne (h : Stands root a t source python php x y) :
    t.locate (root.join a.pythonErrors) ≠ t.locate (root.join a.phpErrors) := by
  rw [h.leadsPython, h.leadsPhp]
  intro equal
  exact h.apart (Spot.inside.inj (Except.ok.inj equal))

/-- A run that succeeds has read the source and both modules. -/
theorem exists_stands (ran : Does (generate book root a) t (.ok ds) u)
    (apart : t.locate (root.join a.pythonErrors) ≠ t.locate (root.join a.phpErrors)) :
    ∃ source python php x y, Stands root a t source python php x y := by
  have read := does_read (root.join a.errorHierarchySource) t
  cases source : t.read (root.join a.errorHierarchySource) with
  | error e =>
    rw [source] at read
    cases (Acts.unique ran read.bind_error).1
  | ok source' =>
    rw [source] at read
    cases errors : t.read (root.join a.pythonErrors) with
    | error e =>
      have failed : Does (spliceInto _ pythonRegion (fragment book source').python3) t _ t :=
        does_spliceInto_error errors _
      cases (Acts.unique ran (read.bind ((does_noteAll _ t).bind failed.bind_error))).1
    | ok x =>
      obtain ⟨python, leadsPython, filePython⟩ := exists_place_of_read errors
      obtain ⟨t₁, first, rewrites⟩ := does_spliceInto pattern_pythonRegion leadsPython filePython
        (fragment book source').python3
      cases other : t₁.read (root.join a.phpErrors) with
      | error e =>
        have failed : Does (spliceInto _ phpRegion (fragment book source').php) t₁ _ t₁ :=
          does_spliceInto_error other _
        cases (Acts.unique ran
          (read.bind ((does_noteAll _ t).bind (first.bind failed.bind_error)))).1
      | ok y =>
        obtain ⟨php, leads, file⟩ := exists_place_of_read other
        have leadsPhp := rewrites.locate_iff.mp leads
        have ne : python ≠ php := by
          rintro rfl
          exact apart (leadsPython.trans leadsPhp.symm)
        exact ⟨source', python, php, x, y, source, leadsPython, leadsPhp, filePython,
          (rewrites.others php (Ne.symm ne)).symm.trans file, ne⟩

/-- A second run with the source as it was succeeds too. It changes a module unless what is rendered
for the module is one region, or the first run has left no region in it. -/
theorem generate_again (first : Does (generate book root a) t (.ok ds) u)
    (apart : t.locate (root.join a.pythonErrors) ≠ t.locate (root.join a.phpErrors))
    (same : u.read (root.join a.errorHierarchySource) = t.read (root.join a.errorHierarchySource)) :
    ∃ source x y v, t.read (root.join a.errorHierarchySource) = .ok source ∧
      u.read (root.join a.pythonErrors) = .ok x ∧ u.read (root.join a.phpErrors) = .ok y ∧
      Does (generate book root a) u (.ok ds) v ∧
      (v.read (root.join a.pythonErrors) = .ok x ↔
        pythonRegion.isMatch x = false ∨
          pythonDelimiters.IsRegion (fragment book source).python3.toList) ∧
      (v.read (root.join a.phpErrors) = .ok y ↔
        phpRegion.isMatch y = false ∨
          phpDelimiters.IsRegion (fragment book source).php.toList) := by
  obtain ⟨source, python, php, x, y, before⟩ := exists_stands first apart
  obtain ⟨u', ran, keeps, newPython, newPhp, -⟩ := before.does_generate book
  obtain ⟨result, rfl⟩ := Acts.unique first ran
  rw [result]
  have after := before.after keeps (same.trans before.source) newPython newPhp
  obtain ⟨v, again, keeps', lastPython, lastPhp, -⟩ := after.does_generate book
  have read {p : Path} {place : Place} (leads : u.locate p = .ok (.inside place)) {d : Delimiters}
    {region : Matcher}
      (made : region.pattern = d.pattern) {w s : List Char}
      (last : v.find? place =
        some (.file (.text (String.ofList (d.splice w (String.ofList (d.splice w s)).toList))))) :
      v.read p = .ok (String.ofList (d.splice w s)) ↔
        region.isMatch (String.ofList (d.splice w s)) = false ∨ d.IsRegion w := by
    rw [read_eq_ok_iff (keeps'.locate leads), last, Matcher.isMatch, made, String.toList_ofList,
      ← Delimiters.splice_splice_eq_iff]
    simp [String.ofList_inj]
  exact ⟨source, _, _, v, before.source, (read_eq_ok_iff after.leadsPython).mpr newPython,
    (read_eq_ok_iff after.leadsPhp).mpr newPhp, again,
    read after.leadsPython pattern_pythonRegion lastPython,
    read after.leadsPhp pattern_phpRegion lastPhp⟩

/-! ### A comment before the hierarchy -/

/-- A source with a comment. -/
def commentedSource : String :=
  "// errors\nconst errorHierarchy = \x7b\n\x7d;\n"

def emptyModule : String :=
  "error_hierarchy = \x7b\n\x7d\n"

def commentedHierarchy : FileTree :=
  ⟨[(["js"], .directory), (["js", "base"], .directory),
    (["js", "base", "errorHierarchy.js"], .file (.text commentedSource)),
    (["python"], .directory), (["python", "ccxt"], .directory),
      (["python", "ccxt", "base"], .directory),
    (["python", "ccxt", "base", "errors.py"], .file (.text emptyModule)),
    (["php"], .directory), (["php", "base"], .directory),
    (["php", "base", "errors.php"], .file (.text "$error_hierarchy = array(\n);\n"))]⟩

theorem stands_commentedHierarchy : Stands ⟨"."⟩ {} commentedHierarchy commentedSource
    ["python", "ccxt", "base", "errors.py"] ["php", "base", "errors.php"] emptyModule
    "$error_hierarchy = array(\n);\n" where
  source := eq_ok_of_toOption (by decide +kernel)
  leadsPython := eq_ok_of_toOption (by decide +kernel)
  leadsPhp := eq_ok_of_toOption (by decide +kernel)
  filePython := by decide +kernel
  filePhp := by decide +kernel
  apart := by decide

section Texts

/-- An empty hierarchy after a comment: what opens the comment, what stands before the name, the
name and what ends it. The texts are lists of characters because the kernel reads a table of rules
on a string literal half as fast. -/
def commentedText (opener declaration variableName ending : List Char) : List Char :=
  opener ++ [' ', 'e', 'r', 'r', 'o', 'r', 's', '\n'] ++ declaration ++ variableName ++
    [' ', '=', ' ', '{', '\n', '}'] ++ ending

def constText : List Char :=
  ['c', 'o', 'n', 's', 't', ' ']

def camelName : List Char :=
  ['e', 'r', 'r', 'o', 'r', 'H', 'i', 'e', 'r', 'a', 'r', 'c', 'h', 'y']

def snakeName : List Char :=
  ['e', 'r', 'r', 'o', 'r', '_', 'h', 'i', 'e', 'r', 'a', 'r', 'c', 'h', 'y']

variable (name : List Char)

theorem yields_pythonFirstTable_commented :
    Ruleset.Yields name Ruleset.pythonFirstTable
      (commentedText ['/', '/'] constText camelName [';'])
      (commentedText ['/', '/'] constText camelName [';']) := by
  unfold Ruleset.pythonFirstTable
  repeat refine .past (Sketch.shows_exactly _) (by decide +kernel) ?_
  exact .nil

theorem yields_sharedTable_commented :
    Ruleset.Yields name Ruleset.sharedTable (commentedText ['/', '/'] constText camelName [';'])
      (commentedText ['/', '/'] constText snakeName [';']) := by
  unfold Ruleset.sharedTable
  refine .computed (u := commentedText ['/', '/'] constText snakeName [';']) (by decide +kernel) ?_
  exact .past (Sketch.shows_exactly _) (by decide +kernel) .nil

/-- The last rules take away the declaration and the semicolon, and turn the comment into one of the
other language. -/
theorem yields_pythonLastTable_commented :
    Ruleset.Yields name Ruleset.pythonLastTable (commentedText ['/', '/'] constText snakeName [';'])
      (commentedText ['#'] [] snakeName []) := by
  unfold Ruleset.pythonLastTable
  repeat refine .past (Sketch.shows_exactly _) (by decide +kernel) ?_
  refine .computed (u := commentedText ['/', '/'] [] snakeName [';']) (by decide +kernel) ?_
  repeat refine .past (Sketch.shows_exactly _) (by decide +kernel) ?_
  -- a brace alone on its line would go, but a semicolon follows this one
  refine .computed (u := commentedText ['/', '/'] [] snakeName [';']) (by decide +kernel) ?_
  repeat refine .past (Sketch.shows_exactly _) (by decide +kernel) ?_
  refine .computed (u := commentedText ['/', '/'] [] snakeName []) (by decide +kernel) ?_
  repeat refine .past (Sketch.shows_exactly _) (by decide +kernel) ?_
  refine .computed (u := commentedText ['#'] [] snakeName []) (by decide +kernel) ?_
  repeat refine .past (Sketch.shows_exactly _) (by decide +kernel) ?_
  exact .nil

end Texts

theorem python3_commentedSource {glossary : Name.Glossary} {hierarchy : Hierarchy} {passes : Nat}
    (made : RuleBook.make glossary hierarchy passes = .ok book) :
    (fragment book commentedSource).python3 = "# errors\nerror_hierarchy = \x7b\n\x7d" := by
  have isMade := RuleBook.isMade_of_make made
  have code :
      (definition commentedSource).toList = commentedText ['/', '/'] constText camelName [';'] := by
    decide +kernel
  have plain : ("i".toList.all fun c => decide (Text.plainRanges.Covers c.toNat)) = true := by
    decide +kernel
  have idle := Ruleset.pending_eq_nil_iff.mp (CountingLoop.pending_of_plain made plain)
  rw [CountingLoop.toList_alone] at idle
  have ruled := (yields_pythonFirstTable_commented "i".toList).applyChars_python3
    (yields_sharedTable_commented _) (yields_pythonLastTable_commented _) (by decide +kernel)
    isMade.shared isMade.python3 idle
  change Render.Python.python3Text book (definition commentedSource) none false = _
  rw [Render.Python.python3Text, code, ruled]
  decide +kernel

theorem exists_generate_commentedHierarchy (book : RuleBook) :
    ∃ u, Does (generate book ⟨"."⟩ {}) commentedHierarchy
      (.ok (notes book ⟨"."⟩ {} commentedSource)) u ∧ Stands ⟨"."⟩ {} u commentedSource
      ["python", "ccxt", "base", "errors.py"] ["php", "base", "errors.php"]
        (String.ofList (pythonDelimiters.splice (fragment book commentedSource).python3.toList
          emptyModule.toList))
        (String.ofList (phpDelimiters.splice (fragment book commentedSource).php.toList
          "$error_hierarchy = array(\n);\n".toList)) := by
  obtain ⟨u, ran, keeps, newPython, newPhp, others⟩ := stands_commentedHierarchy.does_generate book
  have leads : commentedHierarchy.locate ⟨"./js/base/errorHierarchy.js"⟩ =
      .ok (.inside ["js", "base", "errorHierarchy.js"]) := eq_ok_of_toOption (by decide +kernel)
  have kept := (read_eq_ok_iff (keeps.locate leads)).mpr
    ((others _ (by decide) (by decide)).trans
      ((read_eq_ok_iff leads).mp stands_commentedHierarchy.source))
  exact ⟨u, ran, stands_commentedHierarchy.after keeps kept newPython newPhp⟩

theorem generate_again_commentedHierarchy :
    ∃ book ds u, RuleBook.make (.ofNames Name.standard) .builtin RuleBook.standardPasses =
      .ok book ∧ Does (generate book ⟨"."⟩ {}) commentedHierarchy (.ok ds) u ∧
      commentedHierarchy.locate ⟨"./python/ccxt/base/errors.py"⟩ ≠
        commentedHierarchy.locate ⟨"./php/base/errors.php"⟩ ∧
      u.read ⟨"./js/base/errorHierarchy.js"⟩ =
        commentedHierarchy.read ⟨"./js/base/errorHierarchy.js"⟩ ∧
      ∃ source x v, u.read ⟨"./python/ccxt/base/errors.py"⟩ = .ok x ∧
        Does (generate book ⟨"."⟩ {}) u (.ok ds) v ∧
          (v.read ⟨"./python/ccxt/base/errors.py"⟩ = .ok x ↔ pythonRegion.isMatch x = false ∨
            pythonDelimiters.IsRegion (fragment book source).python3.toList) := by
  obtain ⟨book, made, -⟩ := RuleBook.exists_make (.ofNames Name.standard) .builtin
    (show RuleBook.standardPasses ≠ 0 by decide)
  obtain ⟨u, ran, after⟩ := exists_generate_commentedHierarchy book
  have apart := stands_commentedHierarchy.locate_ne
  have same := after.source.trans stands_commentedHierarchy.source.symm
  obtain ⟨source, x, y, v, -, readPython, -, again, iff, -⟩ := generate_again ran apart same
  exact ⟨book, _, u, made, ran, apart, same, source, x, v, readPython, again, iff⟩

/-- The first run brings the comment into the module, and the second does so again. -/
theorem generate_repeats_comment :
    ∃ book ds u v, RuleBook.make (.ofNames Name.standard) .builtin RuleBook.standardPasses =
      .ok book ∧ Does (generate book ⟨"."⟩ {}) commentedHierarchy (.ok ds) u ∧
      u.read ⟨"./js/base/errorHierarchy.js"⟩ =
        commentedHierarchy.read ⟨"./js/base/errorHierarchy.js"⟩ ∧
      Does (generate book ⟨"."⟩ {}) u (.ok ds) v ∧
      u.read ⟨"./python/ccxt/base/errors.py"⟩ = .ok "# errors\nerror_hierarchy = \x7b\n\x7d\n" ∧
      v.read ⟨"./python/ccxt/base/errors.py"⟩ =
        .ok "# errors\n# errors\nerror_hierarchy = \x7b\n\x7d\n" := by
  obtain ⟨book, made, -⟩ := RuleBook.exists_make (.ofNames Name.standard) .builtin
    (show RuleBook.standardPasses ≠ 0 by decide)
  obtain ⟨u, ran, after⟩ := exists_generate_commentedHierarchy book
  obtain ⟨v, again, keeps, newPython, -⟩ := after.does_generate book
  have once : String.ofList (pythonDelimiters.splice (fragment book commentedSource).python3.toList
      emptyModule.toList) = "# errors\nerror_hierarchy = \x7b\n\x7d\n" := by
    rw [python3_commentedSource made]
    decide +kernel
  have twice : String.ofList (pythonDelimiters.splice (fragment book commentedSource).python3.toList
      "# errors\nerror_hierarchy = \x7b\n\x7d\n".toList) =
      "# errors\n# errors\nerror_hierarchy = \x7b\n\x7d\n" := by
    rw [python3_commentedSource made]
    decide +kernel
  have readPython := (read_eq_ok_iff after.leadsPython).mpr after.filePython
  have readAgain := (read_eq_ok_iff (keeps.locate after.leadsPython)).mpr newPython
  rw [once] at readPython
  rw [once, twice] at readAgain
  exact ⟨book, _, u, v, made, ran, after.source.trans stands_commentedHierarchy.source.symm,
    again, readPython, readAgain⟩

end ErrorModules

end Polyglot
