import Polyglot.Proofs.Artifacts

/-!
What a run deletes. Every deleted file lay directly in the directory of an enabled target, its name
ends as the names of that target do, and no source of the run declares a class that bears the rest
of the name. A file of the source directory may still bear it: one that the run did not select, or
one whose class is called otherwise.
-/

namespace Polyglot

open Job FileTree

namespace Generator

variable {g : Generator} {t u : FileTree}

/-- A file that a sweep behind a batch deletes. It lies directly in the directory of an enabled
target, its name is a base name and an ending of the target's files, no exclusion protects it, and
no class of the batch is called like its base name. -/
structure Unclaimed (g : Generator) (done : List Rendition) (t : FileTree) (target : Target)
    (base ending : String) (place : Place) : Prop where
  enabled : target ∈ g.settings.activeTargets
  generated : ending ∈ (fileKind target).endings
  direct : ∃ directory, t.locate (g.settings.folder target) = .ok (.inside directory) ∧
    t.find? directory = some .directory ∧ place = directory ++ [base ++ ending]
  file : ∃ content, t.find? place = some (.file content)
  unprotected : ∃ e, Stale.Exclusions.ofTexts g.settings.prune.exclusions = .ok e ∧
    e.isProtected (base ++ ending) = false
  unnamed : ∀ r ∈ done, r.decl.name ≠ base

section Unclaimed

variable {done : List Rendition} {e : Stale.Exclusions} {target : Target} {place : Place}

theorem exists_unclaimed_of_found {name : String} (enabled : target ∈ g.settings.activeTargets)
    (compiled : Stale.Exclusions.ofTexts g.settings.prune.exclusions = .ok e)
    (found : Stale.Found e (Rendition.roster done) t (staleFolder g.settings target) name place) :
    ∃ base ending, name = base ++ ending ∧ Unclaimed g done t target base ending place := by
  obtain ⟨base, ending, generated, rfl⟩ :=
    Stale.Kind.isMatch_extension.mp (found.generated : (fileKind target).extension.isMatch
      name.toList = true)
  refine ⟨base, ending, rfl, enabled, generated, found.direct, found.file,
    ⟨e, compiled, found.unprotected⟩, ?_⟩
  intro r hr same
  have unclaimed := found.unclaimed
  rw [Stale.Kind.baseName_append generated, Bool.eq_false_iff] at unclaimed
  exact unclaimed (Rendition.contains_roster.mpr ⟨r, hr, same⟩)

theorem Unclaimed.found {base ending : String} (h : Unclaimed g done t target base ending place)
    (compiled : Stale.Exclusions.ofTexts g.settings.prune.exclusions = .ok e) :
    Stale.Found e (Rendition.roster done) t (staleFolder g.settings target) (base ++
      ending) place where
  direct := h.direct
  file := h.file
  generated := Stale.Kind.isMatch_extension.mpr ⟨base, ending, h.generated, rfl⟩
  unclaimed := by
    rw [Stale.Kind.baseName_append h.generated, Bool.eq_false_iff]
    intro claimed
    obtain ⟨r, hr, same⟩ := Rendition.contains_roster.mp claimed
    exact h.unnamed r hr same
  unprotected := by
    obtain ⟨e', compiled', unprotected⟩ := h.unprotected
    exact Except.ok.inj (compiled'.symm.trans compiled) ▸ unprotected

end Unclaimed

section Ran

variable {done : List Rendition} {t₁ t₂ t₃ : FileTree} {report : Report}
    (ran : Ran g t done t₁ t₂ t₃ u report)
include ran

theorem Ran.exists_unclaimed {path : Path} (hpath : path ∈ report.deleted) :
    ∃ target base ending place, path = (g.settings.folder target).join ⟨base ++ ending⟩ ∧
      Unclaimed g done t₂ target base ending place := by
  rcases ran.sweep with ⟨-, -, none⟩ | ⟨-, -, e, swept⟩
  · rw [none] at hpath
    cases hpath
  · obtain ⟨target, enabled, name, place, found, rfl⟩ := swept.listed path hpath
    obtain ⟨base, ending, rfl, unclaimed⟩ :=
      exists_unclaimed_of_found enabled swept.exclusions found
    exact ⟨target, base, ending, place, rfl, unclaimed⟩

/-- What is not claimed is gone behind the sweep, and only what is written later can be in its
place. -/
theorem Ran.gone (made : done ≠ []) (enabled : g.settings.prune.enabled = true) {target : Target}
    {base ending : String} {place : Place} (h : Unclaimed g done t₂ target base ending place)
    (free : ∀ p ∈ g.furtherOutputs, u.locate p ≠ .ok (.inside place)) (content : Content) :
    u.find? place ≠ some (.file content) := by
  rcases ran.sweep with ⟨idle, -, -⟩ | ⟨-, -, e, swept⟩
  · rcases idle with none | disabled
    · exact absurd none made
    · rw [enabled] at disabled
      cases disabled
  · obtain ⟨places, cleared, mem⟩ := swept.gone
    rw [Ne, ran.rest.files place free, cleared.find?_file]
    intro kept
    exact kept.1 ((mem place).mpr ⟨target, h.enabled, _, h.found swept.exclusions⟩)

end Ran

/-- Each path that a run deletes is that of a file directly in the directory of an enabled target.
It is not protected, and no source of the run declares a class of its name. If the source directory
has a file of that name, then the run did not select it, or its class has another name. Where the
sweep is made, all such files are gone. -/
theorem run_deletes_unclaimed {report : Report} (proper : t.IsProper)
    (ran : Does g.run t (.ok report) u) : ∃ done t₁ t₂ inclusion, Does g.makeFolders t (.ok ()) t₁ ∧
      Does (Selection.load (g.settings.resolve g.settings.inclusionList)) t₁ (.ok inclusion) t₁ ∧
      Does g.settings.sources t₁ (.ok (done.map Rendition.source)) t₁ ∧ Batch g t₁ done t₂ ∧
      (∀ path ∈ report.deleted, ∃ target base ending place,
        path = (g.settings.folder target).join ⟨base ++ ending⟩ ∧ '/' ∉ (base ++ ending).toList ∧
        Unclaimed g done t₂ target base ending place ∧
        ∀ directory content, t₁.locate (g.settings.resolve g.settings.jsDir) =
          .ok (.inside directory) → t₁.find? directory = some .directory →
          t₁.find? (directory ++ [base ++ ".js"]) = some (.file content) →
            isEligible g.settings.pattern inclusion (base ++ ".js") = false ∨
              ∃ r ∈ done, r.source = (g.settings.resolve g.settings.jsDir).join ⟨base ++ ".js"⟩ ∧
                r.decl.name ≠ base) ∧
      (done ≠ [] → g.settings.prune.enabled = true → ∀ target base ending place,
        Unclaimed g done t₂ target base ending place →
        (∀ p ∈ g.furtherOutputs, u.locate p ≠ .ok (.inside place)) → ∀ content,
          u.find? place ≠ some (.file content)) := by
  obtain ⟨done, t₁, t₂, t₃, ran⟩ := exists_ran_of_run proper ran
  have proper₁ := ran.proper_folders proper
  have proper₂ : t₂.IsProper := ran.batch.saves.touches.proper proper₁
  obtain ⟨inclusion, loaded, mem⟩ := exists_of_sources proper₁ ran.sources
  refine ⟨done, t₁, t₂, inclusion, ran.folders, loaded, ran.sources, ran.batch, ?_, ?_⟩
  · intro path hpath
    obtain ⟨target, base, ending, place, rfl, unclaimed⟩ := ran.exists_unclaimed hpath
    have single : '/' ∉ (base ++ ending).toList := by
      obtain ⟨directory, -, -, rfl⟩ := unclaimed.direct
      obtain ⟨content, file⟩ := unclaimed.file
      exact (proper₂.isFileName file).single
    refine ⟨target, base, ending, place, rfl, single, unclaimed,
      fun directory content leads there file => ?_⟩
    by_cases eligible : isEligible g.settings.pattern inclusion (base ++ ".js") = true
    · have selected := (mem _).mpr ⟨directory, _, content, leads, there, file, eligible, rfl⟩
      obtain ⟨r, hr, source⟩ := List.mem_map.mp selected
      exact .inr ⟨r, hr, source, unclaimed.unnamed r hr⟩
    · exact .inl (Bool.eq_false_iff.mpr eligible)
  · intro made enabled target base ending place unclaimed free content
    exact ran.gone made enabled unclaimed free content

/-- Two sources with an artifact of the second, which the inclusion list leaves out. -/
def unselectedSource : FileTree :=
  ⟨[(["js"], .directory), (["php"], .directory), (["exchanges.cfg"], .file (.text "foo\n")),
    (["php", "bar.php"], .file (.text "<?php\n")),
    (["js", "foo.js"], .file (.text
      "module.exports = class foo extends Exchange \x7b\n    m () \x7b\n    \x7d\n\x7d;\n")),
    (["js", "bar.js"], .file (.text
      "module.exports = class bar extends Exchange \x7b\n    m () \x7b\n    \x7d\n\x7d;\n"))]⟩

theorem exists_run_unselectedSource :
    ∃ g report u, Does (ofSettings phpOnly) unselectedSource (.ok g) unselectedSource ∧
    Does g.run unselectedSource (.ok report) u ∧ ⟨"./php/bar.php"⟩ ∈ report.deleted ∧
      ((u.find? ["js", "bar.js"]).any Node.isFile) = true := by
  have dry : dryRun phpOnly unselectedSource (fun _ report u =>
      report.deleted.contains ⟨"./php/bar.php"⟩ &&
        (u.find? ["js", "bar.js"]).any Node.isFile) = true := by
    decide +kernel
  obtain ⟨g, made, -, done, t₁, t₂, report, u, -, -, -, ran, checked⟩ :=
    exists_run_of_dryRun validate_phpOnly rfl (by decide) rfl dry
  obtain ⟨deleted, there⟩ := Bool.and_eq_true_iff.mp checked
  exact ⟨g, report, u, made, ran, List.contains_iff_mem.mp deleted, there⟩

theorem run_deletes_unclaimed_unselectedSource :
    unselectedSource.IsProper ∧
      ∃ g report u, Does (ofSettings phpOnly) unselectedSource (.ok g) unselectedSource ∧
      Does g.run unselectedSource (.ok report) u ∧ ⟨"./php/bar.php"⟩ ∈ report.deleted ∧
        ∃ done t₁ t₂ target base ending place, Batch g t₁ done t₂ ∧ ⟨"./php/bar.php"⟩ =
          (g.settings.folder target).join ⟨base ++ ending⟩ ∧
          Unclaimed g done t₂ target base ending place := by
  have proper : unselectedSource.IsProper := ⟨by decide +kernel, by decide +kernel⟩
  obtain ⟨g, report, u, made, ran, deleted, -⟩ := exists_run_unselectedSource
  obtain ⟨done, t₁, t₂, inclusion, -, -, -, batch, unclaimed, -⟩ := run_deletes_unclaimed proper ran
  obtain ⟨target, base, ending, place, path, -, found, -⟩ := unclaimed _ deleted
  exact ⟨proper, g, report, u, made, ran, deleted, done, t₁, t₂, target, base, ending, place,
    batch, path, found⟩

/-- The artifact is deleted while its source is there. -/
theorem run_deletes_artifact_unselectedSource :
    ∃ g report u content, Does (ofSettings phpOnly) unselectedSource (.ok g) unselectedSource ∧
      Does g.run unselectedSource (.ok report) u ∧ ⟨"./php/bar.php"⟩ ∈ report.deleted ∧
      u.find? ["js", "bar.js"] = some (.file content) := by
  obtain ⟨g, report, u, made, ran, deleted, there⟩ := exists_run_unselectedSource
  obtain ⟨node, found, isFile⟩ := (Option.any_eq_true _ _).mp there
  cases node with
  | directory => cases isFile
  | file content => exact ⟨g, report, u, content, made, ran, deleted, found⟩

end Generator

end Polyglot
