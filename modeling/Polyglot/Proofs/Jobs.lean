import Polyglot.Proofs.Results
import Polyglot.Session

/-!
What jobs do to a file tree. `Acts x t a t'` says that an action takes the tree `t` to `t'` with the
result `a`, whatever was logged before. `Steady R x` says that the action acts on every tree, since
the log decides nothing, and that the tree behind it stands in the relation `R` to the one before
it. Jobs that only look are steady for equality, and jobs that save files for `KeepsFiles`.
-/

namespace Polyglot

variable {α β : Type}

/-- The action takes the tree `t` to the tree `t'` with the result `a`, whatever the log. -/
def Acts (x : StateM Session α) (t : FileTree) (a : α) (t' : FileTree) : Prop :=
  ∀ log, ∃ log', x ⟨t, log⟩ = (a, ⟨t', log'⟩)

theorem Acts.pure (a : α) (t : FileTree) : Acts (pure a) t a t :=
  fun log => ⟨log, rfl⟩

theorem Acts.bind {x : StateM Session α} {f : α → StateM Session β}
    {t u v : FileTree} {a : α} {b : β} (hx : Acts x t a u) (hf : Acts (f a) u b v) :
    Acts (x >>= f) t b v := by
  intro log
  obtain ⟨log₁, h₁⟩ := hx log
  obtain ⟨log₂, h₂⟩ := hf log₁
  refine ⟨log₂, ?_⟩
  change f (x ⟨t, log⟩).1 (x ⟨t, log⟩).2 = _
  rw [h₁]
  exact h₂

theorem Acts.unique {x : StateM Session α} {t u v : FileTree} {a b : α} (h : Acts x t a u)
    (h' : Acts x t b v) : a = b ∧ u = v := by
  obtain ⟨log, same⟩ := h []
  obtain ⟨log', same'⟩ := h' []
  rw [same] at same'
  obtain ⟨result, session⟩ := Prod.mk.inj same'
  exact ⟨result, (Session.mk.inj session).1⟩

/-- A relation between trees that holds along a sequence of steps if it holds along each. -/
structure IsFrame (R : FileTree → FileTree → Prop) : Prop where
  refl : ∀ t, R t t
  trans : ∀ {t u v}, R t u → R u v → R t v

/-- On every tree, and whatever the log, the action comes to one end, and `R` holds along it. -/
def Steady (R : FileTree → FileTree → Prop) (x : StateM Session α) : Prop :=
  ∀ t, ∃ a t', Acts x t a t' ∧ R t t'

namespace Steady

variable {R : FileTree → FileTree → Prop} {x : StateM Session α} {t u : FileTree} {a : α}

theorem of_acts (h : Steady R x) (acts : Acts x t a u) : R t u := by
  obtain ⟨b, v, acts', related⟩ := h t
  obtain ⟨-, rfl⟩ := acts.unique acts'
  exact related

/-- One run shows what the action does. -/
theorem acts_of_run (h : Steady R x) {s s' : Session} (run : x s = (a, s')) :
    Acts x s.tree a s'.tree := by
  obtain ⟨b, v, acts, -⟩ := h s.tree
  obtain ⟨log, same⟩ := acts s.log
  obtain ⟨rfl, rfl⟩ := Prod.mk.inj (run.symm.trans same)
  exact acts

theorem of_looking (frame : IsFrame R) (f : FileTree → α) (h : ∀ t, Acts x t (f t) t) :
    Steady R x :=
  fun t => ⟨f t, t, h t, frame.refl t⟩

theorem pure (frame : IsFrame R) (a : α) : Steady R (pure a) :=
  of_looking frame (fun _ => a) (Acts.pure a)

theorem bind (frame : IsFrame R) {f : α → StateM Session β} (hx : Steady R x)
    (hf : ∀ a, Steady R (f a)) : Steady R (x >>= f) := by
  intro t
  obtain ⟨a, u, h₁, r₁⟩ := hx t
  obtain ⟨b, v, h₂, r₂⟩ := hf a u
  exact ⟨b, v, h₁.bind h₂, frame.trans r₁ r₂⟩

end Steady

/-! ### The steps of a workspace -/

section Workspace

variable {R : FileTree → FileTree → Prop} (frame : IsFrame R)

theorem acts_isFile (p : Path) (t : FileTree) :
    Acts (Workspace.isFile p) t ((t.node? p).any Node.isFile) t :=
  fun log => ⟨log, rfl⟩

theorem acts_isDirectory (p : Path) (t : FileTree) :
    Acts (Workspace.isDirectory p) t (t.node? p == some .directory) t :=
  fun log => ⟨log, rfl⟩

theorem acts_read (p : Path) (t : FileTree) : Acts (Workspace.read p) t (t.read p) t :=
  fun log => ⟨log, rfl⟩

theorem acts_listNames (p : Path) (t : FileTree) :
    Acts (Workspace.listNames p) t (t.listNames p) t :=
  fun log => ⟨log, rfl⟩

theorem acts_note (entry : Log.Entry) (t : FileTree) : Acts (Workspace.note entry) t () t :=
  fun log => ⟨log ++ [entry], rfl⟩

section Update

variable {x : StateM Session (Except AccessError Unit)}
    (change : FileTree → Except AccessError FileTree)
  {t u : FileTree} {e : AccessError}

theorem acts_update (changed : change t = .ok u) (h : ∀ s, x s = s.update (change s.tree)) :
    Acts x t (.ok ()) u := by
  refine fun log => ⟨log, ?_⟩
  rw [h, changed]
  rfl

/-- A change of the tree that fails leaves it as it was. -/
theorem acts_update_error (failed : change t = .error e) (h : ∀ s, x s = s.update (change s.tree)) :
    Acts x t (.error e) t := by
  refine fun log => ⟨log, ?_⟩
  rw [h, failed]
  rfl

end Update

include frame

theorem steady_update {x : StateM Session (Except AccessError Unit)}
    {change : FileTree → Except AccessError FileTree} (h : ∀ s, x s = s.update (change s.tree))
    (kept : ∀ t t', change t = .ok t' → R t t') : Steady R x := by
  intro t
  cases result : change t with
  | ok t' => exact ⟨.ok (), t', acts_update change result h, kept t t' result⟩
  | error e => exact ⟨.error e, t, acts_update_error change result h, frame.refl t⟩

theorem steady_ensureDirectory (made : ∀ p t t', FileTree.makeDirectory t p = .ok t' → R t t')
    (p : Path) : Steady R (Workspace.ensureDirectory (m := StateM Session) p) := by
  refine (steady_update frame (fun _ => rfl) (made p)).bind frame fun result => ?_
  cases result with
  | ok _ => exact .pure frame _
  | error e =>
    refine (Steady.of_looking frame _ (acts_isDirectory p)).bind frame fun isDirectory => ?_
    exact .pure frame _

/-- The induction is on the fuel, which bounds how many directories are missing. -/
theorem steady_ensureDirectories (made : ∀ p t t', FileTree.makeDirectory t p = .ok t' → R t t')
    (fuel : Nat) (p : Path) :
    Steady R (Workspace.ensureDirectories (m := StateM Session) fuel p) := by
  induction fuel generalizing p with
  | zero => exact .pure frame _
  | succ fuel ih =>
    rw [Workspace.ensureDirectories]
    split
    · exact .pure frame _
    · refine (steady_ensureDirectory frame made p).bind frame fun result => ?_
      cases result with
      | ok _ => exact .pure frame _
      | error e =>
        dsimp only
        split
        · exact .pure frame _
        · next parent _ =>
          split
          · exact .pure frame _
          · refine (ih parent).bind frame fun above => ?_
            cases above with
            | ok _ => exact steady_ensureDirectory frame made p
            | error e => exact .pure frame _

end Workspace

/-! ### Jobs -/

namespace Job

/-- The job takes the tree `t` to the tree `t'` with the result `r`, whatever the log. -/
abbrev Does (job : Job (StateM Session) α) (t : FileTree) (r : Except Failure α) (t' : FileTree) :
    Prop :=
  Acts job.run t r t'

theorem run_bind (x : Job (StateM Session) α) (f : α → Job (StateM Session) β) :
    (x >>= f).run = x.run >>= ExceptT.bindCont f := rfl

theorem exists_of_run_bind {x : Job (StateM Session) α}
    {f : α → Job (StateM Session) β} {s s' : Session} {b : β} (h : (x >>= f).run s = (.ok b, s')) :
    ∃ a s₁, x.run s = (.ok a, s₁) ∧ (f a).run s₁ = (.ok b, s') := by
  rw [run_bind] at h
  change ExceptT.bindCont f (x.run s).1 (x.run s).2 = _ at h
  cases hx : (x.run s).1 with
  | error e =>
    rw [hx] at h
    cases (Prod.mk.inj h).1
  | ok a =>
    rw [hx] at h
    exact ⟨a, (x.run s).2, Prod.ext hx rfl, h⟩

section Does

variable {x : Job (StateM Session) α} {f : α → Job (StateM Session) β} {t u v : FileTree} {a : α}
  {r : Except Failure β} {e : Failure}

theorem Does.pure (a : α) (t : FileTree) : Does (pure a) t (.ok a) t :=
  fun log => ⟨log, rfl⟩

theorem Does.bind (hx : Does x t (.ok a) u) (hf : Does (f a) u r v) : Does (x >>= f) t r v := by
  rw [Does, run_bind]
  exact Acts.bind hx hf

theorem Does.bind_error (hx : Does x t (.error e) u) : Does (x >>= f) t (.error e) u := by
  rw [Does, run_bind]
  exact Acts.bind hx (Acts.pure _ u)

theorem run_tryCatch (x : Job (StateM Session) α) (handle : Failure → Job (StateM Session) α) :
    (tryCatch x handle).run = x.run >>= fun
      | .ok a => pure (.ok a)
      | .error e => (handle e).run := by
  change (ExceptT.tryCatch x handle).run = _
  rw [ExceptT.tryCatch]
  change x.run >>= _ = _
  congr 1
  funext result
  cases result <;> rfl

theorem Does.tryCatch_ok {handle : Failure → Job (StateM Session) α} (hx : Does x t (.ok a) u) :
    Does (tryCatch x handle) t (.ok a) u := by
  rw [Does, run_tryCatch]
  exact Acts.bind hx (Acts.pure _ u)

theorem Does.tryCatch_error {handle : Failure → Job (StateM Session) α} {r : Except Failure α}
    (hx : Does x t (.error e) u) (handled : Does (handle e) u r v) :
    Does (tryCatch x handle) t r v := by
  rw [Does, run_tryCatch]
  exact Acts.bind hx handled

theorem does_lift {y : StateM Session α} (h : Acts y t a u) :
    Does (ExceptT.lift y) t (.ok a) u := by
  intro log
  obtain ⟨log', run⟩ := h log
  refine ⟨log', ?_⟩
  change (Except.ok (y ⟨t, log⟩).1, (y ⟨t, log⟩).2) = _
  rw [run]

theorem does_note (level : Log.Level) (message : String) (t : FileTree) :
    Does (note level message) t (.ok ()) t :=
  does_lift (acts_note _ t)

theorem does_noteAll (log : Log) (t : FileTree) : Does (noteAll log) t (.ok ()) t := by
  induction log with
  | nil => exact .pure () t
  | cons entry log ih => exact .bind (does_lift (acts_note entry t)) ih

theorem does_read (p : Path) (t : FileTree) :
    Does (read p) t
      (match t.read p with | .ok s => .ok s | .error e => .error (.fileAccess p e)) t := by
  refine Acts.bind (acts_read p t) ?_
  cases t.read p with
  | ok s => exact .pure _ t
  | error e => exact .pure _ t

/-- An access that succeeds has made its change. -/
theorem eq_ok_of_access {x : StateM Session (Except AccessError Unit)}
    (change : FileTree → Except AccessError FileTree)
    (h : ∀ s, x s = s.update (change s.tree)) {p : Path}
    (does : Does (access p x) t (.ok ()) u) : change t = .ok u := by
  cases result : change t with
  | ok v =>
    obtain ⟨-, rfl⟩ := Acts.unique does (Acts.bind (acts_update change result h) (.pure _ v))
    rfl
  | error e =>
    cases (Acts.unique does (Acts.bind (acts_update_error change result h) (.pure _ t))).1

end Does

section Steady

variable {R : FileTree → FileTree → Prop} (frame : IsFrame R)

theorem steady_lift {x : StateM Session α} (hx : Steady R x) :
    Steady R (ExceptT.lift x : Job (StateM Session) α).run := by
  intro t
  obtain ⟨a, u, acts, related⟩ := hx t
  exact ⟨.ok a, u, does_lift acts, related⟩

include frame

theorem steady_pure (a : α) : Steady R (pure a : Job (StateM Session) α).run :=
  Steady.pure frame _

theorem steady_bind {x : Job (StateM Session) α} {f : α → Job (StateM Session) β}
    (hx : Steady R x.run) (hf : ∀ a, Steady R (f a).run) : Steady R (x >>= f).run := by
  rw [run_bind]
  refine Steady.bind frame hx fun result => ?_
  cases result with
  | ok a => exact hf a
  | error e => exact .pure frame _

theorem steady_note (level : Log.Level) (message : String) :
    Steady R (note (m := StateM Session) level message).run :=
  Steady.of_looking frame _ (does_note level message)

theorem steady_access {x : StateM Session (Except AccessError α)} (p : Path) (hx : Steady R x) :
    Steady R (access p x).run := by
  refine Steady.bind frame hx fun result => ?_
  cases result with
  | ok a => exact .pure frame _
  | error e => exact .pure frame _

theorem steady_makeDirectories (made : ∀ p t t', FileTree.makeDirectory t p = .ok t' → R t t')
    (p : Path) : Steady R (makeDirectories (m := StateM Session) p).run :=
  steady_access frame p (steady_ensureDirectories frame made _ p)

theorem steady_save (made : ∀ p t t', FileTree.makeDirectory t p = .ok t' → R t t')
    {p : Path} {s : String} (written : ∀ t t', FileTree.write t p s = .ok t' → R t t') :
    Steady R (save (m := StateM Session) p s).run := by
  have last : Steady R (access (m := StateM Session) p (Workspace.write p s)).run :=
    steady_access frame p (steady_update frame (fun _ => rfl) written)
  rw [save]
  split
  · split
    · exact steady_bind frame (steady_makeDirectories frame made _) fun _ => last
    · exact last
  · exact last

theorem steady_read (p : Path) : Steady R (read (m := StateM Session) p).run :=
  Steady.of_looking frame _ (does_read p)

theorem steady_isFile (p : Path) : Steady R (isFile (m := StateM Session) p).run :=
  steady_lift (.of_looking frame _ (acts_isFile p))

theorem steady_ofExcept (result : Except Failure α) :
    Steady R (ofExcept (m := StateM Session) result).run :=
  Steady.pure frame result

theorem steady_noteAll (log : Log) : Steady R (noteAll (m := StateM Session) log).run :=
  Steady.of_looking frame _ (does_noteAll log)

theorem steady_forM {f : α → Job (StateM Session) PUnit} {xs : List α}
    (hf : ∀ a ∈ xs, Steady R (f a).run) : Steady R (xs.forM f).run := by
  induction xs with
  | nil => exact steady_pure frame ()
  | cons a xs ih =>
    obtain ⟨first, others⟩ := List.forall_mem_cons.mp hf
    exact steady_bind frame first fun _ => ih others

theorem steady_foldlM {f : β → α → Job (StateM Session) β} {xs : List α}
    (hf : ∀ b, ∀ a ∈ xs, Steady R (f b a).run) (b : β) : Steady R (xs.foldlM f b).run := by
  induction xs generalizing b with
  | nil => exact steady_pure frame b
  | cons a xs ih =>
    refine steady_bind frame (hf b a List.mem_cons_self) fun b' => ih (fun c d hd => ?_) b'
    exact hf c d (List.mem_cons_of_mem _ hd)

theorem steady_mapM {f : α → Job (StateM Session) β} {xs : List α}
    (hf : ∀ a ∈ xs, Steady R (f a).run) : Steady R (xs.mapM f).run := by
  induction xs with
  | nil => exact steady_pure frame []
  | cons a xs ih =>
    obtain ⟨first, others⟩ := List.forall_mem_cons.mp hf
    rw [List.mapM_cons]
    refine steady_bind frame first fun b => ?_
    exact steady_bind frame (ih others) fun bs => steady_pure frame (b :: bs)

theorem steady_filesIn (directory : Path) :
    Steady R (filesIn (m := StateM Session) directory).run := by
  refine steady_bind frame (steady_access frame directory ?_) fun names => steady_pure frame _
  refine (Steady.of_looking frame _ (acts_listNames directory)).bind frame fun result => ?_
  cases result with
  | ok names => exact .pure frame _
  | error e => exact .pure frame _

end Steady

/-- A sequence of steady jobs that succeeds takes its first step successfully, and then the
others. -/
theorem Does.exists_of_bind {R R' : FileTree → FileTree → Prop} {x : Job (StateM Session) α}
    {f : α → Job (StateM Session) β} {t v : FileTree} {b : β} (hx : Steady R x.run)
    (hf : ∀ a, Steady R' (f a).run) (h : Does (x >>= f) t (.ok b) v) :
    ∃ a u, Does x t (.ok a) u ∧ Does (f a) u (.ok b) v := by
  obtain ⟨log, run⟩ := h []
  obtain ⟨a, s, first, others⟩ := exists_of_run_bind run
  exact ⟨a, s.tree, hx.acts_of_run first, (hf a).acts_of_run others⟩

end Job

/-- One run with an empty log shows what a steady job does. -/
theorem Job.does_of_perform {R : FileTree → FileTree → Prop}
    {job : Job (StateM Session) α} {t u : FileTree} {a : α} (steady : Steady R job.run)
    (result : ((Session.mk t []).perform job).1.toOption = some a)
    (tree : ((Session.mk t []).perform job).2.tree = u) : Job.Does job t (.ok a) u := by
  subst tree
  exact steady.acts_of_run (Prod.ext (eq_ok_of_toOption result) rfl)

/-! ### Trees that keep their files -/

/-- Every file is still there, if perhaps with another content. -/
def KeepsFiles (t t' : FileTree) : Prop :=
  ∀ place content, t.find? place = some (.file content) →
    ∃ content', t'.find? place = some (.file content')

theorem isFrame_keepsFiles : IsFrame KeepsFiles where
  refl _ _ content h := ⟨content, h⟩
  trans h h' place content found := by
    obtain ⟨content', found'⟩ := h place content found
    exact h' place content' found'

theorem isFrame_eq : IsFrame Eq where
  refl _ := rfl
  trans h h' := h.trans h'

theorem keepsFiles_put {t : FileTree} {place : Place} {node : Node}
    (h : node.isFile = true ∨ t.find? place = none) : KeepsFiles t (t.put place node) := by
  intro other content found
  by_cases here : other = place
  · subst here
    have inside : other ≠ [] := by
      rintro rfl
      simp [FileTree.find?] at found
    rw [FileTree.find?_put_self inside]
    rcases h with isFile | missing
    · cases node with
      | directory => cases isFile
      | file content' => exact ⟨content', rfl⟩
    · rw [missing] at found
      cases found
  · rw [FileTree.find?_put_of_ne here]
    exact ⟨content, found⟩

theorem keepsFiles_write {p : Path} {s : String} {t t' : FileTree} (h : t.write p s = .ok t') :
    KeepsFiles t t' := by
  obtain ⟨⟨directory, name⟩, -, h⟩ := exists_of_bind_ok h
  cases name with
  | none => cases h
  | some name =>
    dsimp only at h
    split at h
    · cases h
    · obtain ⟨spot, -, h⟩ := exists_of_bind_ok h
      cases spot with
      | inside place =>
        dsimp only at h
        split at h
        · cases h
        · cases h
          exact keepsFiles_put (.inl rfl)
      | above => cases h
      | nowhere => cases h

theorem keepsFiles_makeDirectory {p : Path} {t t' : FileTree} (h : t.makeDirectory p = .ok t') :
    KeepsFiles t t' := by
  obtain ⟨⟨directory, name⟩, -, h⟩ := exists_of_bind_ok h
  cases name with
  | none => cases h
  | some name =>
    obtain ⟨spot, -, h⟩ := exists_of_bind_ok h
    cases missing : t.look? spot with
    | some node =>
      rw [missing] at h
      cases spot <;> cases h
    | none =>
      rw [missing] at h
      cases spot with
      | inside place =>
        cases h
        exact keepsFiles_put (.inr missing)
      | above => cases h
      | nowhere => cases h

namespace Job

theorem steady_makeDirectories_keepsFiles (p : Path) :
    Steady KeepsFiles (makeDirectories (m := StateM Session) p).run :=
  steady_makeDirectories isFrame_keepsFiles (fun _ _ _ => keepsFiles_makeDirectory) p

theorem steady_save_keepsFiles (p : Path) (s : String) :
    Steady KeepsFiles (save (m := StateM Session) p s).run :=
  steady_save isFrame_keepsFiles (fun _ _ _ => keepsFiles_makeDirectory) fun _ _ => keepsFiles_write

end Job

end Polyglot
