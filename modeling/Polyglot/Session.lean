import Polyglot.FileTree.Access
import Polyglot.Workspace

/-!
A workspace that is a value: a file tree and what was logged.
-/

namespace Polyglot

structure Session where
  tree : FileTree := {}
  log : Log := []
  deriving DecidableEq, Repr

namespace Session

/-- Goes on with a changed tree, or with the same one after an error. -/
def update (s : Session) : Except AccessError FileTree → Except AccessError Unit × Session
  | .ok tree => (.ok (), { s with tree := tree })
  | .error e => (.error e, s)

instance : Workspace (StateM Session) where
  isFile path := fun s => pure ((s.tree.node? path).any Node.isFile, s)
  isDirectory path := fun s => pure (s.tree.node? path == some .directory, s)
  read path := fun s => pure (s.tree.read path, s)
  write path text := fun s => pure (s.update (s.tree.write path text))
  listNames path := fun s => pure (s.tree.listNames path, s)
  remove path := fun s => pure (s.update (s.tree.remove path))
  makeDirectory path := fun s => pure (s.update (s.tree.makeDirectory path))
  note entry := fun s => pure ((), { s with log := s.log ++ [entry] })

/-- The result of a job and the session behind it. -/
def perform {α : Type} (s : Session) (job : Job (StateM Session) α) : Except Failure α × Session :=
  job.run s

end Session

end Polyglot
