import Polyglot.Settings.Reader
import Polyglot.Text.Quoted
import Polyglot.Workspace

/-!
Configurations that are read from a file.
-/

namespace Polyglot

/-- Reads a configuration and checks it. -/
def Settings.load {m : Type → Type} [Monad m] [Workspace m] (path : Path) :
    m (Except SettingsError Settings) := do
  match ← Workspace.read path with
  | .ok text => return Settings.parse text
  | .error e =>
    return .error
      (.access ("Failed to read config file " ++ Text.quoted path.text ++ ": " ++ e.text))

end Polyglot
