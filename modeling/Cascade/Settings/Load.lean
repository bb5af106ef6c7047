import Cascade.File.Access
import Cascade.Settings.Basic

/-!
# Finding the settings of a source

A document that is asked for by its path is read or the run fails. Otherwise a document beside the
source is read if there is one, and if there is none the settings have their defaults.
-/
namespace Cascade

/-- Why settings cannot be had. -/
inductive SettingsError where
  /-- Their document cannot be read. -/
  | unreadable (path : String) (cause : FileError)
  /-- Their document is refused. -/
  | invalid (path : String) (cause : Json.JsonError)

/-- The wording of a settings error, without its cause. -/
def SettingsError.message : SettingsError → String
  | .unreadable path _ => s!"failed to read {path}"
  | .invalid path _ => s!"invalid config in {path}"

namespace Settings

variable {m : Type → Type} [Monad m]

/-- The name of a document beside a source. -/
def documentName : String := "sable.json"

/-- The settings of the document at a path. -/
def ofFile (access : FileAccess m) (path : String) : m (Except SettingsError Settings) := do
  match ← access.readText path with
  | .error cause => return .error (.unreadable path cause)
  | .ok document => return (parse document).mapError (.invalid path)

/-- The settings for a source, from an explicit document if there is one. -/
def load (access : FileAccess m) (explicit : Option String) (source : String) :
    m (Except SettingsError Settings) := do
  match explicit with
  | some path => ofFile access path
  | none =>
    let path := Path.beside source documentName
    if ← access.isFile path then ofFile access path else return .ok default

end Settings

end Cascade
