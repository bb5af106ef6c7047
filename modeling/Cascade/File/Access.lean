import Cascade.File.Path
import Cascade.Text.Utf8

/-!
# Access to files

What reads files is told how: an access says what a path holds. Accesses differ in where the files
are, so the logic that uses them can be run on files kept in memory as well as on those of a system.
-/
namespace Cascade

/-- Why a file cannot be read. -/
inductive FileError where
  /-- Nothing is at the path. -/
  | notFound
  /-- The path leads through something that is no folder. -/
  | notFolder
  /-- A folder is at the path. -/
  | isFolder
  /-- The bytes of the file are no text. -/
  | notText
  /-- Anything else, in the words of the system. -/
  | other (reason : String)
  deriving DecidableEq, Repr

/-- The wording of a file error. -/
def FileError.message : FileError → String
  | .notFound => "no such file"
  | .notFolder => "a part of the path is no folder"
  | .isFolder => "the path leads to a folder"
  | .notText => "the file is not valid UTF-8"
  | .other reason => reason

/-- How files are read. -/
structure FileAccess (m : Type → Type) where
  /-- The bytes of the file at a path. -/
  read : String → m (Except FileError ByteArray)
  /-- Whether a path leads to a file. -/
  isFile : String → m Bool

/-- The text of the file at a path. -/
def FileAccess.readText {m : Type → Type} [Monad m] (access : FileAccess m) (path : String) :
    m (Except FileError String) := do
  match ← access.read path with
  | .error error => return .error error
  | .ok bytes =>
    match Utf8.decode bytes with
    | .ok text => return .ok text
    | .error _ => return .error .notText

end Cascade
