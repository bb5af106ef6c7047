import Cascade.File.Access

/-!
# Files in memory

A folder in memory lists what it holds by paths below it; the folders on the way to an entry exist
because the entry does. A path is followed piece by piece: a dot stays, two dots go back, and every
piece but the last has to lead to a folder, as has the last when a slash follows it.
-/
namespace Cascade

/-- What a path leads to. -/
inductive FolderEntry where
  /-- A file with its bytes. -/
  | file (bytes : ByteArray)
  /-- A folder. -/
  | folder

/-- Files and folders below a folder, by the names on the way to them. -/
structure Folder where
  /-- The entries. -/
  entries : List (List String × FolderEntry)

namespace Folder

/-- What stands at the end of a way of names. -/
def entry? (folder : Folder) (way : List String) : Option FolderEntry :=
  if way = [] then some .folder
  else
    match folder.entries.lookup way with
    | some found => some found
    | none => if folder.entries.any fun (other, _) => way.isPrefixOf other then some .folder else none

/-- Follows pieces of a path from a place, given by the way to it. -/
def follow (folder : Folder) : List String → List String → Except FileError (List String)
  | way, [] => .ok way
  | way, piece :: later =>
    match folder.entry? way with
    | none => .error .notFound
    | some (.file _) => .error .notFolder
    | some .folder =>
      if piece = "" ∨ piece = "." then folder.follow way later
      else if piece = ".." then
        if way = [] then .error .notFound else folder.follow way.dropLast later
      else folder.follow (way ++ [piece]) later

/-- What a path leads to from the folder. -/
def at? (folder : Folder) (path : String) : Except FileError FolderEntry := do
  if path = "" ∨ path.toList.head? = some '/' then .error .notFound
  else
    let way ← folder.follow [] (Path.pieces path)
    match folder.entry? way with
    | some found => .ok found
    | none => .error .notFound

/-- The bytes of the file at a path. -/
def read (folder : Folder) (path : String) : Except FileError ByteArray := do
  match ← folder.at? path with
  | .file bytes => .ok bytes
  | .folder => .error .isFolder

/-- Whether a path leads to a file. -/
def isFile (folder : Folder) (path : String) : Bool :=
  match folder.at? path with
  | .ok (.file _) => true
  | _ => false

/-- The access to the files of a folder. -/
def access (folder : Folder) : FileAccess Id := ⟨folder.read, folder.isFile⟩

end Folder

end Cascade
