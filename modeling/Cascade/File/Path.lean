/-!
# Paths

A path is a text whose pieces stand between slashes. Empty pieces and dots name nothing, except that
a dot at the very start of a relative path names the folder the path starts in. What surrounds a
file is found on the text alone: the folder is written as the path has it.
-/
namespace Cascade.Path

/-- The pieces of a path, empty ones included. -/
def pieces (path : String) : List String :=
  (path.toList.splitOn '/').map String.ofList

/-- Whether a piece names something; the first of a relative path may be a dot. -/
def names (isFirst : Bool) (piece : String) : Bool :=
  piece ≠ "" && (piece ≠ "." || isFirst)

/-- Pieces from the last to the first, without those at the end that name nothing. -/
def dropUnnamed : List String → List String
  | [] => []
  | piece :: earlier =>
    if names earlier.isEmpty piece then piece :: earlier else dropUnnamed earlier

/-- The folder around a path; empty for a path of at most one piece that is relative. -/
def parent (path : String) : String :=
  match dropUnnamed (pieces path).reverse with
  | [] => ""
  | _ :: earlier =>
    match dropUnnamed earlier with
    | [] => if path.toList.head? = some '/' then "/" else ""
    | around => "/".intercalate around.reverse

/-- A path inside a folder. -/
def join (folder name : String) : String :=
  if folder = "" then name
  else if folder.toList.getLast? = some '/' then folder ++ name
  else folder ++ "/" ++ name

/-- A path beside another one. -/
def beside (path name : String) : String := join (parent path) name

end Cascade.Path
