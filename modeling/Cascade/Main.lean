import Cascade.Command.Run

/-!
# The program

Reads files where the system has them and writes a report to the standard streams.
-/
namespace Cascade.Main

/-- The cause of a failure to read a file. -/
def fileError : IO.Error → FileError
  | .noFileOrDirectory .. => .notFound
  | error => .other (toString error)

/-- The files of the system. -/
def systemFiles : FileAccess IO where
  read path := do
    try
      return .ok (← IO.FS.readBinFile path)
    catch error => return .error (fileError error)
  isFile path := do
    try
      let metadata ← ((← IO.currentDir) / path).metadata
      return metadata.type == .file
    catch _ => return false

end Cascade.Main

/-- Does what the arguments ask for and exits as the report says. -/
def main (arguments : List String) : IO UInt32 := do
  let stderr ← IO.getStderr
  let outcome ← Cascade.Command.run Cascade.Main.systemFiles (← stderr.isTty) arguments
  let report := outcome.report
  IO.print report.output
  IO.eprint report.notes
  return UInt32.ofNat report.exit
