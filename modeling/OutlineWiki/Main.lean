import OutlineWiki.Command.Outcome

/-!
The command on the real file system.
-/

namespace OutlineWiki

/-- What the system reports, as far as the command tells faults apart. -/
def FileError.ofSystem : IO.Error → FileError
  | .noFileOrDirectory .. => .notFound
  | .inappropriateType _ 21 _ => .isDirectory
  | .inappropriateType .. => .notDirectory
  | error => .other (toString error)

/-- The real file system. -/
def realFiles : FileSystem IO where
  read path := do
    match ← (IO.FS.readBinFile path).toBaseIO with
    | .ok bytes => return .ok bytes
    | .error error => return .error (FileError.ofSystem error)
  write path bytes := do
    match ← (IO.FS.writeBinFile path bytes).toBaseIO with
    | .ok () => return .ok ()
    | .error error => return .error (FileError.ofSystem error)

end OutlineWiki

open OutlineWiki in
def main (arguments : List String) : IO UInt32 := do
  let outcome ← runCommand realFiles arguments
  IO.print (String.ofList outcome.printed)
  IO.eprint (String.ofList outcome.reported)
  return outcome.status
