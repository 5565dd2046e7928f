import Rematch.LineSearch
import Rematch.Regex.Search

/-! # The command line -/

namespace Rematch.Main

open LineSearch

/-- Why a file could not be read, as far as that can be told. -/
def readError : IO.Error → ReadError
  | .noFileOrDirectory .. => .notFound
  | .permissionDenied .. => .permissionDenied
  | .inappropriateType .. => .isDirectory
  | e => .other (toString e)

def readFile (path : String) : IO (Except ReadError Bytes) := do
  try
    let file ← IO.FS.readBinFile path
    pure (.ok file.toList)
  catch e => pure (.error (readError e))

end Rematch.Main

/-- Searches a file for an expression, line by line. -/
def main (args : List String) : IO UInt32 := do
  let report? ← Rematch.LineSearch.run Rematch.Regex.Program "simplegrep" Rematch.Main.readFile args
  match report? with
  | none => pure 1
  | some r =>
    IO.print r.stdout
    IO.eprint r.stderr
    pure r.code.toUInt32
