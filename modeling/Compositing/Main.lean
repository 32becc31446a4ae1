import Compositing.Console.Run

/-! # The program

    Reads the files that the command line names, runs it and prints what it
    leaves. -/

namespace Compositing.Console

/-- Reads a file. -/
def readFile (name : String) : IO (Except FileError ByteArray) := do
  try
    return .ok (← IO.FS.readBinFile name)
  catch error =>
    match error with
    | .noFileOrDirectory .. => return .error .missing
    | .inappropriateType _ 20 _ => return .error .insideFile
    | .inappropriateType _ 21 _ => return .error .isFolder
    | error => return .error (.other (toString error))

end Compositing.Console

def main (words : List String) : IO UInt32 := do
  let files ← (Compositing.Console.fileNames words).mapM fun name => do
    return (name, ← Compositing.Console.readFile name)
  let bytes (name : String) :=
    ((files.find? (·.1 == name)).map (·.2)).getD (.error Compositing.FileError.missing)
  let outcome := Compositing.Console.run words (← IO.getEnv "RUST_LOG")
    { bytes, isFile := fun name => (bytes name).isOk }
  (← IO.getStdout).putStr outcome.output
  (← IO.getStderr).putStr outcome.errors
  return UInt32.ofNat outcome.code
