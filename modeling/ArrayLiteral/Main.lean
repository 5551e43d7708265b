import ArrayLiteral.Program

/-!
# Entry point

Reads what `Program.run` needs from the file system and the standard input, and
prints its answer.
-/

open ArrayLiteral

/-- The bytes of a file. -/
def readPath (path : String) : IO (Except InputFault ByteArray) := do
  try
    return .ok (← IO.FS.readBinFile path)
  catch
    | .inappropriateType .. => return .error .isDirectory
    | .permissionDenied .. => return .error .denied
    | _ => return .error .missing

/-- The bytes of a stream up to its end, after those read already. -/
partial def readStream (stream : IO.FS.Stream) (read : ByteArray) : IO ByteArray := do
  let chunk ← stream.read 65536
  if chunk.isEmpty then return read else readStream stream (read ++ chunk)

/-- What the arguments make the program read. -/
def surroundingsFor (arguments : List String) : IO Surroundings := do
  let nothing : Surroundings := { standardInput := .empty, file := fun _ => .error .missing }
  match CommandLine.read arguments with
  | .run options =>
    match options.input with
    | .text _ => return nothing
    | .file path =>
      let contents ← readPath path
      return { nothing with file := fun _ => contents }
    | .standardInput => return { nothing with standardInput := ← readStream (← IO.getStdin) .empty }
  | _ => return nothing

def main (arguments : List String) : IO UInt32 := do
  let answer := Program.run arguments (← surroundingsFor arguments)
  IO.print answer.stdout
  IO.eprint answer.stderr
  return answer.exitCode
