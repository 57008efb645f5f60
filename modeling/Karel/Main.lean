import Karel.Command

/-!
# The program

Reads the files that the arguments name, and the standard input, and writes the output of the
command. All else is decided by `runCommand`.
-/

namespace Karel

/-- The fault that a failed access to a file shows. -/
def faultOf : IO.Error → ReadFault
  | .inappropriateType .. => .notADirectory
  | .permissionDenied .. => .notPermitted
  | _ => .notFound

/-- The node at a path, with all that lies below it. -/
partial def readNode (path : String) : IO Node := do
  let location := System.mkFilePath [path]
  if ← location.isDir then
    let entries ← location.readDir
    let nodes ← entries.toList.mapM fun entry => do
      return (entry.fileName, ← readNode (joinPath path entry.fileName))
    return .directory nodes
  else
    return .file (← IO.FS.readBinFile location)

/-- What a path leads to. -/
def readPath (path : String) : IO (String × Except ReadFault Node) := do
  try
    return (path, .ok (← readNode path))
  catch error =>
    return (path, .error (faultOf error))

/-- All bytes of a stream. -/
partial def readAll (stream : IO.FS.Stream) (read : ByteArray) : IO ByteArray := do
  let bytes ← stream.read 65536
  if bytes.isEmpty then return read
  readAll stream (read ++ bytes)

/-- The standard input, if the task needs it. -/
def readStdin : Task → IO ByteArray
  | .tokens none _ | .parse none _ => do readAll (← IO.getStdin) ByteArray.empty
  | _ => return ByteArray.empty

end Karel

open Karel in
/-- Runs the program on the arguments of the command line. -/
def main (arguments : List String) : IO UInt32 := do
  let (paths, stdin) ← match Demand.ofArguments arguments with
    | .run invocation => do
      let nodes ← invocation.paths.mapM readPath
      pure (nodes, ← readStdin invocation.task)
    | _ => pure ([], ByteArray.empty)
  let files : Files := fun path => (paths.lookup path).getD (.error .notFound)
  let output := runCommand files stdin arguments
  (← IO.getStdout).putStr output.stdout
  (← IO.getStderr).putStr output.stderr
  return output.exitCode.toUInt32
