import AllowedValues.Command.Outcome

/-!
The command itself: reads the files that a command line asks for, prints the outcome and ends with
its status.
-/

namespace AllowedValues.Command

/-- Why the system has no bytes for a path. -/
def readFault : IO.Error → Files.Fault
  | .noFileOrDirectory .. => .notFound
  | .inappropriateType _ code _ =>
      if code = 21 || code = 0 - 21 then .isDirectory else .notDirectory
  | e => .other (toString e).toList

def readContents (path : Text) : IO Files.Contents := do
  try
    return Files.Contents.ofBytes (← IO.FS.readBinFile (String.ofList path))
  catch e =>
    return .error (readFault e)

/-- Reads files, each with its path. -/
def readAll (paths : List Text) : IO (List (Text × Files.Contents)) :=
  paths.mapM fun path => return (path, ← readContents path)

def carryOut (arguments : List Text) : IO Outcome := do
  let paths := match Invocation.ofArguments arguments with
    | .ok invocation => invocation.paths
    | .error _ => []
  let files ← readAll paths
  return outcome (fun path => (files.lookup path).getD (.error .notFound)) arguments

end AllowedValues.Command

def main (arguments : List String) : IO UInt32 := do
  let outcome ← AllowedValues.Command.carryOut (arguments.map String.toList)
  IO.print (String.ofList outcome.output)
  if let some complaint := outcome.complaint? then
    IO.eprintln (String.ofList (complaint ++ outcome.detail?.getD []))
  return UInt32.ofNat outcome.status
