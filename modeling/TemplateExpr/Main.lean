/-
  The command itself: it collects what the invocation needs, and prints what comes out.
-/
import TemplateExpr.CommandLine.Run

namespace TemplateExpr.CommandLine

/-- All bytes of the standard input. -/
partial def readInput (stream : IO.FS.Stream) (seen : ByteArray) : IO ByteArray := do
  let bytes ← stream.read 65536
  if bytes.isEmpty then return seen
  readInput stream (seen ++ bytes)

/-- The content of a file, or why there is none. -/
def readFile (path : String) : IO (Except FileFault String) := do
  try
    let bytes ← IO.FS.readBinFile path
    return textOfBytes bytes
  catch
    | .noFileOrDirectory .. => return .error .missing
    | e => return .error (.other (toString e))

/-- The files that an invocation names, as they are now. -/
def collectFiles (paths : List String) : IO Files := do
  let found ← paths.mapM fun path => do return (path, ← readFile path)
  return fun path => (found.lookup path).getD (.error .missing)

def Outcome.print (outcome : Outcome) : IO UInt32 := do
  (← IO.getStdout).putStr outcome.stdout
  (← IO.getStderr).putStr outcome.stderr
  return outcome.exit.toUInt32

end TemplateExpr.CommandLine

open TemplateExpr.CommandLine in
def main (arguments : List String) : IO UInt32 := do
  match Invocation.ofArguments arguments with
  | .error stop => stop.outcome.print
  | .ok invocation =>
    let input ← if invocation.needsInput then readInput (← IO.getStdin) ByteArray.empty
      else pure ByteArray.empty
    let files ← collectFiles invocation.paths
    (invocation.outcome files input).print
