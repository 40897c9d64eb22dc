-- SUMMARY: The program: fetches what a run needs, and writes what it leaves behind.
import LoxLexer.CommandLine.Run

/-!
# The program

All decisions are those of `CommandLine.run`. Here the file or the standard input
that it asks for is fetched, and its result is written in the briefest wording. The
environment is not searched for a filter of the log.
-/

open LoxLexer.CommandLine

/-- Reads a file, with the reason if that fails. A directory can be opened and only
fails to be read, so that failure names no file; a path through a file cannot even
be opened. That a name is too long is told by the code of the failure, which is
negative. -/
def LoxLexer.CommandLine.fetch (path : String) : IO (Except ReadFailure (List UInt8)) := do
  try
    return .ok (← IO.FS.readBinFile path).toList
  catch
    | .inappropriateType none .. => return .error .isDirectory
    | .inappropriateType (some _) .. => return .error .notDirectory
    | .invalidArgument _ code _ => return .error (if code = -36 then .nameTooLong else .missing)
    | _ => return .error .missing

def main (arguments : List String) : IO UInt32 := do
  let result ← match options arguments with
    | .error _ => pure (run arguments (fun _ => .error .missing) [])
    | .ok { file := some path, .. } => do
      let content ← fetch path
      pure (run arguments (fun _ => content) [])
    | .ok _ => do
      let input ← (← IO.getStdin).readBinToEnd
      pure (run arguments (fun _ => .error .missing) input.toList)
  (← IO.getStderr).putStr result.errorText
  (← IO.getStdout).putStr result.output
  return result.status.code.toUInt32
