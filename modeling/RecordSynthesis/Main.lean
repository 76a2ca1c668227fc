import RecordSynthesis.Command.Run

/-!
# The command

Reads the files that a command line names, runs it over them and writes what it comes to.
-/

namespace RecordSynthesis

set_option autoImplicit false

def FileState.ofFailure : IO.Error → FileState
  | .permissionDenied .. => .file (.error .noAccess)
  | .inappropriateType _ code _ => .noFile (if code = 20 then .notDirectory else .isDirectory)
  | .invalidArgument .. => .noFile .nameTooLong
  | _ => .noFile .notFound

def fileState (path : String) : IO FileState := do
  match ← (IO.FS.readBinFile path).toBaseIO with
  | .error failure => return .ofFailure failure
  | .ok bytes =>
    match String.fromUTF8? bytes with
    | some text => return .file (.ok text)
    | none => return .file (.error .notText)

def viewOf (paths : List String) : IO FileView := do
  let found ← paths.mapM fun path => return (path, ← fileState path)
  return fun path => (found.lookup path).getD (.noFile .notFound)

def environmentSettings : IO LogSettings := do
  return .ofEnvironment (← IO.getEnv "KILN_LOG_LEVEL") (← IO.getEnv "KILN_LOG_FORMAT")

end RecordSynthesis

open RecordSynthesis in
def main (arguments : List String) : IO UInt32 := do
  let paths := ((Invocation.ofArguments? arguments).map Invocation.paths).getD []
  let outcome := runCommand (← viewOf paths) (← environmentSettings) arguments
  for event in outcome.events do
    IO.eprintln (event.level.tag ++ " " ++ event.message)
  for notice in outcome.notices do
    IO.eprint notice.write
  IO.print outcome.output
  return UInt32.ofNat outcome.status
