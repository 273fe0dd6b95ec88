import Datalog.CommandLine.Run

/-!
# The program

The only module that talks to the world: it fetches the arguments, the
environment and the bytes that a run asks for, and hands on what the run leaves
behind.
-/

set_option autoImplicit false

namespace Datalog.CommandLine

/-- The number that the system gives to a cause.  Some reports have it with the
sign turned. -/
def causeNumber (code : UInt32) : Nat := min code.toNat (-code).toNat

/-- Why a file cannot be read, from the report of the system. -/
def ReadError.ofSystem : IO.Error → ReadError
  | .noFileOrDirectory _ _ _ => .notFound
  | .permissionDenied _ _ _ => .notPermitted
  | .inappropriateType _ code _ =>
    if causeNumber code = 20 then .notDirectory else .isDirectory
  | .invalidArgument _ code cause =>
    if causeNumber code = 36 then .nameTooLong else .other cause
  | error => .other error.toString

/-- The bytes of a file. -/
def fetch (path : String) : IO (Except ReadError ByteArray) := do
  try return .ok (← IO.FS.readBinFile path)
  catch error => return .error (.ofSystem error)

end Datalog.CommandLine

open Datalog.CommandLine in
/-- Runs the program. -/
def main (arguments : List String) : IO UInt32 := do
  let directives? ← IO.getEnv "RUST_LOG"
  let path? := (Options.ofArguments arguments).toOption.bind Options.input?
  let contents ← match path? with
    | some path => fetch path
    | none => pure (.error .notFound)
  let input ←
    if (Options.ofArguments arguments).isOk && path?.isNone then (← IO.getStdin).readBinToEnd
    else pure .empty
  let outcome := run arguments directives? (fun _ => contents) input
  (← IO.getStderr).putStr outcome.errors
  (← IO.getStdout).putStr outcome.output
  return outcome.code.toUInt32
