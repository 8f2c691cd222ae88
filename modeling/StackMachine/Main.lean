import StackMachine.Command.Process

/-!
# The executable

The outer layer: it looks at the files that `Command.plan` needs, carries the plan out, and gives
the exit code. Every decision is the plan's.
-/

namespace StackMachine.Command

/-- What the system's refusal says. -/
def FileFault.ofError : IO.Error → FileFault
  | .noFileOrDirectory _ _ _ => .notFound
  | .inappropriateType _ 20 _ => .notDirectory
  | .inappropriateType _ 21 _ => .isDirectory
  | .inappropriateType _ code details => .other s!"{details} (os error {code})"
  | .invalidArgument _ code details => .other s!"{details} (os error {code})"
  | .permissionDenied _ code details => .other s!"{details} (os error {code})"
  | .resourceExhausted _ code details => .other s!"{details} (os error {code})"
  | error => .other error.toString

/-- Looks at a file. -/
def FileView.ofPath (path : String) : IO FileView := do
  match ← (IO.FS.Handle.mk path .read).toBaseIO with
  | .error error => return .closed (.ofError error)
  | .ok handle =>
    match ← handle.readBinToEnd.toBaseIO with
    | .error error => return .unreadable (.ofError error)
    | .ok content => return .bytes content

/-- The executable that is running. -/
def Executable.current : IO Executable := do
  let path := (← IO.appPath).toString
  return { path, view := ← FileView.ofPath path }

/-- How many instructions run between two writes of the output. -/
def slice : Nat := 4096

/-- Runs a machine to its end and prints what it writes, whether or not anyone takes it. -/
partial def runToEnd (p : Program) (limit : Option Nat) (m : Machine) : IO Machine := do
  let m := m.runSlice p limit slice
  let stdout ← IO.getStdout
  let _ ← (do stdout.putStr (printedLines m.output); stdout.flush : IO Unit).toBaseIO
  if m.phase = .running then runToEnd p limit { m with output := #[], stores := #[] } else return m

/-- Reports a failure. -/
def reportFailure (failure : Failure) : IO UInt32 := do
  IO.eprint failure.report
  return failureCode.toUInt32

/-- Writes an executable that carries a file. -/
def writeExecutable (host : ByteArray) (file output : String) : IO UInt32 := do
  match ← (IO.FS.Handle.mk output .write).toBaseIO with
  | .error error => reportFailure (.cannotCreate output (.ofError error))
  | .ok handle =>
    let source ← IO.FS.readBinFile file
    handle.write (Payload.embed host source)
    handle.flush
    let all := { read := true, write := true, execution := true : IO.AccessRight }
    let use := { read := true, execution := true : IO.AccessRight }
    IO.setAccessRights output { user := all, group := use, other := use }
    IO.eprint (embedReport file output source.size)
    return 0

/-- The commands, for those whose arguments are not understood. -/
def usageText : String :=
  "usage: imp run FILE [--param NAME=VALUE]... [--max-steps N] [ADDR:VALUE]...\n" ++
  "       imp embed FILE --output OUT\n" ++
  "       imp dump FILE [--json]\n"

/-- Carries a plan out. -/
def Action.perform : Action → IO UInt32
  | .usage => do
    IO.eprint usageText
    return failureCode.toUInt32
  | .fail failure => reportFailure failure
  | .print text => do
    let stdout ← IO.getStdout
    match ← (do stdout.putStr text; stdout.flush : IO Unit).toBaseIO with
    | .error error => reportFailure (.cannotPrint (.ofError error))
    | .ok () => return 0
  | .run program limit => do
    if (← IO.getEnv "IMP_DEBUG_PROGRAM").isSome then IO.eprint (programReport program)
    let m ← runToEnd program limit (Machine.start {} program)
    match m.result? with
    | some (.error fault) => reportFailure (.execution m.steps fault)
    | _ => return 0
  | .embed host file output => writeExecutable host file output

end StackMachine.Command

open StackMachine.Command in
/-- The command line. -/
def main (args : List String) : IO UInt32 := do
  let executable ← Executable.current
  let view ← match sourceFile? executable args with
    | some file => FileView.ofPath file
    | none => pure (.closed .notFound)
  (plan executable (fun _ => view) args).perform
