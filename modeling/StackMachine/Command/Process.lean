import StackMachine.Command.Line
import StackMachine.Json.Listing
import StackMachine.Payload

/-!
# What a process does

`plan` decides what a process does from its arguments, its own executable and the files it can read:
it fails, prints, runs a program or writes an executable. The plan is a value, and whoever carries
it out adds no decision of its own. An executable that carries a program runs that; one that cannot
be read counts as carrying none.
-/

namespace StackMachine.Command

/-! ## Files -/

/-- Why the system refuses a file. -/
inductive FileFault where
  | notFound
  | notDirectory
  | isDirectory
  | nameTooLong
  /-- Anything else, in the system's own words. -/
  | other (message : String)
  deriving DecidableEq

/-- The system's wording of a fault. -/
def FileFault.message : FileFault → String
  | notFound => "No such file or directory (os error 2)"
  | notDirectory => "Not a directory (os error 20)"
  | isDirectory => "Is a directory (os error 21)"
  | nameTooLong => "File name too long (os error 36)"
  | other message => message

/-- A file as a process finds it. -/
inductive FileView where
  /-- It cannot be opened. -/
  | closed (fault : FileFault)
  /-- It can be opened and not be read. -/
  | unreadable (fault : FileFault)
  /-- It holds these bytes. -/
  | bytes (content : ByteArray)

/-! ## Failures -/

/-- Why a process fails. -/
inductive Failure where
  | cannotOpen (path : String) (fault : FileFault)
  | cannotAssemble (path : String) (error : Assembly.Error)
  | cannotCreate (path : String) (fault : FileFault)
  /-- Standard output takes nothing. -/
  | cannotPrint (fault : FileFault)
  | invalidPayload (path : String) (fault : Payload.Fault)
  | nameClash (clash : NameClash)
  | boot (fault : BootFault)
  | execution (steps : Nat) (fault : Fault)
  deriving DecidableEq

/-- The wording of a failure, the outermost cause first. A text that cannot be read is worded with
its cause, which then follows once more on its own. -/
def Failure.message : Failure → String
  | cannotOpen path fault => s!"failed to open {path}: {fault.message}"
  | cannotAssemble path (.unreadable cause) =>
    s!"failed to assemble {path}: {(Assembly.Error.unreadable cause).message}: {cause.message}"
  | cannotAssemble path error => s!"failed to assemble {path}: {error.message}"
  | cannotCreate path fault => s!"failed to create {path}: {fault.message}"
  | cannotPrint fault => fault.message
  | invalidPayload path fault => s!"invalid program embedded in {path}: {fault.message}"
  | nameClash clash => clash.message
  | boot fault => fault.message
  | execution steps fault => executionFailure steps fault

/-! ## Plans -/

/-- What a process is to do. -/
inductive Action where
  /-- The arguments are not understood. -/
  | usage
  | fail (failure : Failure)
  /-- Prints a text. -/
  | print (text : String)
  /-- Runs a program on an empty memory. -/
  | run (program : Program) (limit : Option Nat)
  /-- Writes a copy of the host image that carries a file. -/
  | embed (host : ByteArray) (file output : String)

/-- The executable of a process. -/
structure Executable where
  path : String
  view : FileView

/-- The program that an executable carries. -/
def Executable.load (e : Executable) : Except Failure (Option Assembly.Assembled) :=
  match e.view with
  | .bytes image =>
    match Payload.load image with
    | .error fault => .error (.invalidPayload e.path fault)
    | .ok found => .ok found
  | _ => .ok none

/-- Assembles a file as it is found. -/
def readSource (path : String) : FileView → Except Failure Assembly.Assembled
  | .closed fault => .error (.cannotOpen path fault)
  | .unreadable fault => .error (.cannotAssemble path (.unreadable (.system fault.message)))
  | .bytes source =>
    match Assembly.assemble source with
    | .error error => .error (.cannotAssemble path error)
    | .ok a => .ok a

/-- Runs an assembled program as the user asks. -/
def planRun (a : Assembly.Assembled) (opts : RunOptions) : Action :=
  match bootProgram a opts with
  | .error fault => .fail (.boot fault)
  | .ok program => .run program opts.maxSteps

/-- The text that an assembled source is printed as. -/
def dumpText (a : Assembly.Assembled) (json : Bool) : String :=
  if json then a.toJson.pretty ++ "\n" else a.text

/-- Carries out an invocation. -/
def planInvocation (e : Executable) (view : String → FileView) : Invocation → Action
  | .run file opts =>
    match readSource file (view file) with
    | .error failure => .fail failure
    | .ok a => planRun a opts
  | .embed file output =>
    match readSource file (view file), e.view with
    | .error failure, _ => .fail failure
    | .ok _, .bytes host => .embed host file output
    | .ok _, .closed fault => .fail (.cannotOpen e.path fault)
    | .ok _, .unreadable fault => .fail (.cannotOpen e.path fault)
  | .dump file json =>
    match readSource file (view file) with
    | .error failure => .fail failure
    | .ok a => .print (dumpText a json)

/-- Runs the program that an executable carries. -/
def planProgram (a : Assembly.Assembled) (args : List String) : Action :=
  match programOptions a.header with
  | .error clash => .fail (.nameClash clash)
  | .ok specs =>
    match readProgramOptions a.header specs args with
    | none => .usage
    | some opts => planRun a opts

/-- What a process does. -/
def plan (e : Executable) (view : String → FileView) (args : List String) : Action :=
  match e.load with
  | .error failure => .fail failure
  | .ok (some a) => planProgram a args
  | .ok none =>
    match Invocation.read args with
    | none => .usage
    | some i => planInvocation e view i

/-- The file that a process reads, if there is one. -/
def sourceFile? (e : Executable) (args : List String) : Option String :=
  match e.load with
  | .ok none => (Invocation.read args).map Invocation.file
  | _ => none

/-- An invocation reads no file but its own. -/
theorem planInvocation_congr (e : Executable) {view view' : String → FileView} (i : Invocation)
    (h : view i.file = view' i.file) :
    planInvocation e view i = planInvocation e view' i := by
  cases i <;> simp only [Invocation.file] at h <;> simp only [planInvocation, h]

/-- A process reads no file but the one that `sourceFile?` names, so that file alone need be looked
at before it is planned. -/
theorem plan_congr (e : Executable) {view view' : String → FileView} (args : List String)
    (h : ∀ file, sourceFile? e args = some file → view file = view' file) :
    plan e view args = plan e view' args := by
  unfold plan
  unfold sourceFile? at h
  split
  · rfl
  · rfl
  · rename_i hload
    rw [hload] at h
    split
    · rfl
    · rename_i i hread
      exact planInvocation_congr e i (h _ (by simp [hread]))

/-! ## Outcomes -/

/-- What is left of a process that has ended. -/
structure Outcome where
  code : Nat := 0
  stdout : String := ""
  stderr : String := ""

/-- The exit code of a process that fails or does not understand its arguments. -/
def failureCode : Nat := 2

/-- What a failing process writes. -/
def Failure.report (failure : Failure) : String := s!"Error: {failure.message}\n"

/-- What a process writes before it runs a program, if it is asked to show it. -/
def programReport (p : Program) : String := s!"-- program ({p.size} instructions) --\n{p.text}"

/-- What a process writes when it has written an executable. -/
def embedReport (file output : String) (size : Nat) : String :=
  s!"Embedded {file} ({size} bytes) into {output}\n"

/-- A process that fails. -/
def Outcome.ofFailure (failure : Failure) : Outcome :=
  { code := failureCode, stderr := failure.report }

/-- A process that prints a text. -/
def Outcome.ofPrint (text : String) : Outcome := { stdout := text }

/-- A process whose program has run on this machine. -/
def Outcome.ofRun (m : Machine) : Outcome :=
  match m.result? with
  | some (.error fault) =>
    { ofFailure (.execution m.steps fault) with stdout := printedLines m.output }
  | _ => { stdout := printedLines m.output }

/-- The outcome of a process whose standard output takes nothing: printing fails unless there is
nothing to print, and the output of a program is lost. -/
def Outcome.ofPrintNowhere (text : String) : Outcome :=
  if text = "" then {}
  else ofFailure (.cannotPrint (.other "No space left on device (os error 28)"))

end StackMachine.Command
