import Subleq.SelfCheck.Suites

/-!
# The command line

Connects the program to the terminal and the disk. What a line does is decided by `Session.enter`
alone. This layer shows prompts, passes lines on, prints the screen and writes log records. When a
line asks for a file, the records so far are written, the file is fetched, and the line is then
taken again from the same session.
-/

namespace Subleq.CommandLine

/-- The bounds of a session at the terminal. -/
def limits : Limits := { fuel := Nat.pow 2 50, nesting := 490, room := .ordinary }

/-- The answers of the disk so far: how many events were noted when a file was asked for, its path,
and the answer. -/
abbrev Fetched := List ((Nat × String) × Except FileFault (List UInt8))

/-- The disk that knows the fetched files. -/
def Fetched.disk (fetched : Fetched) : LiveDisk :=
  fun journal path => List.lookup (journal.events.size, path) fetched

/-- Why the system refused a file. -/
def refusal (path : String) : IO.Error → FileFault
  | .noFileOrDirectory _ _ _ => .missing path
  | .inappropriateType _ 20 _ => .notDirectory path
  | .inappropriateType _ 21 _ => .isDirectory path
  | .permissionDenied _ number text => .other number.toNat text path
  | other => .other 5 (toString other) path

def fetch (path : String) : IO (Except FileFault (List UInt8)) := do
  match ← (IO.FS.readBinFile path).toBaseIO with
  | .ok bytes => return .ok bytes.toList
  | .error reason => return .error (refusal path reason)

/-- Starts a session, fetching its image. -/
partial def start (options : Options) (fetched : Fetched) :
    IO (Except (Fault × Journal) Session) := do
  match Session.start limits.room fetched.disk options.image options.bits with
  | .error (.file (.unfetched path), journal) =>
      start options (((journal.events.size, path), ← fetch path) :: fetched)
  | started => return started

/-- Writes the events from a position of the journal on where the logging sends them. -/
def logFrom (logging : Logging) (position : Nat) (journal : Journal) : IO Unit := do
  let records := journal.records.drop position
  IO.eprint (logging.consoleText records)
  match logging.file with
  | none => return
  | some path =>
      let handle ← IO.FS.Handle.mk path .append
      handle.putStr (logging.fileText records)

/-- Takes a line, fetching the files it asks for, where the events up to a position of the journal
are already written. -/
partial def enter (logging : Logging) (session : Session) (position : Nat) (fetched : Fetched)
    (line : String) : IO (Session × Outcome) := do
  let (taken, outcome) := session.enter limits fetched.disk line
  let journal := taken.host.journal
  logFrom logging position journal
  match outcome with
  | .escaped (.file (.unfetched path)) =>
      let answer ← fetch path
      let noted := journal.events.size
      enter logging session noted (((noted, path), answer) :: fetched) line
  | outcome => return (taken, outcome)

/-- Prints the screen of a session and clears it. -/
def flush (session : Session) : IO Session := do
  IO.print session.screen
  (← IO.getStdout).flush
  return { session with screen := "" }

/-- Prints a fault that nothing handled. -/
def complain (fault : Fault) : IO UInt32 := do
  IO.eprintln ("subleq: " ++ fault.message)
  return 1

/-- Takes lines until the input ends, a line quits, or a fault escapes. -/
partial def converse (logging : Logging) (session : Session) : IO UInt32 := do
  IO.print (Shell.prompt session)
  (← IO.getStdout).flush
  let typed ← (← IO.getStdin).getLine
  if typed.isEmpty then
    IO.println Shell.endMessage
    return 0
  let position := session.host.journal.events.size
  let (session, outcome) ← enter logging session position [] (Session.scriptLine typed)
  let session ← flush session
  match outcome with
  | .done => converse logging session
  | .quit => return 0
  | .escaped fault => complain fault

def runSession (options : Options) (logging : Logging) : IO UInt32 := do
  match ← start options [] with
  | .error (fault, journal) =>
      logFrom logging 0 journal
      if fault.isOwn || fault.isRefusal then
        IO.eprint (Shell.bootComplaint fault)
        return 1
      else complain fault
  | .ok session =>
      logFrom logging 0 session.host.journal
      converse logging (← flush (session.printAll Shell.banner))

def runDemo (options : Options) (logging : Logging) : IO UInt32 := do
  let report := Shell.playDemo limits options .empty []
  IO.print report.output
  logFrom logging 0 report.journal
  match report.exit with
  | .returned code | .exited code => return code.toUInt32
  | .escaped fault => complain fault

/-- Checks the program itself. -/
def runChecks : IO UInt32 := do
  let results := SelfCheck.sessionSuite.run limits
  IO.eprint (SelfCheck.report results)
  return if SelfCheck.allPassed results then 0 else 1

/-- Empties the log file, if there is one. -/
def openLog (logging : Logging) : IO (Except ReadFault Unit) := do
  match logging.file with
  | none => return .ok ()
  | some path =>
      if path.toList.contains '\x00' then return .error .nullPath
      match ← (IO.FS.writeFile path "").toBaseIO with
      | .ok () => return .ok ()
      | .error reason => return .error (.refused (refusal path reason))

def run (options : Options) : IO UInt32 := do
  if options.test then runChecks
  else if options.bits < Memory.leastWidth then
    IO.eprint (Shell.widthComplaint options.bits)
    return 2
  else
    let logging := Logging.configure options.logFile options.debug false
    match ← openLog logging with
    | .error fault => complain (.file fault)
    | .ok () => if options.demo then runDemo options logging else runSession options logging

end Subleq.CommandLine

/-- Runs the program on its arguments and gives its exit code. -/
def main (arguments : List String) : IO UInt32 := do
  match Subleq.Options.read arguments with
  | .help =>
      IO.print Subleq.Options.helpText
      return 0
  | .refused reason =>
      IO.eprint (Subleq.Options.refusal reason)
      return 2
  | .options options => Subleq.CommandLine.run options
