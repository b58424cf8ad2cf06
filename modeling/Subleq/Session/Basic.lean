import Subleq.Files.Tree
import Subleq.Host
import Subleq.Session.Command
import Subleq.Text.Justify

/-!
# Sessions

A session is a host with a current machine, the output of every machine so far, and a screen. Lines
go to the current machine; commands act on the host. Output waits in the host's queue until it is
drained: then it goes to the log of its machine, and to the screen if that machine is the current
one.

Every command is a function of the session and of the disk. What the disk holds may depend on the
journal, because a log of it can be one of the files. A command ends normally, quits the session, or
ends with a fault that the session does not handle; also then the session keeps what was done.
-/

namespace Subleq

/-- Bounds for what has no bound of its own: the steps of a run, the nesting of scripts, and what
machines can store. -/
structure Limits where
  fuel : Nat
  nesting : Nat
  room : Room := .unlimited

/-- The disk that a session reads, when so much is noted. -/
abbrev LiveDisk := Journal → Disk

/-- The disk of a tree in which nothing is logged. -/
def FileTree.live (tree : FileTree) : LiveDisk := fun _ => tree.disk

/-- A session. The logs hold the texts of each machine in order. -/
structure Session where
  host : Host
  imagePath : Option String
  current : Int
  logs : List (Int × Array String) := []
  screen : String := ""
  deriving Repr

/-- How a line or a script ends. -/
inductive Outcome where
  | done
  | quit
  | escaped (fault : Fault)

namespace Session

def write (session : Session) (text : String) : Session :=
  { session with screen := session.screen ++ text }

def print (session : Session) (line : String) : Session := (session.write line).write "\n"

def printAll (session : Session) (lines : List String) : Session := lines.foldl print session

/-- Writes lines to the screen up to the first that cannot be written. -/
def printEach (session : Session) : List (Option String) → Session × Outcome
  | [] => (session, .done)
  | none :: _ => (session, .escaped .unwritable)
  | some line :: lines => (session.print line).printEach lines

def log (session : Session) (pid : Int) : Array String := (session.logs.lookup pid).getD #[]

/-- Logs with one more text of a machine. -/
def addToLog (pid : Int) (text : String) : List (Int × Array String) → List (Int × Array String)
  | [] => [(pid, #[text])]
  | (other, texts) :: logs =>
      if other == pid then (other, texts.push text) :: logs
      else (other, texts) :: addToLog pid text logs

/-- Shows one text of a machine. -/
def take (session : Session) (item : Int × String) : Session :=
  let session := { session with logs := addToLog item.1 item.2 session.logs }
  if item.1 == session.current then session.write item.2 else session

def drain (session : Session) : Session :=
  let (items, host) := session.host.drain
  items.foldl take { session with host }

/-- Watches the queue for a number of rounds, in each of which all queued output is shown. -/
def watch (session : Session) (rounds : Nat) : Session := rounds.repeat drain session

/-- The image that new machines start with, read from the session's image file if it has one. -/
def bootImage (disk : LiveDisk) (imagePath : Option String) (journal : Journal) :
    Except Fault (BootImage × Journal) :=
  match imagePath with
  | none | some "" => .ok (.monitor, journal)
  | some path =>
      (readImageFile (disk journal) path).map fun values =>
        (.data (values.map .integer), journal.note (.imageFileRead path values.length))

/-- Starts a session with one machine. A session that does not start leaves its journal. -/
def start (room : Room) (disk : LiveDisk) (imagePath : Option String) (bits : Int) :
    Except (Fault × Journal) Session :=
  match bootImage disk imagePath {} with
  | .error fault => .error (fault, {})
  | .ok (image, journal) =>
      match Host.create { bits, room, journal } "main" image with
      | (.error fault, host) => .error (fault, host.journal)
      | (.ok pid, host) => .ok { host, imagePath, current := pid }

def machine? (session : Session) : Option Machine :=
  (session.host.find? session.current).map (·.machine)

/-- Complains that there is no current machine. -/
def warn (session : Session) : Session :=
  session.print "no current machine; use :host new or :host vm."

/-- The number of the current machine as text. -/
def currentText (session : Session) : String := Text.decimal session.current

/-- Prints a fault of the machine's own kind; any other escapes. Output is drained in either case,
after the complaint. -/
def settle (session : Session) (fault : Fault) : Session × Outcome :=
  if fault.isOwn then ((session.print ("error: " ++ fault.message)).drain, .done)
  else (session.drain, .escaped fault)

/-- Evaluates a line on the current machine. -/
def send (limits : Limits) (session : Session) (line : String) : Session × Outcome :=
  match session.machine? with
  | none => (session.warn, .done)
  | some machine =>
      if machine.halted then
        (session.print ("machine " ++ session.currentText ++
          " is halted; use :host new, :host load or :host image."), .done)
      else match session.host.send limits.fuel session.current line with
        | (.ok _, host) => (drain { session with host }, .done)
        | (.error fault, host) => settle { session with host } fault

/-- `new`: a machine with the boot image becomes the current one. -/
def create (disk : LiveDisk) (session : Session) (name : String) : Session × Outcome :=
  let failed (session : Session) (fault : Fault) : Session × Outcome :=
    if fault.isOwn || fault.isRefusal then (session.print ("new: " ++ fault.message), .done)
    else (session, .escaped fault)
  match bootImage disk session.imagePath session.host.journal with
  | .error fault => failed session fault
  | .ok (image, journal) =>
      match { session.host with journal }.create name image with
      | (.error fault, host) => failed { session with host } fault
      | (.ok pid, host) =>
          (print { session with host, current := pid }
            ("NEW pid=" ++ Text.decimal pid ++ " name=" ++ Text.quoted name), .done)

/-- `vm PID`: makes a machine the current one. -/
def switch (session : Session) (pid : Int) : Session :=
  if session.host.contains pid then
    print { session with current := pid } ("switched to pid=" ++ Text.decimal pid)
  else session.print ("no such machine pid=" ++ Text.decimal pid)

/-- One machine in the list of machines, unless its program counter cannot be written. -/
def listLine (current : Int) (listed : Listed) : Option String :=
  (Text.decimal? listed.machine.pc).map fun pc =>
    (if listed.pid == current then "*" else " ") ++
      Text.padLeft 4 (Text.decimal listed.pid) ++ "  " ++
      Text.padRight 6 (if listed.machine.halted then "yes" else "no") ++ "  " ++
      Text.padLeft 6 pc ++ "  " ++ listed.name

/-- `ps`: lists the machines. -/
def list (session : Session) : Session × Outcome :=
  match session.host.table with
  | [] => (session.print "(no machines)", .done)
  | table =>
      (session.printAll
        [" PID   HALTED  PC      NAME", " ----  ------  ------  ----------------"]).printEach
          (table.map (listLine session.current))

/-- `kill PID`: removes a machine; the current machine is followed by the first that is left. -/
def kill (session : Session) (pid : Int) : Session :=
  let host := session.host.kill pid
  let killed := "killed pid=" ++ Text.decimal pid
  if pid == session.current then
    match host.table with
    | [] => print { session with host } (killed ++ ", no machines left")
    | next :: _ =>
        print { session with host, current := next.pid }
          (killed ++ ", switched to pid=" ++ Text.decimal next.pid)
  else print { session with host } killed

/-- `logs [PID]`: shows the output of a machine so far. -/
def showLog (session : Session) (pid : Int) : Session :=
  let texts := session.log pid
  let pidText := Text.decimal pid
  match texts.back? with
  | none => session.print ("(no logs for pid " ++ pidText ++ ")")
  | some last =>
      let session := session.print ("--- logs for pid " ++ pidText ++ " ---")
      let session := texts.foldl write session
      let session := if last.toList.getLast? == some '\n' then session else session.write "\n"
      session.print ("--- end logs for pid " ++ pidText ++ " ---")

/-- The outcome of `load` and `image`. -/
def loaded (session : Session) (word path : String) : Except Fault Nat → Session × Outcome
  | .ok count =>
      (session.print ("loaded " ++ toString count ++ " cells from " ++ Text.quoted path ++
        " into pid=" ++ session.currentText), .done)
  | .error fault =>
      if fault.isOwn || fault.isRefusal then
        (session.print (word ++ ": " ++ fault.message), .done)
      else (session, .escaped fault)

/-- `load FILE`: loads a program text into the current machine. -/
def load (disk : LiveDisk) (session : Session) (path : String) : Session × Outcome :=
  match session.machine? with
  | none => (session.warn, .done)
  | some _ =>
      match (disk session.host.journal).readText path with
      | .error fault => session.loaded "load" path (.error (.file fault))
      | .ok text =>
          let (result, host) := session.host.loadText session.current text true 0
          loaded { session with host } "load" path result

/-- `image FILE`: loads an image file into the current machine. -/
def image (disk : LiveDisk) (session : Session) (path : String) : Session × Outcome :=
  match session.machine? with
  | none => (session.warn, .done)
  | some _ =>
      match readImageFile (disk session.host.journal) path with
      | .error fault => session.loaded "image" path (.error fault)
      | .ok values =>
          let journal := session.host.journal.note (.imageFileRead path values.length)
          let (result, host) :=
            { session.host with journal }.loadImage session.current (values.map .integer)
          loaded { session with host } "image" path result

/-- `run`: runs the current machine to the halt. -/
def run (limits : Limits) (session : Session) : Session × Outcome :=
  match session.machine? with
  | none => (session.warn, .done)
  | some _ =>
      match session.host.run limits.fuel session.current with
      | (.ok steps, host) =>
          ((drain { session with host }).print
            ("\nhalted after " ++ toString steps ++ " steps"), .done)
      | (.error fault, host) => settle { session with host } fault

/-- `pc`: shows the program counter. -/
def counter (session : Session) : Session × Outcome :=
  match session.machine? with
  | none => (session.warn, .done)
  | some machine =>
      session.printEach [(Text.decimal? machine.pc).map fun pc =>
        "pc=" ++ pc ++ (if machine.halted then " (halted)" else "")]

/-- A row of cells at an address, unless one of its integers cannot be written. -/
def row (address : Int) (cells : List Int) : Option String := do
  let first ← Text.decimal? address
  let values ← cells.mapM Text.decimal?
  return Text.padLeft 6 first ++ ": " ++ String.intercalate " " (values.map (Text.padLeft 6))

/-- Rows of eight cells, the first at an address; `fuel` bounds their number. -/
def rows (address : Int) : (fuel : Nat) → List Int → List (Option String)
  | 0, _ => []
  | _, [] => []
  | fuel + 1, cells => row address (cells.take 8) :: rows (address + 8) fuel (cells.drop 8)

/-- `dump [START] [COUNT]`: shows cells. -/
def dump (session : Session) (range : Except String (Int × Int)) : Session × Outcome :=
  let refused (reason : String) : Session × Outcome :=
    (session.print ("usage: :host dump [START] [COUNT] (" ++ reason ++ ")"), .done)
  match session.machine? with
  | none => (session.warn, .done)
  | some machine =>
      match range with
      | .error reason => refused reason
      | .ok (start, count) =>
          match machine.memory.dump start count with
          | .error fault => refused (Fault.ofAddress fault).message
          | .ok cells => session.printEach (rows start cells.length cells)

def help (session : Session) : Session := session.printAll Command.helpLines

/-- A way to run the lines of a script. -/
abbrev ScriptRunner := List String → Session → Session × Outcome

/-- `read-from FILE`: runs the lines of a file. -/
def script (disk : LiveDisk) (runner : ScriptRunner) (session : Session) (path : String) :
    Session × Outcome :=
  match (disk session.host.journal).readLines path with
  | .ok lines => runner lines session
  | .error (.refused fault) =>
      (session.print ("read-from: cannot open " ++ Text.quoted path ++ ": " ++ fault.message),
        .done)
  | .error fault => (session, .escaped (.file fault))

/-- Carries out a command, where `runner` runs scripts. -/
def execute (limits : Limits) (disk : LiveDisk) (runner : ScriptRunner) (session : Session) :
    Command → Session × Outcome
  | .help => (session.help, .done)
  | .unknown word =>
      ((session.print ("unknown host command: " ++ Text.quoted word)).help, .done)
  | .badLine fault =>
      (session.print ("parse error in :host command: " ++ fault.message), .done)
  | .usage text => (session.print ("usage: " ++ text), .done)
  | .create name => session.create disk name
  | .current => (session.print ("current machine pid=" ++ session.currentText), .done)
  | .switch pid => (session.switch pid, .done)
  | .list => session.list
  | .kill pid => (session.kill pid, .done)
  | .logs pid => (session.showLog (pid.getD session.current), .done)
  | .load path => session.load disk path
  | .image path => session.image disk path
  | .run => session.run limits
  | .counter => session.counter
  | .dump range => session.dump range
  | .script path => script disk runner session path
  | .quit => (session.print "bye.", .quit)

/-- Takes lines one after the other until one does not end normally. -/
def takeLines (line : String → Session → Session × Outcome) : ScriptRunner
  | [], session => (session, .done)
  | text :: texts, session =>
      match line text session with
      | (session, .done) => takeLines line texts session
      | ended => ended

/-- Takes a line: a command, or input for the current machine. -/
def takeLine (limits : Limits) (disk : LiveDisk) (runner : ScriptRunner) (line : String)
    (session : Session) : Session × Outcome :=
  if Command.marks line then execute limits disk runner session (.ofLine line)
  else send limits session line

/-- A line of a script without its line end. -/
def scriptLine (raw : String) : String :=
  String.ofList (raw.toList.reverse.dropWhile (· == '\n')).reverse

/-- Whether a line of a script is blank or a comment. -/
def isSkipped (line : String) : Bool :=
  match Text.trimLeft line.toList with
  | [] => true
  | c :: _ => c == '#'

def takeScriptLine (limits : Limits) (disk : LiveDisk) (runner : ScriptRunner) (raw : String)
    (session : Session) : Session × Outcome :=
  let line := scriptLine raw
  if isSkipped line then (session, .done) else takeLine limits disk runner line session

/-- Runs the lines of a script, in which scripts may be nested to a depth. -/
def runScript (limits : Limits) (disk : LiveDisk) : (depth : Nat) → ScriptRunner
  | 0 => fun _ session => (session, .escaped .nesting)
  | depth + 1 => takeLines (takeScriptLine limits disk (runScript limits disk depth))

def command (limits : Limits) (disk : LiveDisk) (session : Session) (line : String) :
    Session × Outcome :=
  execute limits disk (runScript limits disk limits.nesting) session (.ofLine line)

/-- Takes a line that was typed; a blank line does nothing. -/
def enter (limits : Limits) (disk : LiveDisk) (session : Session) (line : String) :
    Session × Outcome :=
  if (Text.trim line.toList).isEmpty then (session, .done)
  else takeLine limits disk (runScript limits disk limits.nesting) line session

end Session

end Subleq
