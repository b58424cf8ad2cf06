import Subleq.Demo
import Subleq.Files.Tree
import Subleq.Journal.Logging
import Subleq.Options
import Subleq.Session.Basic

/-!
# The program

The program from its arguments to its exit: options are read, logging is set up, and then the demo
is played or a session takes lines until the input ends or a line quits. `Shell.play` does all of
this against a file tree and a list of typed events; the outer layer does the same against the real
ones.
-/

namespace Subleq.Shell

/-- What is typed at a prompt. -/
inductive Typed where
  | line (text : String)
  | endOfInput
  | interrupt

/-- How the program ends. -/
inductive Exit where
  /-- It returns a code. -/
  | returned (code : Nat)
  /-- The arguments end it with a code. -/
  | exited (code : Nat)
  | escaped (fault : Fault)

/-- What the program printed and left behind. -/
structure Report where
  exit : Exit
  output : String := ""
  errors : String := ""
  prompts : List String := []
  left : List Typed := []
  files : FileTree
  journal : Journal := {}

def banner : List String :=
  ["SUBLEQ Host REPL",
    "Type text to eval it on the current machine.",
    "Use :host ... for host commands.  (:host help for help)"]

def prompt (session : Session) : String :=
  "[pid=" ++ session.currentText ++ "] subleq> "

/-- What is printed at the end of the input. -/
def endMessage : String := "\nEOF -> quitting."

/-- What is printed about a width that no machine can have. -/
def widthComplaint (bits : Int) : String :=
  "invalid --cell-bits: " ++ Text.decimal bits ++ "\n"

def interruptMessage : String :=
  "\nKeyboardInterrupt (Ctrl-C). Use ':host quit' to exit."

/-- The session after the typed events, with the prompts shown, last one first, the events left, and
the fault that ended it, if any. -/
def converse (limits : Limits) (disk : LiveDisk) (session : Session) (prompts : List String) :
    List Typed → Session × List String × List Typed × Option Fault
  | [] => (session.print endMessage, prompt session :: prompts, [], none)
  | .endOfInput :: left => (session.print endMessage, prompt session :: prompts, left, none)
  | .interrupt :: left =>
      converse limits disk (session.print interruptMessage) (prompt session :: prompts) left
  | .line text :: left =>
      let prompts := prompt session :: prompts
      match session.enter limits disk text with
      | (session, .done) => converse limits disk session prompts left
      | (session, .quit) => (session, prompts, left, none)
      | (session, .escaped fault) => (session, prompts, left, some fault)

/-- The ports of the demo on the screen: a source at its end, and a sink that writes characters. -/
def screenPorts : Ports String where
  source := fun screen => (.ok endOfInput, screen)
  sink := fun code screen => (.ok (), screen ++ codeToText code)

/-- The files when a journal was written to the log file, if there is one. -/
def withLog (files : FileTree) (logging : Logging) (journal : Journal) : FileTree :=
  match logging.write files journal.records with
  | .ok files => files
  | .error _ => files

/-- The report of a program that noted events: they go where the logging sends them. -/
def Report.logged (report : Report) (logging : Logging) : Report :=
  { report with
    errors := logging.consoleText report.journal.records ++ report.errors
    files := withLog report.files logging report.journal }

def playDemo (limits : Limits) (options : Options) (files : FileTree) (typed : List Typed) :
    Report :=
  match Config.ofParts (some screenPorts.sink) (some screenPorts.source) options.bits
      defaultTerminator with
  | .error fault => { exit := .escaped fault, left := typed, files }
  | .ok config =>
      let (result, bench) := Demo.play limits.room config limits.fuel "" {}
      { exit := match result with
          | .ok () => .returned 0
          | .error fault => .escaped fault
        output := bench.env, left := typed, files, journal := bench.journal }

/-- What is printed about a session that does not start. -/
def bootComplaint (fault : Fault) : String := "cannot boot: " ++ fault.message ++ "\n"

/-- Boots a session, which then takes the typed events. -/
def playSession (limits : Limits) (options : Options) (logging : Logging) (files : FileTree)
    (typed : List Typed) : Report :=
  let disk : LiveDisk := fun journal => (withLog files logging journal).disk
  match Session.start limits.room disk options.image options.bits with
  | .error (fault, journal) =>
      if fault.isOwn || fault.isRefusal then
        { exit := .returned 1, errors := bootComplaint fault, left := typed, files, journal }
      else { exit := .escaped fault, left := typed, files, journal }
  | .ok session =>
      let (session, prompts, left, fault) :=
        converse limits disk (session.printAll banner) [] typed
      { exit := match fault with
          | none => .returned 0
          | some fault => .escaped fault
        output := session.screen, prompts := prompts.reverse, left, files
        journal := session.host.journal }

def play (limits : Limits) (arguments : List String) (files : FileTree) (typed : List Typed) :
    Report :=
  match Options.read arguments with
  | .help => { exit := .exited 0, output := Options.helpText, left := typed, files }
  | .refused reason =>
      { exit := .exited 2, errors := Options.refusal reason, left := typed, files }
  | .options options =>
      if options.bits < Memory.leastWidth then
        { exit := .returned 2
          errors := widthComplaint options.bits
          left := typed, files }
      else
        let logging := Logging.configure options.logFile options.debug false
        match logging.write files [] with
        | .error fault => { exit := .escaped (.file fault), left := typed, files }
        | .ok files =>
            (if options.demo then playDemo limits options files typed
              else playSession limits options logging files typed).logged logging

end Subleq.Shell
