import Subleq.Files.Tree
import Subleq.Journal.Basic
import Subleq.Text.Justify

/-!
# Logging

Where the notes of a session go: to a log file, to the console, or to both, from a least level on.
The log file of a debugging session names the channel of each record and its place there; otherwise
only the level and the message are written. The log file is written as the session goes on, so that
a session that reads it finds what was noted so far.
-/

namespace Subleq

/-- The levels of records. -/
inductive Level where
  | debug
  | info
  | warning
  | error
  | critical
  deriving Repr, DecidableEq

namespace Level

/-- The levels in ascending order. -/
def all : List Level := [debug, info, warning, error, critical]

def name : Level → String
  | debug => "DEBUG"
  | info => "INFO"
  | warning => "WARNING"
  | error => "ERROR"
  | critical => "CRITICAL"

def ofName? (name : String) : Option Level := all.find? (·.name == name)

def rank : Level → Nat
  | debug => 10
  | info => 20
  | warning => 30
  | error => 40
  | critical => 50

end Level

/-- A record of a channel, with the place it is noted at. -/
structure LogRecord where
  level : Level
  channel : String
  place : Nat
  message : String
  deriving Repr

/-- Every event of the journal is of interest for debugging only. -/
def Event.record (event : Event) : LogRecord :=
  { level := .debug, channel := event.channel, place := event.place, message := event.message }

def Journal.records (journal : Journal) : List LogRecord := journal.events.toList.map Event.record

/-- A record on one line: its level, its channel and its message. -/
def LogRecord.line (record : LogRecord) : String :=
  record.level.name ++ " " ++ record.channel ++ " " ++ record.message

/-- A record on one line with all its parts. -/
def LogRecord.fullLine (record : LogRecord) : String :=
  record.level.name ++ " " ++ record.channel ++ ":" ++ toString record.place ++ " " ++
    record.message

/-- Where records go, and from which level on; before any is asked for, nowhere. The path of the
file is without detours. -/
structure Logging where
  threshold : Level := .warning
  file : Option String := none
  console : Bool := false
  deriving Repr

namespace Logging

/-- The logging that is asked for. An empty file name is none, and without a file the console is
used. -/
def configure (file : Option String) (debug console : Bool) : Logging :=
  let file := (file.filter (!·.isEmpty)).map Path.normal
  { threshold := if debug then .debug else .warning, file, console := console || file.isNone }

/-- How many places records go to. -/
def handlers (logging : Logging) : Nat :=
  (if logging.file.isSome then 1 else 0) + (if logging.console then 1 else 0)

def admits (logging : Logging) (record : LogRecord) : Bool :=
  logging.threshold.rank ≤ record.level.rank

/-- A record in the log file. -/
def fileLine (logging : Logging) (record : LogRecord) : String :=
  if logging.threshold = .debug then record.fullLine ++ "\n"
  else Text.padRight 5 record.level.name ++ " " ++ record.message ++ "\n"

/-- A record on the console. -/
def consoleLine (record : LogRecord) : String :=
  Text.padLeft 5 record.level.name ++ " " ++ record.message ++ "\n"

/-- What records add to the log file. -/
def fileText (logging : Logging) (records : List LogRecord) : String :=
  String.join ((records.filter logging.admits).map logging.fileLine)

/-- What records show on the console. -/
def consoleText (logging : Logging) (records : List LogRecord) : String :=
  if logging.console then String.join ((records.filter logging.admits).map consoleLine) else ""

/-- The files when records were written: the log file holds them and nothing else. -/
def write (logging : Logging) (files : FileTree) (records : List LogRecord) :
    Except ReadFault FileTree :=
  match logging.file with
  | none => .ok files
  | some path => files.replace path (Text.Utf8.encode (logging.fileText records))

end Logging

/-- Logging that is set up several times in a row: the files, and the text on the console. -/
structure LoggingHistory where
  logging : Logging := {}
  files : FileTree := .empty
  console : String := ""

/-- Sets up logging anew, which empties its file, and writes records. -/
def LoggingHistory.next (history : LoggingHistory) (logging : Logging)
    (records : List LogRecord) : Except ReadFault LoggingHistory :=
  (logging.write history.files records).map fun files =>
    { logging, files, console := history.console ++ logging.consoleText records }

end Subleq
