import Subleq.Session.Basic

/-!
# What happens in a session

The output of a session is told by a trace that neither the queue nor the logs have a part in. When
a machine works, it is run once more on an empty tape, and the codes on that tape are its texts;
when a machine is created, the trace has its number. A trace of commands and scripts follows the
session line by line.
-/

namespace Subleq.Session

/-! ## Traces -/

/-- What happens in a session, as far as its output goes: a machine gets its number, or a text comes
from the machine with a number. -/
inductive Incident where
  | birth (pid : Int)
  | text (pid : Int) (text : String)
  deriving Repr, DecidableEq

/-- The numbers that were handed out, in order. -/
def births (trace : List Incident) : List Int :=
  trace.filterMap fun
    | .birth pid => some pid
    | .text _ _ => none

/-- The texts that came from a machine, in order. -/
def texts (pid : Int) (trace : List Incident) : List String :=
  trace.filterMap fun
    | .birth _ => none
    | .text other text => if other = pid then some text else none

/-- The texts that a machine emits on an empty tape. -/
def spoken (pid : Int) (progress : Machine.Progress Tape) : List Incident :=
  (progress.env.outputs.toList.map codeToText).map (.text pid ·)

section Trace

variable (limits : Limits) (disk : LiveDisk)

/-- What happens while a line is sent. -/
def sendTrace (session : Session) (line : String) : List Incident :=
  match session.machine? with
  | none => []
  | some machine =>
      if machine.halted then []
      else spoken session.current
        (machine.eval Tape.ports limits.fuel defaultTerminator line {})

/-- What happens while the current machine runs. -/
def runTrace (session : Session) : List Incident :=
  match session.machine? with
  | none => []
  | some machine => spoken session.current (machine.run Tape.ports limits.fuel {})

/-- What happens while a machine is created. -/
def createTrace (session : Session) (name : String) : List Incident :=
  match bootImage disk session.imagePath session.host.journal with
  | .error _ => []
  | .ok (image, journal) =>
      match ({ session.host with journal }.create name image).1 with
      | .error _ => []
      | .ok pid => [.birth pid]

/-- A way to trace the lines of a script. -/
abbrev ScriptTracer := List String → Session → List Incident

/-- What happens during a command, where `tracer` traces scripts. -/
def executeTrace (tracer : ScriptTracer) (session : Session) : Command → List Incident
  | .create name => session.createTrace disk name
  | .run => session.runTrace limits
  | .script path =>
      match (disk session.host.journal).readLines path with
      | .ok lines => tracer lines session
      | .error _ => []
  | _ => []

/-- What happens while lines are taken one after the other, until one does not end normally. -/
def linesTrace (line : String → Session → Session × Outcome)
    (trace : String → Session → List Incident) : ScriptTracer
  | [], _ => []
  | text :: texts, session =>
      trace text session ++
        match line text session with
        | (session, .done) => linesTrace line trace texts session
        | _ => []

/-- What happens while a line of a script is taken. -/
def scriptLineTrace (tracer : ScriptTracer) (raw : String) (session : Session) : List Incident :=
  let line := scriptLine raw
  if isSkipped line then []
  else if Command.marks line then executeTrace limits disk tracer session (.ofLine line)
  else sendTrace limits session line

def scriptTrace : (depth : Nat) → ScriptTracer
  | 0 => fun _ _ => []
  | depth + 1 =>
      linesTrace (takeScriptLine limits disk (runScript limits disk depth))
        (scriptLineTrace limits disk (scriptTrace depth))

end Trace

/-! ## Requests -/

/-- What is asked of a session. A command and a script find the disk as it is then. -/
inductive Request where
  | command (disk : LiveDisk) (line : String)
  | send (line : String)
  | script (disk : LiveDisk) (lines : List String)
  | drain
  | output (pid : Int) (text : String)

namespace Request

variable (limits : Limits)

/-- The session after a request, however it ends. -/
def perform (session : Session) : Request → Session
  | .command disk line => (session.command limits disk line).1
  | .send line => (session.send limits line).1
  | .script disk lines => (runScript limits disk limits.nesting lines session).1
  | .drain => session.drain
  | .output pid text => { session with host := session.host.output pid text }

def trace (session : Session) : Request → List Incident
  | .command disk line =>
      executeTrace limits disk (scriptTrace limits disk limits.nesting) session (.ofLine line)
  | .send line => sendTrace limits session line
  | .script disk lines => scriptTrace limits disk limits.nesting lines session
  | .drain => []
  | .output pid text => [.text pid text]

/-- The session after requests, one after the other. -/
def performAll (requests : List Request) (session : Session) : Session :=
  requests.foldl (perform limits) session

def traceAll : List Request → Session → List Incident
  | [], _ => []
  | request :: requests, session =>
      trace limits session request ++ traceAll requests (perform limits session request)

end Request

@[simp] theorem births_append (first second : List Incident) :
    births (first ++ second) = births first ++ births second := List.filterMap_append

@[simp] theorem texts_append (pid : Int) (first second : List Incident) :
    texts pid (first ++ second) = texts pid first ++ texts pid second := List.filterMap_append

theorem births_map_text (pid : Int) (items : List String) :
    births (items.map (.text pid ·)) = [] := by
  induction items with
  | nil => rfl
  | cons item items ih => exact ih

theorem texts_map_text (pid other : Int) (items : List String) :
    texts other (items.map (.text pid ·)) = if pid = other then items else [] := by
  induction items with
  | nil => simp [texts]
  | cons item items ih =>
      rw [List.map_cons, ← List.singleton_append, texts_append, ih]
      by_cases own : pid = other
      · simp [texts, own]
      · simp [texts, own]

end Subleq.Session
