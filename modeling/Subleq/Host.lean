import Subleq.Bench
import Subleq.Config

/-!
# The host

A host keeps machines apart under numbers that it hands out one after the other and never twice. The
machines read nothing but what is sent to them, and all they emit goes to one queue, character by
character, marked with the number of the machine. A creation that fails uses up its number and
changes nothing else.
-/

namespace Subleq

/-- A machine of a host, with its number. -/
structure Hosted where
  pid : Int
  machine : Machine
  deriving Repr

/-- A machine as a host lists it, with its number and its name. -/
structure Listed where
  pid : Int
  name : String
  machine : Machine
  deriving Repr

/-- Output that waits to be shown: the number of a machine and a text. -/
abbrev OutputQueue := Array (Int × String)

/-- A host. `bits` is the width its machines are asked for, `room` what they live in. The names are
kept apart from the machines, under the same numbers. -/
structure Host where
  bits : Int := defaultWidth
  room : Room := .unlimited
  machines : List Hosted := []
  names : List (Int × String) := []
  nextPid : Int := 1
  queue : OutputQueue := #[]
  journal : Journal := {}
  deriving Repr

/-- What a new machine starts with. -/
inductive BootImage where
  | monitor
  | data (image : List Datum)

namespace Host

/-- The ports of a machine: a source at its end, and a sink that queues characters. -/
def ports (pid : Int) : Ports OutputQueue where
  source := fun queue => (.ok endOfInput, queue)
  sink := fun code queue => (.ok (), queue.push (pid, codeToText code))

def config (host : Host) (pid : Int) : Except Fault (Config OutputQueue) :=
  Config.ofParts (some (ports pid).sink) (some (ports pid).source) host.bits defaultTerminator

def find? (host : Host) (pid : Int) : Option Hosted := host.machines.find? (·.pid == pid)

def contains (host : Host) (pid : Int) : Bool := host.machines.any (·.pid == pid)

/-- Queues a text as output of a machine. -/
def output (host : Host) (pid : Int) (text : String) : Host :=
  { host with queue := host.queue.push (pid, text) }

/-- Loads the image that a new machine starts with. -/
def boot (bench : Bench OutputQueue) : BootImage → Except Fault Nat × Bench OutputQueue
  | .monitor => bench.loadMonitor
  | .data image => bench.loadData image 0

/-- The name of a machine; one without a name is called after its number. -/
def nameFor (pid : Int) (name : String) : String :=
  if name.isEmpty then "vm" ++ Text.decimal pid else name

/-- Creates a machine and gives its number. -/
def create (host : Host) (name : String) (image : BootImage) : Except Fault Int × Host :=
  let pid := host.nextPid
  let host := { host with nextPid := pid + 1 }
  match host.config pid with
  | .error fault => (.error fault, host)
  | .ok config =>
      let machine := config.machine.within host.room
      match boot { machine, env := #[], journal := host.journal } image with
      | (.error fault, bench) => (.error fault, { host with journal := bench.journal })
      | (.ok _, bench) =>
          let event := .machineCreated pid name bench.machine.memory.size
          (.ok pid,
            { host with
              machines := host.machines ++ [{ pid, machine := bench.machine }],
              names := host.names ++ [(pid, nameFor pid name)],
              journal := bench.journal.note event })

/-- Removes a machine and its name, if there is one with this number. -/
def kill (host : Host) (pid : Int) : Host :=
  { host with
    machines := host.machines.filter (·.pid != pid), names := host.names.filter (·.1 != pid) }

/-- The name of a machine; one without a recorded name is called after its number. -/
def nameOf (host : Host) (pid : Int) : String := (host.names.lookup pid).getD (nameFor pid "")

def table (host : Host) : List Listed :=
  host.machines.map fun hosted =>
    { pid := hosted.pid, name := host.nameOf hosted.pid, machine := hosted.machine }

/-- Puts a machine in the place of the one with its number. -/
def replace (machines : List Hosted) (pid : Int) (machine : Machine) : List Hosted :=
  machines.map fun hosted => if hosted.pid == pid then { hosted with machine } else hosted

/-- Works on one machine; its output goes to the queue. -/
def update {α : Type} (host : Host) (pid : Int)
    (work : Bench OutputQueue → Except Fault α × Bench OutputQueue) : Except Fault α × Host :=
  match host.find? pid with
  | none => (.error (.unknownPid pid), host)
  | some hosted =>
      let { bits, room, machines, names, nextPid, queue, journal } := host
      let (result, bench) := work { machine := hosted.machine, env := queue, journal }
      (result,
        { bits, room, machines := replace machines pid bench.machine, names, nextPid,
          queue := bench.env, journal := bench.journal })

def send (host : Host) (fuel : Nat) (pid : Int) (line : String) : Except Fault Nat × Host :=
  host.update pid (·.eval (ports pid) fuel defaultTerminator line)

def loadText (host : Host) (pid : Int) (text : String) (fresh : Bool) (base : Int) :
    Except Fault Nat × Host :=
  host.update pid (·.loadText text fresh base)

def loadImage (host : Host) (pid : Int) (image : List Datum) : Except Fault Nat × Host :=
  host.update pid (·.loadData image 0)

def run (host : Host) (fuel : Nat) (pid : Int) : Except Fault Nat × Host :=
  host.update pid (·.run (ports pid) fuel)

def dump (host : Host) (pid start count : Int) : Except Fault (List Int) :=
  match host.find? pid with
  | none => .error (.unknownPid pid)
  | some hosted => (hosted.machine.memory.dump start count).mapError .ofAddress

def drain (host : Host) : List (Int × String) × Host :=
  (host.queue.toList, { host with queue := #[] })

/-- Forgets all machines, their numbers and their output. -/
def reset (host : Host) : Host :=
  { host with machines := [], names := [], nextPid := 1, queue := #[] }

end Host

end Subleq
