import Subleq.Datum
import Subleq.Memory
import Subleq.Port
import Subleq.Program

/-!
# Machines and their loaders

A machine is a memory, a program counter and a queue of staged input codes, which are read before
the source is asked. Code and data share the memory. What is loaded is judged as a whole before the
machine is touched, so a load that is refused leaves the machine as it was; only a load that finds
no room fails later, when the machine is already reset.
-/

namespace Subleq

/-- A machine. -/
structure Machine where
  memory : Memory
  pc : Int := 0
  staged : List Int := []
  deriving Repr, DecidableEq

def codesOf (text : String) : List Int := text.toList.map fun c => (c.toNat : Int)

namespace Machine

/-- A machine with cells of the given width in unlimited room, before anything is loaded. -/
def ofWidth (width : Nat) : Machine := { memory := .empty width }

/-- The machine in some other room. -/
def within (machine : Machine) (room : Room) : Machine :=
  { machine with memory := machine.memory.within room }

def halted (machine : Machine) : Bool := machine.pc == sentinel

def pending (machine : Machine) : Nat := machine.staged.length

/-- Queues codes that are read before the source is asked. -/
def stage (machine : Machine) (codes : List Int) : Machine :=
  { machine with staged := machine.staged ++ codes }

def clearStaged (machine : Machine) : Machine := { machine with staged := [] }

/-- Clears the memory and starts at address zero; staged codes stay. -/
def reset (machine : Machine) : Machine :=
  { machine with memory := machine.memory.clear, pc := 0 }

/-- How a load fails. -/
inductive LoadFault where
  | base (fault : AddressFault)
  | program (fault : Program.Fault)
  | datum (fault : Datum.NotInteger)
  | storage (fault : StorageFault)

/-- The base of a load as an address. -/
def loadBase (base : Int) : Except LoadFault Nat :=
  if base < 0 then .error (.base (.base base)) else .ok base.toNat

/-- Writes a block of values where there is room, and counts them. -/
def install (machine : Machine) (base : Nat) (values : List Int) :
    Except LoadFault Nat × Machine :=
  let (result, memory) := machine.memory.storeBlock base values
  (result.mapError .storage, { machine with memory })

/-- Loads a program text from a base on, with or without a reset before, and counts its values. -/
def loadText (machine : Machine) (text : String) (fresh : Bool) (base : Int) :
    Except LoadFault Nat × Machine :=
  match loadBase base with
  | .error fault => (.error fault, machine)
  | .ok base =>
      match Program.read text with
      | .error fault => (.error (.program fault), machine)
      | .ok values => (if fresh then machine.reset else machine).install base values

/-- Loads an image of any data after a reset, and counts its cells. -/
def loadData (machine : Machine) (data : List Datum) (base : Int) :
    Except LoadFault Nat × Machine :=
  match loadBase base with
  | .error fault => (.error fault, machine)
  | .ok base =>
      match Datum.integers data with
      | .error fault => (.error (.datum fault), machine)
      | .ok values => machine.reset.install base values

/-- Loads an image of integers after a reset, and counts its cells. -/
def load (machine : Machine) (values : List Int) (base : Int) :
    Except LoadFault Nat × Machine :=
  match loadBase base with
  | .error fault => (.error fault, machine)
  | .ok base => machine.reset.install base values

@[simp] theorem pending_clearStaged (machine : Machine) : machine.clearStaged.pending = 0 := rfl

@[simp] theorem staged_stage (machine : Machine) (codes : List Int) :
    (machine.stage codes).staged = machine.staged ++ codes := rfl

end Machine

end Subleq
