import Subleq.Journal.Basic

/-!
# The bench

A machine at work: with the environment behind its ports and a journal. The operations of a bench
are those of its machine; what they do is noted.
-/

namespace Subleq

/-- A machine, the environment behind its ports, and the journal. -/
structure Bench (σ : Type) where
  machine : Machine
  env : σ
  journal : Journal := {}

namespace Bench

variable {σ : Type}

def note (bench : Bench σ) (event : Event) : Bench σ :=
  { bench with journal := bench.journal.note event }

/-- The outcome of a load, with its note. -/
def loaded (bench : Bench σ) (event : Nat → Event) :
    Except Machine.LoadFault Nat × Machine → Except Fault Nat × Bench σ
  | (.error fault, machine) => (.error (.ofLoad fault), { bench with machine })
  | (.ok count, machine) => (.ok count, { bench with machine }.note (event count))

def load (bench : Bench σ) (values : List Int) (base : Int) : Except Fault Nat × Bench σ :=
  bench.loaded (.imageLoaded · base) (bench.machine.load values base)

/-- Loads an image of any data. -/
def loadData (bench : Bench σ) (data : List Datum) (base : Int) : Except Fault Nat × Bench σ :=
  bench.loaded (.imageLoaded · base) (bench.machine.loadData data base)

def loadText (bench : Bench σ) (text : String) (fresh : Bool) (base : Int) :
    Except Fault Nat × Bench σ :=
  bench.loaded (.textLoaded · base fresh) (bench.machine.loadText text fresh base)

/-- Assembles a source for an origin and loads the image there. -/
def loadSource (bench : Bench σ) (source : String) (origin : Int) : Except Fault Nat × Bench σ :=
  match Assembly.assemble source origin with
  | .error fault => (.error (.assembly fault), bench)
  | .ok (cells, sizes) => (bench.note (.assembled sizes)).load cells origin

def loadMonitor (bench : Bench σ) : Except Fault Nat × Bench σ :=
  { bench with journal := bench.journal.useMonitor }.load Monitor.image 0

/-- Executes one instruction. -/
def step (bench : Bench σ) (ports : Ports σ) : Except Fault Unit × Bench σ :=
  let { machine, env, journal } := bench
  let { machine, env, fault } := machine.step ports env
  (match fault with
    | none => .ok ()
    | some fault => .error (.ofMachine fault), { machine, env, journal })

/-- The outcome of a run: the number of its steps. -/
def outcome (progress : Machine.Progress σ) : Except Fault Nat :=
  match progress.ending with
  | .stopped => .ok progress.steps
  | .failed fault => .error (.ofMachine fault)
  | .outOfFuel => .error .outOfFuel

/-- Runs to the halt; a run of no steps is not noted. -/
def run (bench : Bench σ) (ports : Ports σ) (fuel : Nat) : Except Fault Nat × Bench σ :=
  let { machine, env, journal } := bench
  let progress := machine.run ports fuel env
  let bench := { machine := progress.machine, env := progress.env, journal }
  match outcome progress with
  | .ok 0 => (.ok 0, bench)
  | .ok steps => (.ok steps, bench.note (.ran steps))
  | .error fault => (.error fault, bench)

/-- Does a number of steps, or fewer up to the halt, and counts them. -/
def steps (bench : Bench σ) (ports : Ports σ) (count : Nat) : Except Fault Nat × Bench σ :=
  let { machine, env, journal } := bench
  let progress := machine.run ports count env
  (match progress.ending with
    | .failed fault => .error (.ofMachine fault)
    | _ => .ok progress.steps, { machine := progress.machine, env := progress.env, journal })

/-- Does a number of steps, or fewer up to the halt or a fault, and lists the program counter after
each. -/
def trace (bench : Bench σ) (ports : Ports σ) (count : Nat) :
    List Int × Option Fault × Bench σ :=
  let { machine, env, journal } := bench
  let (counters, { machine, env, fault }) := machine.trace ports count [] env
  (counters.reverse, fault.map .ofMachine, { machine, env, journal })

def eval (bench : Bench σ) (ports : Ports σ) (fuel : Nat) (terminator text : String) :
    Except Fault Nat × Bench σ :=
  let characters := (Machine.terminated terminator text).length
  if bench.machine.halted then (.ok 0, bench.note (.evalIgnored characters))
  else
    let { machine, env, journal } := bench
    let journal := journal.note (.evalStaged characters machine.pc)
    let progress := machine.eval ports fuel terminator text env
    let bench := { machine := progress.machine, env := progress.env, journal }
    match outcome progress with
    | .ok steps =>
        (.ok steps, bench.note
          (if bench.machine.halted then .evalHalted steps else .evalRested bench.machine.pc steps))
    | .error fault => (.error fault, bench)

/-- Emits a code outside any program. -/
def emit (bench : Bench σ) (ports : Ports σ) (code : Int) : Except Fault Unit × Bench σ :=
  match ports.sink code bench.env with
  | (.ok (), env) => (.ok (), { bench with env })
  | (.error fault, env) => (.error (.port fault), { bench with env })

end Bench

end Subleq
