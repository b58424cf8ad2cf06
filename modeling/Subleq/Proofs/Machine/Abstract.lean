import Subleq.Fault
import Subleq.Proofs.Memory

/-!
# The abstract machine

The machine as its description has it, without a buffer: every address has a cell, which is zero
until something is written to it. A step fetches all three operands before it writes anything. The
input is the staged codes and, behind them, what the source delivers.

`Operation` lists what can be done with a machine from outside. The machine with its growing buffer
and the abstract machine both perform operations; `history` keeps the reply, the machine and the
environment after each one, so that two histories can be compared as wholes. What is wrong with an
operation is a `Complaint`. The abstract machine answers with it as it is; the machine has to write
it, and a complaint that names an integer of too many digits cannot be written.
-/

namespace Subleq

/-- A machine whose memory is a function from addresses to cells. -/
structure Abstract where
  width : Nat
  cell : Nat → Int
  pc : Int
  staged : List Int

/-- What a machine shows: everything but the length of its buffer and the room it lives in. -/
def Machine.view (machine : Machine) : Abstract where
  width := machine.memory.width
  cell := machine.memory.get
  pc := machine.pc
  staged := machine.staged

namespace Abstract

variable {σ : Type}

/-- The abstract machine in which nothing was written. -/
def blank (width : Nat) : Abstract := { width, cell := fun _ => 0, pc := 0, staged := [] }

def read (machine : Abstract) (location : Int) : Except AddressFault Int :=
  if location < 0 then .error (.cell location) else .ok (machine.cell location.toNat)

def assign (machine : Abstract) (address : Nat) (value : Int) : Abstract :=
  { machine with cell := Function.update machine.cell address (wrap machine.width value) }

def place (machine : Abstract) (base : Nat) (values : List Int) : Abstract :=
  { machine with cell := overlay machine.width base values machine.cell }

def clear (machine : Abstract) : Abstract := { machine with cell := fun _ => 0 }

/-- Clears all cells and starts at address zero. -/
def reset (machine : Abstract) : Abstract := { machine with cell := fun _ => 0, pc := 0 }

/-- The machine and the environment after a step, and the fault of a step that failed. -/
structure Stepped (σ : Type) where
  machine : Abstract
  env : σ
  fault : Option Machine.StepFault := none

/-- Writes a cell and moves on. -/
def writeAndGo (machine : Abstract) (address : Nat) (value next : Int) (staged : List Int) :
    Abstract :=
  { machine.assign address value with pc := next, staged }

/-- Executes one instruction: fetches `A`, `B` and `C`, then reads a code, emits one, or subtracts
and branches. A halted machine does nothing. -/
def step (ports : Ports σ) (machine : Abstract) (env : σ) : Stepped σ :=
  let pc := machine.pc
  let a := machine.cell pc.toNat
  let b := machine.cell (pc.toNat + 1)
  let c := machine.cell (pc.toNat + 2)
  let refuse (fault : AddressFault) : Stepped σ := { machine, env, fault := some (.address fault) }
  if pc = -1 then { machine, env }
  else if pc < 0 then refuse (.counter pc)
  else if a < -1 then refuse (.operand .a a pc)
  else if b < -1 then refuse (.operand .b b pc)
  else if a = -1 then
    if b = -1 then refuse (.inputTarget pc)
    else match machine.staged with
      | code :: rest => { machine := machine.writeAndGo b.toNat code (pc + 3) rest, env }
      | [] =>
          match ports.source env with
          | (.ok code, env) => { machine := machine.writeAndGo b.toNat code (pc + 3) [], env }
          | (.error fault, env) => { machine, env, fault := some (.port fault) }
  else if b = -1 then
    match ports.sink (machine.cell a.toNat) env with
    | (.ok (), env) => { machine := { machine with pc := pc + 3 }, env }
    | (.error fault, env) => { machine, env, fault := some (.port fault) }
  else
    let result := wrap machine.width (machine.cell b.toNat - machine.cell a.toNat)
    if 0 < result then { machine := machine.writeAndGo b.toNat result (pc + 3) machine.staged, env }
    else if c < -1 then refuse (.operand .c c pc)
    else { machine := machine.writeAndGo b.toNat result c machine.staged, env }

/-- The machine and the environment after a run, the number of completed steps, and how it ended. -/
structure Progress (σ : Type) where
  machine : Abstract
  env : σ
  steps : Nat
  ending : Machine.Ending

/-- Steps until `stop` holds, at most `fuel` times; `steps` counts the steps done before. -/
def advance (ports : Ports σ) (stop : Abstract → Bool) :
    (fuel steps : Nat) → Abstract → σ → Progress σ
  | 0, steps, machine, env =>
      { machine, env, steps, ending := if stop machine then .stopped else .outOfFuel }
  | fuel + 1, steps, machine, env =>
      if stop machine then { machine, env, steps, ending := .stopped }
      else match step ports machine env with
        | { machine, env, fault := none } => advance ports stop fuel (steps + 1) machine env
        | { machine, env, fault := some fault } => { machine, env, steps, ending := .failed fault }

def halted (machine : Abstract) : Bool := machine.pc == -1

/-- Whether all staged input is consumed and the next instruction reads input. -/
def waiting (machine : Abstract) : Bool :=
  0 ≤ machine.pc && machine.staged.isEmpty && machine.cell machine.pc.toNat == -1

/-- Whether a machine has halted or is at rest. -/
def idle (machine : Abstract) : Bool := machine.halted || machine.waiting

end Abstract

/-! ## Operations -/

/-- What can be done with a machine from outside. -/
inductive Operation where
  | read (location : Int)
  | write (location value : Int)
  | writeBlock (base : Int) (values : List Int)
  | clear
  | dump (start count : Int)
  | load (data : List Datum) (base : Int)
  | loadText (text : String) (fresh : Bool) (base : Int)
  | reset
  | stage (codes : List Int)
  | clearStaged
  | step
  | run (fuel : Nat)

/-- What an operation returns. -/
inductive Answer where
  | nothing
  | value (value : Int)
  | values (values : List Int)
  | count (count : Nat)
  /-- The bound on the number of steps is used up. -/
  | unfinished (steps : Nat)

/-- What is wrong with an operation. -/
inductive Complaint where
  | address (fault : AddressFault)
  | write (fault : Memory.WriteFault)
  | load (fault : Machine.LoadFault)
  | step (fault : Machine.StepFault)

namespace Complaint

/-- The fault of a complaint that is written, or that cannot be written. -/
def fault : Complaint → Fault
  | address fault => .ofAddress fault
  | write fault => .ofWrite fault
  | load fault => .ofLoad fault
  | step fault => .ofMachine fault

/-- The fault that a complaint is about, whether or not it can be written. -/
def meant : Complaint → Fault
  | address fault | write (.address fault) | load (.base fault) | step (.address fault) =>
      .address fault
  | step (.port fault) => .port fault
  | load (.program fault) => .program fault
  | load (.datum fault) => .datum fault
  | write (.storage fault) | load (.storage fault) | step (.storage fault) => .storage fault

end Complaint

/-- The fault that is met when the complaint about a fault is written. -/
def Fault.written : Fault → Fault
  | address fault => .ofAddress fault
  | datum fault => .ofDatum fault
  | fault => fault

/-- What an operation leaves: its reply, the machine and the environment. -/
structure Performed (ε μ σ : Type) where
  reply : Except ε Answer
  machine : μ
  env : σ

namespace Performed

variable {ε δ μ σ : Type}

/-- The outcome of an operation as it shows. -/
def view (performed : Performed ε Machine σ) : Performed ε Abstract σ :=
  { performed with machine := performed.machine.view }

def mapError (change : ε → δ) (performed : Performed ε μ σ) : Performed δ μ σ :=
  { performed with reply := performed.reply.mapError change }

/-- Whether an operation found no room. -/
def IsTight (performed : Performed Fault μ σ) : Prop :=
  ∃ fault, performed.reply = .error (.storage fault)

end Performed

/-- What operations leave, one after the other. -/
def history {ε μ σ : Type} (perform : Operation → μ → σ → Performed ε μ σ) :
    List Operation → μ → σ → List (Performed ε μ σ)
  | [], _, _ => []
  | operation :: operations, machine, env =>
      let performed := perform operation machine env
      performed :: history perform operations performed.machine performed.env

def runReply (steps : Nat) : Machine.Ending → Except Complaint Answer
  | .stopped => .ok (.count steps)
  | .failed fault => .error (.step fault)
  | .outOfFuel => .ok (.unfinished steps)

def stepReply : Option Machine.StepFault → Except Complaint Answer
  | none => .ok .nothing
  | some fault => .error (.step fault)

/-- Does an operation on a machine. -/
def Machine.attempt {σ : Type} (ports : Ports σ) (operation : Operation) (machine : Machine)
    (env : σ) : Performed Complaint Machine σ :=
  match operation with
  | .read location =>
      { reply := ((machine.memory.read location).map .value).mapError .address, machine, env }
  | .write location value =>
      let (result, memory) := machine.memory.write location value
      { reply := (result.map fun _ => .nothing).mapError .write,
        machine := { machine with memory }, env }
  | .writeBlock base values =>
      let (result, memory) := machine.memory.writeBlock base values
      { reply := (result.map .count).mapError .write, machine := { machine with memory }, env }
  | .clear =>
      { reply := .ok .nothing, machine := { machine with memory := machine.memory.clear }, env }
  | .dump start count =>
      { reply := ((machine.memory.dump start count).map .values).mapError .address, machine, env }
  | .load data base =>
      let (result, machine) := machine.loadData data base
      { reply := (result.map .count).mapError .load, machine, env }
  | .loadText text fresh base =>
      let (result, machine) := machine.loadText text fresh base
      { reply := (result.map .count).mapError .load, machine, env }
  | .reset => { reply := .ok .nothing, machine := machine.reset, env }
  | .stage codes => { reply := .ok .nothing, machine := machine.stage codes, env }
  | .clearStaged => { reply := .ok .nothing, machine := machine.clearStaged, env }
  | .step =>
      let { machine, env, fault } := machine.step ports env
      { reply := stepReply fault, machine, env }
  | .run fuel =>
      let { machine, env, steps, ending } := machine.run ports fuel env
      { reply := runReply steps ending, machine, env }

/-- Does an operation on an abstract machine. -/
def Abstract.attempt {σ : Type} (ports : Ports σ) (operation : Operation) (machine : Abstract)
    (env : σ) : Performed Complaint Abstract σ :=
  match operation with
  | .read location =>
      { reply := ((machine.read location).map .value).mapError .address, machine, env }
  | .write location value =>
      if location < 0 then
        { reply := .error (.write (.address (.cell location))), machine, env }
      else { reply := .ok .nothing, machine := machine.assign location.toNat value, env }
  | .writeBlock base values =>
      if base < 0 then { reply := .error (.write (.address (.cell base))), machine, env }
      else { reply := .ok (.count values.length), machine := machine.place base.toNat values, env }
  | .clear => { reply := .ok .nothing, machine := machine.clear, env }
  | .dump start count =>
      if count ≤ 0 then { reply := .ok (.values []), machine, env }
      else if start < 0 then { reply := .error (.address (.cell start)), machine, env }
      else
        let values := (List.range' start.toNat count.toNat).map machine.cell
        { reply := .ok (.values values), machine, env }
  | .load data base =>
      if base < 0 then { reply := .error (.load (.base (.base base))), machine, env }
      else match Datum.integers data with
        | .error fault => { reply := .error (.load (.datum fault)), machine, env }
        | .ok values =>
            { reply := .ok (.count values.length),
              machine := machine.reset.place base.toNat values, env }
  | .loadText text fresh base =>
      if base < 0 then { reply := .error (.load (.base (.base base))), machine, env }
      else match Program.read text with
        | .error fault => { reply := .error (.load (.program fault)), machine, env }
        | .ok values =>
            let machine := if fresh then machine.reset else machine
            { reply := .ok (.count values.length), machine := machine.place base.toNat values, env }
  | .reset => { reply := .ok .nothing, machine := machine.reset, env }
  | .stage codes =>
      { reply := .ok .nothing, machine := { machine with staged := machine.staged ++ codes }, env }
  | .clearStaged => { reply := .ok .nothing, machine := { machine with staged := [] }, env }
  | .step =>
      let { machine, env, fault } := machine.step ports env
      { reply := stepReply fault, machine, env }
  | .run fuel =>
      let { machine, env, steps, ending } := advance ports halted fuel 0 machine env
      { reply := runReply steps ending, machine, env }

/-- Performs an operation on a machine, which writes its complaint. -/
def Machine.perform {σ : Type} (ports : Ports σ) (operation : Operation) (machine : Machine)
    (env : σ) : Performed Fault Machine σ :=
  (machine.attempt ports operation env).mapError Complaint.fault

/-- Performs an operation on an abstract machine, which tells what is wrong in any case. -/
def Abstract.perform {σ : Type} (ports : Ports σ) (operation : Operation) (machine : Abstract)
    (env : σ) : Performed Fault Abstract σ :=
  (machine.attempt ports operation env).mapError Complaint.meant

end Subleq
