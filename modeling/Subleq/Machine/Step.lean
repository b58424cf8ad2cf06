import Subleq.Machine.Basic

/-!
# One instruction

An instruction is three cells `A`, `B`, `C` at the program counter. The sentinel in the place of `A`
reads a code into cell `B`, in the place of `B` it emits cell `A`; otherwise cell `A` is subtracted
from cell `B` and control passes to `C` if the result is not positive. Operands are judged before
anything is written, and a step that fails by its operands or its ports leaves the machine as it
was. A step that finds no room for a cell stays at its instruction, but the code it read is gone and
the buffer may have grown.
-/

namespace Subleq.Machine

/-- How a step fails. -/
inductive StepFault where
  | address (fault : AddressFault)
  | port (fault : PortFault)
  | storage (fault : StorageFault)
  deriving Repr, DecidableEq

/-- Whether a fault is of the machine's own kind, so that a session survives it. A complaint that
cannot be written is not. -/
def StepFault.isOwn : StepFault → Bool
  | .address fault => fault.isWritable
  | .port (.stuck _) => true
  | .port (.broken _) => false
  | .storage _ => false

/-- An instruction whose operands `A` and `B` were judged. -/
inductive Instruction where
  | input (target : Nat)
  | output (source : Nat)
  | subtract (source target : Nat)
  deriving Repr, DecidableEq

/-- Judges operands `A` and `B`. -/
def decodeOperands (a b pc : Int) : Except AddressFault Instruction :=
  if a < sentinel then .error (.operand .a a pc)
  else if b < sentinel then .error (.operand .b b pc)
  else if a = sentinel then
    if b = sentinel then .error (.inputTarget pc) else .ok (.input b.toNat)
  else if b = sentinel then .ok (.output a.toNat)
  else .ok (.subtract a.toNat b.toNat)

def decode (memory : Memory) (pc : Int) : Except AddressFault Instruction :=
  if pc < 0 then .error (.counter pc)
  else decodeOperands (memory.get pc.toNat) (memory.get (pc.toNat + 1)) pc

/-- The target of a branch that is taken. -/
def branchTarget (memory : Memory) (pc : Int) : Except AddressFault Int :=
  let target := memory.get (pc.toNat + 2)
  if target < sentinel then .error (.operand .c target pc) else .ok target

/-- The next code: the first staged one, or else one from the source. -/
def nextCode {σ : Type} (ports : Ports σ) (staged : List Int) (env : σ) :
    Except PortFault (Int × List Int) × σ :=
  match staged with
  | code :: staged => (.ok (code, staged), env)
  | [] =>
      match ports.source env with
      | (.ok code, env) => (.ok (code, []), env)
      | (.error fault, env) => (.error fault, env)

/-- The machine and the environment after a step, and the fault of a step that failed. -/
structure Stepped (σ : Type) where
  machine : Machine
  env : σ
  fault : Option StepFault := none

/-- Writes a cell where there is room and moves on. -/
def store {σ : Type} (machine : Machine) (target : Nat) (value next : Int) (staged : List Int)
    (env : σ) : Stepped σ :=
  let { memory, pc, staged := _ } := machine
  match memory.store target value with
  | (.ok (), memory) => { machine := { memory, pc := next, staged }, env }
  | (.error fault, memory) =>
      { machine := { memory, pc, staged }, env, fault := some (.storage fault) }

/-- Executes one instruction. A halted machine does nothing. -/
def step {σ : Type} (ports : Ports σ) (machine : Machine) (env : σ) : Stepped σ :=
  if machine.halted then { machine, env }
  else match decode machine.memory machine.pc with
    | .error fault => { machine, env, fault := some (.address fault) }
    | .ok (.input target) =>
        match nextCode ports machine.staged env with
        | (.error fault, env) => { machine, env, fault := some (.port fault) }
        | (.ok (code, staged), env) => machine.store target code (machine.pc + 3) staged env
    | .ok (.output source) =>
        match ports.sink (machine.memory.get source) env with
        | (.error fault, env) => { machine, env, fault := some (.port fault) }
        | (.ok (), env) => { machine := { machine with pc := machine.pc + 3 }, env }
    | .ok (.subtract source target) =>
        match machine.memory.widthFault? with
        | some fault => { machine, env, fault := some (.storage fault) }
        | none =>
            let result := wrap machine.memory.width
              (machine.memory.get target - machine.memory.get source)
            if result ≤ 0 then
              match branchTarget machine.memory machine.pc with
              | .error fault => { machine, env, fault := some (.address fault) }
              | .ok next => machine.store target result next machine.staged env
            else machine.store target result (machine.pc + 3) machine.staged env

@[simp] theorem step_of_halted {σ : Type} (ports : Ports σ) {machine : Machine} (env : σ)
    (halted : machine.halted = true) : step ports machine env = { machine, env } := by
  simp [step, halted]

end Subleq.Machine
