import Subleq.Machine.Step

/-!
# Steps by kind

What a step does, by the instruction at the program counter. One statement for each kind of
instruction, so that nothing else has to open the definition of a step.
-/

namespace Subleq.Machine

variable {σ : Type} (ports : Ports σ) {machine : Machine} (env : σ)

/-- A machine whose instruction is refused stays as it is. -/
theorem step_of_error (running : machine.halted = false) {fault : AddressFault}
    (decoded : decode machine.memory machine.pc = .error fault) :
    step ports machine env = { machine, env, fault := some (.address fault) } := by
  simp [step, running, decoded]

theorem step_of_input (running : machine.halted = false) {target : Nat}
    (decoded : decode machine.memory machine.pc = .ok (.input target)) :
    step ports machine env =
      match nextCode ports machine.staged env with
      | (.error fault, env) => { machine, env, fault := some (.port fault) }
      | (.ok (code, staged), env) => machine.store target code (machine.pc + 3) staged env := by
  unfold step
  rw [running, decoded]
  rfl

theorem step_of_output (running : machine.halted = false) {source : Nat}
    (decoded : decode machine.memory machine.pc = .ok (.output source)) :
    step ports machine env =
      match ports.sink (machine.memory.get source) env with
      | (.error fault, env) => { machine, env, fault := some (.port fault) }
      | (.ok (), env) => { machine := { machine with pc := machine.pc + 3 }, env } := by
  unfold step
  rw [running, decoded]
  rfl

theorem step_of_tight (running : machine.halted = false) {source target : Nat}
    (decoded : decode machine.memory machine.pc = .ok (.subtract source target))
    {fault : StorageFault} (tight : machine.memory.widthFault? = some fault) :
    step ports machine env = { machine, env, fault := some (.storage fault) } := by
  simp [step, running, decoded, tight]

theorem step_of_passed (running : machine.halted = false) {source target : Nat}
    (decoded : decode machine.memory machine.pc = .ok (.subtract source target))
    (fitting : machine.memory.widthFault? = none)
    (positive : ¬wrap machine.memory.width
      (machine.memory.get target - machine.memory.get source) ≤ 0) :
    step ports machine env =
      machine.store target
        (wrap machine.memory.width (machine.memory.get target - machine.memory.get source))
        (machine.pc + 3) machine.staged env := by
  simp [step, running, decoded, fitting, positive]

example :
    let machine : Machine := { memory := { width := 16, cells := #[3, 4, 9, 1, -32768] } }
    let stepped := machine.step Tape.ports {}
    stepped.machine.memory.get 4 = 32767 ∧ stepped.machine.pc = 3 := by decide

theorem step_of_taken (running : machine.halted = false) {source target : Nat}
    (decoded : decode machine.memory machine.pc = .ok (.subtract source target))
    (fitting : machine.memory.widthFault? = none)
    (taken : wrap machine.memory.width
      (machine.memory.get target - machine.memory.get source) ≤ 0) :
    step ports machine env =
      match branchTarget machine.memory machine.pc with
      | .error fault => { machine, env, fault := some (.address fault) }
      | .ok next =>
          machine.store target
            (wrap machine.memory.width (machine.memory.get target - machine.memory.get source))
            next machine.staged env := by
  cases branch : branchTarget machine.memory machine.pc with
  | error fault => simp [step, running, decoded, fitting, taken, branch]
  | ok next => simp [step, running, decoded, fitting, taken, branch]

/-- An instruction that reads input has the sentinel in its first cell. -/
theorem get_of_decode_input {memory : Memory} {pc : Int} {target : Nat}
    (decoded : decode memory pc = .ok (.input target)) :
    ¬pc < 0 ∧ memory.get pc.toNat = sentinel := by
  unfold decode at decoded
  split at decoded
  · cases decoded
  next nonnegative =>
    refine ⟨nonnegative, ?_⟩
    unfold decodeOperands at decoded
    split at decoded
    · cases decoded
    split at decoded
    · cases decoded
    split at decoded
    next isInput => exact isInput
    next => split at decoded <;> cases decoded

/-- The cells `A` and `B` of an instruction. -/
def Instruction.operands : Instruction → Int × Int
  | input target => (sentinel, target)
  | output source => (source, sentinel)
  | subtract source target => (source, target)

theorem operands_of_decode {memory : Memory} {pc : Int} {instruction : Instruction}
    (decoded : decode memory pc = .ok instruction) :
    instruction.operands = (memory.get pc.toNat, memory.get (pc.toNat + 1)) := by
  unfold decode decodeOperands at decoded
  generalize memory.get pc.toNat = a at decoded ⊢
  generalize memory.get (pc.toNat + 1) = b at decoded ⊢
  have special : sentinel = -1 := rfl
  split at decoded
  · cases decoded
  split at decoded
  · cases decoded
  split at decoded
  · cases decoded
  split at decoded
  · split at decoded
    · cases decoded
    · cases decoded
      simp only [Instruction.operands, Prod.mk.injEq]
      omega
  · split at decoded
    · cases decoded
      simp only [Instruction.operands, Prod.mk.injEq]
      omega
    · cases decoded
      simp only [Instruction.operands, Prod.mk.injEq]
      omega

end Subleq.Machine
