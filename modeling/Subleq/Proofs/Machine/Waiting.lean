import Subleq.Proofs.Machine.Failures

/-!
# What waiting foretells

A machine waits if nothing is staged and the first cell of its next instruction is the sentinel. Its
next step then asks the source, provided that the second cell is an address; otherwise the
instruction is refused before anything is read. No step of a machine that does not wait asks the
source.
-/

namespace Subleq.Machine

variable {σ : Type} {machine : Machine}

/-- The second cell of the instruction at the program counter. -/
def secondCell (machine : Machine) : Int := machine.memory.get (machine.pc.toNat + 1)

/-- The fault of an instruction that reads into a cell that is none. -/
def inputFault (target pc : Int) : AddressFault :=
  if target = sentinel then .inputTarget pc else .operand .b target pc

theorem running_of_waiting (waits : machine.waiting = true) : machine.halted = false := by
  have nonnegative := (waiting_eq_true_iff.mp waits).1
  rw [halted, beq_eq_false_iff_ne]
  intro halt
  rw [halt] at nonnegative
  exact nonnegative (by decide)

/-- A machine that waits stands at an instruction that reads, or at one that is refused for the cell
it would read into. -/
theorem decode_of_waiting (waits : machine.waiting = true) :
    decode machine.memory machine.pc =
      if 0 ≤ machine.secondCell then .ok (.input machine.secondCell.toNat)
      else .error (inputFault machine.secondCell machine.pc) := by
  obtain ⟨nonnegative, -, special⟩ := waiting_eq_true_iff.mp waits
  have least : sentinel = -1 := rfl
  rw [decode, if_neg nonnegative, special, ← secondCell, decodeOperands,
    if_neg (Int.lt_irrefl _)]
  by_cases isAddress : 0 ≤ machine.secondCell
  · rw [if_pos isAddress, if_neg (by omega), if_pos rfl, if_neg (by omega)]
  · rw [if_neg isAddress, inputFault]
    by_cases isSentinel : machine.secondCell = sentinel
    · rw [if_neg (by omega), if_pos rfl, if_pos isSentinel, if_pos isSentinel]
    · rw [if_pos (by omega), if_neg isSentinel]

/-- A machine with nothing staged that stands at an instruction that reads is waiting, and the cell
it reads into is a cell. -/
theorem waiting_of_decode_input {target : Nat} (unstaged : machine.staged = [])
    (decoded : decode machine.memory machine.pc = .ok (.input target)) :
    machine.waiting = true ∧ 0 ≤ machine.secondCell := by
  obtain ⟨nonnegative, special⟩ := get_of_decode_input decoded
  have cells := operands_of_decode decoded
  simp only [Instruction.operands, Prod.mk.injEq] at cells
  refine ⟨waiting_eq_true_iff.mpr ⟨nonnegative, unstaged, special⟩, ?_⟩
  rw [secondCell, ← cells.2]
  exact Int.natCast_nonneg target

/-- How often the next step asks the source. -/
def callsOfStep (machine : Machine) : Nat :=
  if machine.waiting = true ∧ 0 ≤ machine.secondCell then 1 else 0

theorem callsOfStep_of_staged (staged : machine.staged ≠ []) : machine.callsOfStep = 0 := by
  apply if_neg
  rintro ⟨waits, -⟩
  exact staged (waiting_eq_true_iff.mp waits).2.1

/-- A machine whose next instruction is not one that reads does not ask the source. -/
theorem callsOfStep_of_decode
    (other : ∀ target, decode machine.memory machine.pc ≠ .ok (.input target)) :
    machine.callsOfStep = 0 := by
  apply if_neg
  rintro ⟨waits, isAddress⟩
  apply other machine.secondCell.toNat
  rw [decode_of_waiting waits, if_pos isAddress]

theorem callsOfStep_of_halted (halt : machine.halted = true) : machine.callsOfStep = 0 := by
  apply if_neg
  rintro ⟨waits, -⟩
  rw [running_of_waiting waits] at halt
  cases halt

/-- The source is asked for the next code where nothing is staged. -/
theorem calls_nextCode (ports : Ports σ) (staged : List Int) (env : σ) (calls : Nat) :
    (nextCode ports.metered staged (env, calls)).2.2 =
      calls + if staged = [] then 1 else 0 := by
  have asked : (ports.metered.source (env, calls)).2.2 = calls + 1 := rfl
  cases staged with
  | cons code rest => rfl
  | nil =>
      simp only [nextCode, if_true]
      split
      next given => rw [given] at asked; exact asked
      next given => rw [given] at asked; exact asked

/-- A machine that stands at an instruction that reads asks the source if nothing is staged. -/
theorem callsOfStep_of_input {target : Nat}
    (decoded : decode machine.memory machine.pc = .ok (.input target)) :
    machine.callsOfStep = if machine.staged = [] then 1 else 0 := by
  split
  next unstaged => exact if_pos (waiting_of_decode_input unstaged decoded)
  next staged => exact callsOfStep_of_staged staged

theorem calls_step_metered (ports : Ports σ) (machine : Machine) (env : σ) (calls : Nat) :
    (step ports.metered machine (env, calls)).env.2 = calls + machine.callsOfStep := by
  have read := calls_nextCode ports machine.staged env calls
  have emitted : ∀ code, (ports.metered.sink code (env, calls)).2.2 = calls := fun _ => rfl
  fun_cases step ports.metered machine (env, calls) with
  | case1 halt => rw [callsOfStep_of_halted halt, Nat.add_zero]
  | case2 _ fault decoded =>
      rw [callsOfStep_of_decode (by simp [decoded]), Nat.add_zero]
  | case3 _ target decoded fault later answered =>
      rw [callsOfStep_of_input decoded, ← read, answered]
  | case4 _ target decoded code staged later answered =>
      rw [callsOfStep_of_input decoded, ← read, answered, env_store]
  | case5 _ source decoded fault later answered =>
      rw [callsOfStep_of_decode (by simp [decoded]), Nat.add_zero,
        ← emitted (machine.memory.get source), answered]
  | case6 _ source decoded later answered =>
      rw [callsOfStep_of_decode (by simp [decoded]), Nat.add_zero,
        ← emitted (machine.memory.get source), answered]
  | case7 _ source target decoded =>
      rw [callsOfStep_of_decode (by simp [decoded]), Nat.add_zero]
  | case8 _ source target decoded =>
      rw [callsOfStep_of_decode (by simp [decoded]), Nat.add_zero]
  | case9 _ source target decoded =>
      rw [callsOfStep_of_decode (by simp [decoded]), Nat.add_zero, env_store]
  | case10 _ source target decoded =>
      rw [callsOfStep_of_decode (by simp [decoded]), Nat.add_zero, env_store]

/-- A meter is no concern of the machine: metered or not, a step does the same. -/
theorem step_metered (ports : Ports σ) (machine : Machine) (env : σ) (calls : Nat) :
    step ports.metered machine (env, calls) =
      { machine := (step ports machine env).machine,
        env := ((step ports machine env).env, calls + machine.callsOfStep),
        fault := (step ports machine env).fault } := by
  have sinks : SinksAgree (fun metered env => metered.1 = env) ports.metered ports := by
    rintro code ⟨_, count⟩ env rfl
    exact ⟨rfl, rfl⟩
  have sources : SourcesAgree (fun metered env => metered.1 = env) ports.metered ports := by
    rintro ⟨_, count⟩ env rfl
    exact ⟨rfl, rfl⟩
  obtain ⟨sameMachine, sameEnv, sameFault⟩ :
      (step ports.metered machine (env, calls)).Alike (fun metered env => metered.1 = env)
        (step ports machine env) :=
    step_alike sinks (fun _ => sources) rfl
  have counted := calls_step_metered ports machine env calls
  cases metered : step ports.metered machine (env, calls) with
  | mk after later fault =>
      rw [metered] at sameMachine sameEnv sameFault counted
      cases sameMachine
      cases sameFault
      rw [← sameEnv, ← counted]

/-- Waiting foretells the source but for refused instructions. Whatever the machine is, its memory,
its program counter and its queue, and however its ports behave, the next step asks the source once
if the machine waits and the cell it would read into is one; in all other cases it does not ask the
source. If the machine waits and the cell it would read into is none, the step is refused and
changes nothing. -/
theorem waiting_foretells_source (ports : Ports σ) (machine : Machine) (env : σ) :
    let stepped := step ports machine env
    (∀ calls, step ports.metered machine (env, calls) =
      { machine := stepped.machine,
        env := (stepped.env,
          calls + if machine.waiting = true ∧ 0 ≤ machine.secondCell then 1 else 0),
        fault := stepped.fault }) ∧
    (machine.waiting = true → machine.secondCell < 0 →
      stepped =
        { machine, env, fault := some (.address (inputFault machine.secondCell machine.pc)) }) := by
  refine ⟨fun calls => step_metered ports machine env calls, ?_⟩
  intro waits noAddress
  apply step_of_error ports env (running_of_waiting waits)
  rw [decode_of_waiting waits, if_neg (Int.not_le.mpr noAddress)]

/-- A machine that waits at an instruction that would read into the sentinel. -/
theorem waiting_foretells_source_refused :
    let machine : Machine := { memory := { width := 16, cells := #[-1, -1, 3] } }
    let tape : Tape := { inputs := [65] }
    machine.waiting = true ∧ machine.secondCell < 0 ∧
      (step Tape.ports.metered machine (tape, 0)).env.2 = 0 ∧
      (step Tape.ports machine tape).fault = some (.address (.inputTarget 0)) := by
  intro machine tape
  have waits : machine.waiting = true := by decide
  have noAddress : machine.secondCell < 0 := by decide
  obtain ⟨metered, refuses⟩ := waiting_foretells_source Tape.ports machine tape
  refine ⟨waits, noAddress, ?_, ?_⟩
  · rw [metered 0, if_neg (fun asks => Int.not_le.mpr noAddress asks.2)]
  · rw [refuses waits noAddress]
    rfl

/-- A machine that waits, and whose next step does not ask the source. -/
theorem refused_input_asks_nothing :
    let machine : Machine := { memory := { width := 16, cells := #[-1, -2, 3] } }
    let stepped := step Tape.ports.metered machine ({}, 0)
    machine.waiting = true ∧ stepped.env.2 = 0 ∧
      stepped.fault = some (.address (.operand .b (-2) 0)) := by
  decide

end Subleq.Machine
