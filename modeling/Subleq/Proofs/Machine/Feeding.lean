import Subleq.Proofs.Machine.Paths

/-!
# Input from a queue and from a source

A machine cannot tell staged codes from codes that its source delivers. So a machine with a part of
its input staged and the rest on a tape does what the machine does that has all of it staged, with
the end of input as the last code: the second one is followed step by step, as long as it does not
wait, and the tape counts how much was read.
-/

namespace Subleq.Abstract

variable {σ τ : Type}

/-! ## Steps that succeed -/

theorem operands_of_step {machine next : Abstract} {ports : Ports σ} {env nextEnv : σ}
    (active : machine.halted = false)
    (stepped : machine.step ports env = { machine := next, env := nextEnv }) :
    0 ≤ machine.pc ∧ -1 ≤ machine.cell machine.pc.toNat ∧
      -1 ≤ machine.cell (machine.pc.toNat + 1) ∧
      (machine.cell machine.pc.toNat = -1 → machine.cell (machine.pc.toNat + 1) ≠ -1) := by
  have running : machine.pc ≠ -1 := by simpa [halted] using active
  simp only [step, if_neg running] at stepped
  split at stepped
  · cases stepped
  split at stepped
  · cases stepped
  split at stepped
  · cases stepped
  refine ⟨by omega, by omega, by omega, ?_⟩
  intro reads emits
  rw [if_pos reads, if_pos emits] at stepped
  cases stepped

/-- A subtraction does not depend on what is staged, nor on the ports. -/
theorem step_restage {machine next : Abstract} {ports : Ports σ} {env nextEnv : σ}
    (active : machine.halted = false) (noInput : machine.cell machine.pc.toNat ≠ -1)
    (noOutput : machine.cell (machine.pc.toNat + 1) ≠ -1)
    (stepped : machine.step ports env = { machine := next, env := nextEnv }) (staged : List Int)
    (others : Ports τ) (other : τ) :
    nextEnv = env ∧ next.staged = machine.staged ∧
      step others { machine with staged } other =
        { machine := { next with staged }, env := other } := by
  have running : machine.pc ≠ -1 := by simpa [halted] using active
  obtain ⟨nonneg, validA, validB, -⟩ := operands_of_step active stepped
  simp only [step, if_neg running, if_neg noInput, if_neg noOutput, if_neg (Int.not_lt.mpr nonneg),
    if_neg (Int.not_lt.mpr validA), if_neg (Int.not_lt.mpr validB)] at stepped ⊢
  split at stepped
  next positive =>
    cases stepped
    rw [if_pos positive]
    exact ⟨rfl, rfl, rfl⟩
  next taken =>
    rw [if_neg taken]
    split at stepped
    · cases stepped
    next valid =>
      cases stepped
      rw [if_neg valid]
      exact ⟨rfl, rfl, rfl⟩

/-! ## The tape and the queue -/

/-- Ports that accept every code and keep what they have accepted. -/
structure Records (ports : Ports τ) (written : τ → List Int) : Prop where
  accepts : ∀ code env, (ports.sink code env).1 = .ok ()
  keeps : ∀ code env, written (ports.sink code env).2 = written env ++ [code]

/-- What is left of the input: the codes that are staged and those on the tape, with the end of
input behind them in the queue of the other machine, or nothing, after the end of input was read
once. The calls of the source and the codes on the tape are `total` together, and one more at the
end. -/
def Supplied (total : Nat) (staged : List Int) (tape : Tape) (queue : List Int) : Prop :=
  (queue = staged ++ tape.inputs ++ [endOfInput] ∧ tape.reads + tape.inputs.length = total) ∨
  (queue = [] ∧ staged = [] ∧ tape.inputs = [] ∧ tape.reads = total + 1)

theorem Supplied.of_nil {total : Nat} {staged : List Int} {tape : Tape}
    (supplied : Supplied total staged tape []) :
    staged = [] ∧ tape.inputs = [] ∧ tape.reads = total + 1 := by
  rcases supplied with ⟨queue, -⟩ | ⟨-, ended⟩
  · simp at queue
  · exact ended

theorem Supplied.of_concat {total : Nat} {staged unread : List Int} {tape : Tape}
    (supplied : Supplied total staged tape (unread ++ [endOfInput])) :
    unread = staged ++ tape.inputs ∧ tape.reads + tape.inputs.length = total := by
  rcases supplied with ⟨queue, count⟩ | ⟨queue, -⟩
  · exact ⟨List.append_cancel_right queue, count⟩
  · simp at queue

/-- A machine with a tape, and one with all input in its queue, that are otherwise the same. -/
structure Fed (total : Nat) (written : τ → List Int) (machine : Abstract) (tape : Tape)
    (queued : Abstract) (env : τ) : Prop where
  same : queued = { machine with staged := queued.staged }
  endless : tape.atEnd = none
  roomy : tape.room = none
  output : tape.outputs.toList = written env
  input : Supplied total machine.staged tape queued.staged

/-- The first code of the queue is the one that is read next. -/
theorem Supplied.nextCode {total : Nat} {staged : List Int} {tape : Tape} {code : Int}
    {rest : List Int} (supplied : Supplied total staged tape (code :: rest))
    (endless : tape.atEnd = none) :
    ∃ left inputs reads, Machine.nextCode Tape.ports staged tape =
        (.ok (code, left), { tape with inputs, reads }) ∧
      Supplied total left { tape with inputs, reads } rest := by
  rcases supplied with ⟨queue, count⟩ | ⟨empty, -⟩
  · cases staged with
    | cons first staged =>
        obtain ⟨rfl, rfl⟩ := List.cons.inj queue
        exact ⟨staged, tape.inputs, tape.reads, rfl, Or.inl ⟨rfl, count⟩⟩
    | nil =>
        cases listed : tape.inputs with
        | cons first inputs =>
            rw [listed] at queue count
            obtain ⟨rfl, rfl⟩ := List.cons.inj queue
            refine ⟨[], inputs, tape.reads + 1, ?_, Or.inl ⟨rfl, ?_⟩⟩
            · simp [Machine.nextCode, Tape.ports, Tape.read, listed]
            · rw [List.length_cons] at count
              dsimp only
              omega
        | nil =>
            rw [listed] at queue count
            obtain ⟨rfl, rfl⟩ := List.cons.inj queue
            refine ⟨[], [], tape.reads + 1, ?_, Or.inr ⟨rfl, rfl, rfl, ?_⟩⟩
            · simp [Machine.nextCode, Tape.ports, Tape.read, listed, endless]
            · rw [List.length_nil] at count
              dsimp only
              omega
  · cases empty

section Follow

variable {total : Nat} {written : τ → List Int} {ports : Ports τ}
  {machine queued next last : Abstract} {tape : Tape} {env nextEnv lastEnv : τ}

/-- A machine with a tape follows a step of the one with a queue. -/
theorem Fed.step (fed : Fed total written machine tape queued env) (records : Records ports written)
    (active : queued.idle = false)
    (stepped : queued.step ports env = { machine := next, env := nextEnv }) :
    ∃ after afterTape, machine.step Tape.ports tape = { machine := after, env := afterTape } ∧
      Fed total written after afterTape next nextEnv := by
  have running : queued.halted = false := (Bool.or_eq_false_iff.mp active).1
  obtain ⟨nonneg, validA, validB, apart⟩ := operands_of_step running stepped
  obtain ⟨same, endless, roomy, output, input⟩ := fed
  obtain ⟨width, cell, pc, staged⟩ := machine
  obtain ⟨_, _, _, queue⟩ := queued
  cases same
  obtain ⟨start, rfl⟩ := Int.eq_ofNat_of_zero_le nonneg
  dsimp only [Int.toNat_natCast] at nonneg validA validB apart input
  by_cases reads : cell start = -1
  · obtain ⟨target, cellB⟩ := Int.eq_ofNat_of_zero_le
      (by have := apart reads; omega : 0 ≤ cell (start + 1))
    rw [step_input ports env rfl reads cellB] at stepped
    rw [step_input Tape.ports tape rfl reads cellB]
    cases queue with
    | nil => simp [idle, waiting, halted, reads] at active
    | cons code rest =>
        obtain ⟨left, inputs, count, next, supplied⟩ := input.nextCode endless
        cases stepped
        dsimp only
        rw [next]
        exact ⟨_, _, rfl, rfl, endless, roomy, output, supplied⟩
  · obtain ⟨source, cellA⟩ := Int.eq_ofNat_of_zero_le (by omega : 0 ≤ cell start)
    by_cases emits : cell (start + 1) = -1
    · rw [step_output ports env rfl cellA emits] at stepped
      rw [step_output Tape.ports tape rfl cellA emits]
      have accepted : ports.sink (cell source) env = (.ok (), (ports.sink (cell source) env).2) :=
        Prod.ext (records.accepts _ env) rfl
      have pushed : Tape.ports.sink (cell source) tape =
          (.ok (), { tape with outputs := tape.outputs.push (cell source) }) := by
        simp [Tape.ports, Tape.emit, roomy]
      dsimp only at stepped ⊢
      rw [accepted] at stepped
      rw [pushed]
      cases stepped
      refine ⟨_, _, rfl, rfl, endless, roomy, ?_, input⟩
      rw [records.keeps, ← output, Array.toList_push]
    · obtain ⟨rfl, unread, again⟩ := step_restage running reads emits stepped staged Tape.ports tape
      rw [again]
      exact ⟨_, _, rfl, rfl, endless, roomy, output, unread ▸ input⟩

/-- A machine with a tape follows a path of the one with a queue. -/
theorem Fed.reaches {count : Nat} (records : Records ports written)
    (path : Reaches ports idle count queued env last lastEnv)
    (fed : Fed total written machine tape queued env) :
    ∃ after afterTape, Reaches Tape.ports halted count machine tape after afterTape ∧
      Fed total written after afterTape last lastEnv := by
  induction path generalizing machine tape with
  | refl => exact ⟨machine, tape, .refl machine tape, fed⟩
  | @head count queued middle last env middleEnv lastEnv active stepped _ ih =>
      obtain ⟨next, nextTape, follows, nextFed⟩ := fed.step records active stepped
      obtain ⟨after, afterTape, others, lastFed⟩ := ih nextFed
      have running : machine.halted = false := by
        have same : queued.halted = machine.halted := by
          rw [fed.same]
          rfl
        rw [← same]
        exact (Bool.or_eq_false_iff.mp active).1
      exact ⟨after, afterTape, .head running follows others, lastFed⟩

end Follow

end Subleq.Abstract
