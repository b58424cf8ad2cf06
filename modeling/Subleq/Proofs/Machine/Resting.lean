import Subleq.Proofs.Machine.Environments

/-!
# Where evaluations end

An evaluation never asks the source: in front of a step that would, it comes to rest. A machine that
comes back from an evaluation has therefore read all that was staged, and it has halted or stands at
an instruction that reads.
-/

namespace Subleq

/-- Ports with a count of how often the source was asked. -/
def Ports.metered {σ : Type} (ports : Ports σ) : Ports (σ × Nat) where
  source := fun (env, calls) =>
    let (result, env) := ports.source env
    (result, env, calls + 1)
  sink := fun code (env, calls) =>
    let (result, env) := ports.sink code env
    (result, env, calls)

namespace Machine

variable {σ : Type}

/-- A run that stopped has come to where it has to stop. -/
theorem stop_of_advance (ports : Ports σ) (stop : Machine → Bool) (fuel steps : Nat)
    (machine : Machine) (env : σ)
    (stopped : (advance ports stop fuel steps machine env).ending = .stopped) :
    stop (advance ports stop fuel steps machine env).machine = true := by
  induction fuel generalizing steps machine env with
  | zero =>
      cases stopping : stop machine with
      | true => exact stopping
      | false => simp [advance, stopping] at stopped
  | succ fuel ih =>
      unfold advance at stopped ⊢
      split
      next stopping => exact stopping
      next running =>
        rw [if_neg running] at stopped
        cases stepped : step ports machine env with
        | mk after afterEnv fault =>
            rw [stepped] at stopped
            cases fault with
            | none => exact ih (steps + 1) after afterEnv stopped
            | some fault => cases stopped

/-- A machine that comes back from an evaluation rests with nothing staged, or has halted. -/
theorem rests_of_eval (ports : Ports σ) (fuel : Nat) (terminator text : String) {machine : Machine}
    (running : machine.halted = false) (env : σ)
    (returned : (eval ports fuel terminator text machine env).ending = .stopped) :
    let after := (eval ports fuel terminator text machine env).machine
    after.staged = [] ∧ (after.halted = true ∨ after.waiting = true) := by
  rw [eval_of_running ports fuel terminator text running, Progress.ending_settle] at returned
  have rests := stop_of_advance ports idle fuel 0 _ env returned
  rw [eval_of_running ports fuel terminator text running, Progress.settle_of_stopped returned]
  rw [idle, Bool.or_eq_true] at rests
  split
  next halts => exact ⟨rfl, Or.inl halts⟩
  next active =>
    have waits := rests.resolve_left active
    exact ⟨(waiting_eq_true_iff.mp waits).2.1, Or.inr waits⟩

/-- An empty text has nothing to do on a machine that rests with nothing staged. -/
theorem eval_empty_of_rests (ports : Ports σ) (fuel : Nat) {machine : Machine}
    (rests : machine.halted = true ∨ machine.waiting = true) (env : σ) :
    eval ports fuel "" "" machine env = { machine, env, steps := 0, ending := .stopped } := by
  cases halt : machine.halted with
  | true => exact eval_of_halted ports fuel "" "" halt env
  | false =>
      have waits : machine.waiting = true := rests.resolve_left (by simp [halt])
      have restaged : machine.stage (codesOf (terminated "" "")) = machine := by
        simp [stage, terminated, codesOf]
      have resting : machine.idle = true := by simp [idle, waits]
      rw [eval_of_running ports fuel "" "" halt, restaged, advance_of_stop ports resting,
        Progress.settle_of_stopped rfl, if_neg (by simp [halt])]

/-- An evaluation never asks the source, and it ends at rest. Whatever the machine is, its memory,
its program counter, its queue and the program it runs, which may rewrite itself, as long as it has
not halted: the count of the calls of the source stays as it was, however far the evaluation gets
and however it ends. If it returns, nothing is staged any more, and the machine has halted or stands
at an instruction whose first cell is the sentinel, so that an empty text takes no step. -/
theorem eval_spares_source_and_rests (ports : Ports σ) (fuel : Nat) (terminator text : String)
    {machine : Machine} (running : machine.halted = false) (env : σ) :
    let progress := eval ports fuel terminator text machine env
    (∀ calls, eval ports.metered fuel terminator text machine (env, calls) =
      { machine := progress.machine, env := (progress.env, calls), steps := progress.steps,
        ending := progress.ending }) ∧
    (progress.ending = .stopped →
      progress.machine.staged = [] ∧
        (progress.machine.pc = -1 ∨
          0 ≤ progress.machine.pc ∧
            progress.machine.memory.get progress.machine.pc.toNat = -1) ∧
        ∀ more next, eval ports more "" "" progress.machine next =
          { machine := progress.machine, env := next, steps := 0, ending := .stopped }) := by
  intro progress
  constructor
  · intro calls
    have sinks : SinksAgree (fun metered env => metered = (env, calls)) ports.metered ports := by
      rintro code _ env rfl
      exact ⟨rfl, rfl⟩
    obtain ⟨same, kept, sameSteps, sameEnding⟩ :=
      eval_alike sinks fuel terminator text machine (rfl : (env, calls) = (env, calls))
    generalize eval ports.metered fuel terminator text machine (env, calls) = metered at *
    obtain ⟨after, afterEnv, steps, ending⟩ := metered
    cases same
    cases kept
    cases sameSteps
    cases sameEnding
    rfl
  · intro returned
    obtain ⟨empty, rests⟩ := rests_of_eval ports fuel terminator text running env returned
    refine ⟨empty, ?_, fun more next => eval_empty_of_rests ports more rests next⟩
    rcases rests with halts | waits
    · exact Or.inl (beq_iff_eq.mp halts)
    · obtain ⟨address, -, special⟩ := waiting_eq_true_iff.mp waits
      exact Or.inr ⟨Int.not_lt.mp address, special⟩

/-- A program that turns its second instruction into one that reads, and reads for ever: it rests
there after it has read a line, and the source, which would fail, was not asked. -/
theorem eval_spares_source_and_rests_rewriting :
    let machine : Machine :=
      { memory := { width := 16, cells := #[10, 3, 3, 0, 11, 6, 12, 12, 3, 0, 1, 0, 0] } }
    let tape : Tape := { atEnd := some (.broken "source") }
    let progress := eval Tape.ports 20 "\n" "a" machine tape
    machine.halted = false ∧ progress.ending = .stopped ∧ progress.steps = 5 ∧
      (eval Tape.ports.metered 20 "\n" "a" machine (tape, 0)).env.2 = 0 ∧
      progress.machine.staged = [] ∧
      (progress.machine.pc = -1 ∨
        0 ≤ progress.machine.pc ∧ progress.machine.memory.get progress.machine.pc.toNat = -1) ∧
      (eval Tape.ports 20 "" "" progress.machine progress.env).steps = 0 := by
  intro machine tape
  have running : machine.halted = false := by decide
  have counted : (eval Tape.ports 20 "\n" "a" machine tape).steps = 5 := by decide +kernel
  have returned : (eval Tape.ports 20 "\n" "a" machine tape).ending = .stopped := by
    decide +kernel
  obtain ⟨spared, rested⟩ := eval_spares_source_and_rests Tape.ports 20 "\n" "a" running tape
  obtain ⟨empty, stands, idles⟩ := rested returned
  refine ⟨running, returned, counted, ?_, empty, stands, ?_⟩
  · rw [spared 0]
  · rw [idles]

end Machine

end Subleq
