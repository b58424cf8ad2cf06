import Mathlib.Data.Stream.Init
import Subleq.Proofs.Machine.Runs
import Subleq.Proofs.Machine.Step

/-!
# One stream of input

To a run it does not matter how its input is presented. The staged codes and what the source
delivers behind them are one stream, and a run sees nothing of where the queue ends: pouring the
queue back into the source before a step is the same as pouring it back after the step. An
evaluation before a run is a part of the run, up to where the machine rests with an empty queue.
-/

namespace Subleq

variable {σ : Type}

open Stream'

/-- Ports whose source delivers a stream, one code at each call. -/
def Ports.streaming (sink : Int → σ → Except PortFault Unit × σ) : Ports (σ × Stream' Int) where
  source := fun (env, stream) => (.ok stream.head, env, stream.tail)
  sink := fun code (env, stream) =>
    let (result, env) := sink code env
    (result, env, stream)

namespace Machine

/-! ## Pouring the queue back -/

/-- The outcome of a step with its queue poured back into the source. -/
def Stepped.pour (stepped : Stepped (σ × Stream' Int)) : Stepped (σ × Stream' Int) :=
  { stepped with
    machine := stepped.machine.clearStaged,
    env := (stepped.env.1, stepped.machine.staged ++ₛ stepped.env.2) }

/-- The progress of a run with its queue poured back into the source. -/
def Progress.pour (progress : Progress (σ × Stream' Int)) : Progress (σ × Stream' Int) :=
  { progress with
    machine := progress.machine.clearStaged,
    env := (progress.env.1, progress.machine.staged ++ₛ progress.env.2) }

variable (sink : Int → σ → Except PortFault Unit × σ)

theorem store_pour (machine : Machine) (target : Nat) (value next : Int) (staged : List Int)
    (env : σ) (stream : Stream' Int) :
    machine.clearStaged.store target value next [] (env, staged ++ₛ stream) =
      (machine.store target value next staged (env, stream)).pour := by
  obtain ⟨memory, pc, queue⟩ := machine
  cases stored : memory.store target value with
  | mk result after =>
      cases result with
      | ok => simp [store, clearStaged, Stepped.pour, stored]
      | error fault => simp [store, clearStaged, Stepped.pour, stored]

/-- The next code is the first of the stream, wherever the queue ends. -/
theorem nextCode_streaming (staged : List Int) (env : σ) (stream : Stream' Int) :
    ∃ code rest others, nextCode (.streaming sink) staged (env, stream) =
        (.ok (code, rest), env, others) ∧
      nextCode (.streaming sink) [] (env, staged ++ₛ stream) =
        (.ok (code, []), env, rest ++ₛ others) := by
  cases staged with
  | nil => exact ⟨stream.head, [], stream.tail, rfl, rfl⟩
  | cons code rest => exact ⟨code, rest, stream, rfl, rfl⟩

/-- A step with the queue poured back before is the step with the queue poured back after. -/
theorem step_pour (machine : Machine) (env : σ) (stream : Stream' Int) :
    step (.streaming sink) machine.clearStaged (env, machine.staged ++ₛ stream) =
      (step (.streaming sink) machine (env, stream)).pour := by
  cases halt : machine.halted with
  | true =>
      have halt' : machine.clearStaged.halted = true := halt
      rw [step_of_halted _ _ halt, step_of_halted _ _ halt']
      rfl
  | false =>
      have halt' : machine.clearStaged.halted = false := halt
      have memory : machine.clearStaged.memory = machine.memory := rfl
      have pc : machine.clearStaged.pc = machine.pc := rfl
      cases decoded : decode machine.memory machine.pc with
      | error fault =>
          rw [step_of_error _ _ halt decoded, step_of_error _ _ halt' decoded]
          rfl
      | ok instruction =>
          cases instruction with
          | input target =>
              obtain ⟨code, rest, others, read, poured⟩ :=
                nextCode_streaming sink machine.staged env stream
              have unstaged : machine.clearStaged.staged = [] := rfl
              rw [step_of_input _ _ halt decoded, step_of_input _ _ halt' decoded, unstaged, read,
                poured]
              exact store_pour machine target code (machine.pc + 3) rest env others
          | output source =>
              rw [step_of_output _ _ halt decoded, step_of_output _ _ halt' decoded]
              cases emitted : sink (machine.memory.get source) env with
              | mk result after =>
                  simp only [memory, Ports.streaming, emitted]
                  cases result with
                  | error fault => rfl
                  | ok accepted => rfl
          | subtract source target =>
              cases fitting : machine.memory.widthFault? with
              | some fault =>
                  rw [step_of_tight _ _ halt decoded fitting,
                    step_of_tight _ _ halt' decoded fitting]
                  rfl
              | none =>
                  by_cases taken : wrap machine.memory.width
                      (machine.memory.get target - machine.memory.get source) ≤ 0
                  · rw [step_of_taken _ _ halt decoded fitting taken,
                      step_of_taken _ _ halt' decoded fitting taken]
                    rw [memory, pc]
                    cases branchTarget machine.memory machine.pc with
                    | error fault => rfl
                    | ok next => exact store_pour machine target _ next machine.staged env stream
                  · rw [step_of_passed _ _ halt decoded fitting taken,
                      step_of_passed _ _ halt' decoded fitting taken]
                    exact store_pour machine target _ (machine.pc + 3) machine.staged env stream

/-- A run to the halt with the queue poured back before is the run with the queue poured back
after. -/
theorem advance_pour (fuel steps : Nat) (machine : Machine) (env : σ) (stream : Stream' Int) :
    advance (.streaming sink) halted fuel steps machine.clearStaged
        (env, machine.staged ++ₛ stream) =
      (advance (.streaming sink) halted fuel steps machine (env, stream)).pour := by
  induction fuel generalizing steps machine env stream with
  | zero => rfl
  | succ fuel ih =>
      have same : machine.clearStaged.halted = machine.halted := rfl
      have stepped := step_pour sink machine env stream
      unfold advance
      rw [same, stepped]
      cases machine.halted with
      | true => rfl
      | false =>
          cases step (.streaming sink) machine (env, stream) with
          | mk after afterEnv fault =>
              cases fault with
              | none => exact ih (steps + 1) after afterEnv.1 afterEnv.2
              | some fault => rfl

/-! ## Runs that go on -/

/-- A run that stopped is a part of every run that does not stop before it: that one gets to the
same point by the same steps, and goes on from there. -/
theorem advance_resume (ports : Ports σ) {first second : Machine → Bool}
    (sooner : ∀ machine, first machine = false → second machine = false)
    (fuel more steps : Nat) (machine : Machine) (env : σ)
    (stopped : (advance ports first fuel steps machine env).ending = .stopped) :
    let reached := advance ports first fuel steps machine env
    ∃ count, reached.steps = steps + count ∧
      advance ports second (count + more) steps machine env =
        advance ports second more (steps + count) reached.machine reached.env := by
  induction fuel generalizing steps machine env with
  | zero => exact ⟨0, rfl, by rw [Nat.zero_add]; rfl⟩
  | succ fuel ih =>
      cases stopping : first machine with
      | true =>
          rw [advance_of_stop ports stopping]
          exact ⟨0, rfl, by rw [Nat.zero_add]; rfl⟩
      | false =>
          cases stepped : step ports machine env with
          | mk after afterEnv fault =>
              simp only [advance, stopping, stepped, Bool.false_eq_true, if_false] at stopped ⊢
              cases fault with
              | some fault => cases stopped
              | none =>
                  obtain ⟨count, counted, continued⟩ := ih (steps + 1) after afterEnv stopped
                  refine ⟨count + 1, by rw [counted]; omega, ?_⟩
                  rw [show count + 1 + more = count + more + 1 by omega,
                    show steps + (count + 1) = steps + 1 + count by omega, ← continued]
                  simp only [advance, sooner machine stopping, stepped, Bool.false_eq_true,
                    if_false]

/-- What a run shows of itself: everything but the codes that are still staged. -/
structure Progress.SameRun (first second : Progress σ) : Prop where
  memory : first.machine.memory = second.machine.memory
  pc : first.machine.pc = second.machine.pc
  env : first.env = second.env
  ending : first.ending = second.ending

/-- An evaluation that returned and a run behind it are one run with the text staged. -/
theorem run_stage_of_eval (ports : Ports σ) (fuel more : Nat) (terminator text : String)
    (machine : Machine) (env : σ)
    (returned : (machine.eval ports fuel terminator text env).ending = .stopped) :
    let evaluated := machine.eval ports fuel terminator text env
    let resumed := evaluated.machine.run ports more evaluated.env
    let alone := (machine.stage (codesOf (terminated terminator text))).run ports
      (evaluated.steps + more) env
    alone.SameRun resumed ∧ alone.steps = evaluated.steps + resumed.steps := by
  cases halt : machine.halted with
  | true =>
      have staged : (machine.stage (codesOf (terminated terminator text))).halted = true := halt
      simp only [eval_of_halted ports fuel terminator text halt, run, advance_of_stop ports halt,
        advance_of_stop ports staged]
      exact ⟨⟨rfl, rfl, rfl, rfl⟩, trivial⟩
  | false =>
      rw [eval_of_running ports fuel terminator text halt, Progress.ending_settle] at returned
      rw [eval_of_running ports fuel terminator text halt, Progress.settle_of_stopped returned]
      have sooner (other : Machine) (active : other.idle = false) : other.halted = false :=
        (Bool.or_eq_false_iff.mp active).1
      obtain ⟨count, counted, continued⟩ := advance_resume ports sooner fuel more 0 _ env returned
      generalize advance ports idle fuel 0 (machine.stage (codesOf (terminated terminator text)))
        env = reached at *
      have split : advance ports halted (reached.steps + more) 0
            (machine.stage (codesOf (terminated terminator text))) env =
          (advance ports halted more 0 reached.machine reached.env).after reached.steps := by
        rw [counted, Nat.zero_add, continued, Nat.zero_add]
        exact advance_after ports halted more count 0 reached.machine reached.env
      simp only [run, split]
      -- At the halt the evaluation drops what is staged, and no run goes on to miss it.
      cases halts : reached.machine.halted with
      | true =>
          have cleared : reached.machine.clearStaged.halted = true := halts
          rw [if_pos rfl, advance_of_stop ports halts, advance_of_stop ports cleared]
          exact ⟨⟨rfl, rfl, rfl, rfl⟩, rfl⟩
      | false => exact ⟨⟨rfl, rfl, rfl, rfl⟩, rfl⟩

/-- Only the stream of input matters to a run. Whatever the memory, the program counter and the
sink, two ways to cut one stream into staged codes and codes of the source give runs that are alike
under every bound: they end in the same way, which is the halt, the same fault or the bound, after
as many steps, with the same memory, program counter and environment of the sink, and with as much
of the stream unread. And an evaluation that has returned with a run behind it is, whatever the
ports, the run alone with the text and its terminator staged: the runs end in the same way with the
same memory, program counter and environment, and the steps add up. -/
theorem run_depends_on_stream :
    (∀ (sink : Int → σ → Except PortFault Unit × σ) (memory : Memory) (pc : Int) (env : σ)
      (first second : List Int) (firstRest secondRest : Stream' Int),
      first ++ₛ firstRest = second ++ₛ secondRest → ∀ fuel,
      let one := run (.streaming sink) fuel { memory, pc, staged := first } (env, firstRest)
      let other := run (.streaming sink) fuel { memory, pc, staged := second } (env, secondRest)
      one.ending = other.ending ∧ one.steps = other.steps ∧
        one.machine.memory = other.machine.memory ∧ one.machine.pc = other.machine.pc ∧
        one.env.1 = other.env.1 ∧
        one.machine.staged ++ₛ one.env.2 = other.machine.staged ++ₛ other.env.2) ∧
    ∀ (ports : Ports σ) (fuel : Nat) (terminator text : String) (machine : Machine) (env : σ),
      let evaluated := machine.eval ports fuel terminator text env
      evaluated.ending = .stopped → ∀ more,
      let resumed := evaluated.machine.run ports more evaluated.env
      let alone := (machine.stage (codesOf (terminated terminator text))).run ports
        (evaluated.steps + more) env
      alone.ending = resumed.ending ∧ alone.steps = evaluated.steps + resumed.steps ∧
        alone.machine.memory = resumed.machine.memory ∧
        alone.machine.pc = resumed.machine.pc ∧ alone.env = resumed.env := by
  constructor
  · intro sink memory pc env first second firstRest secondRest same fuel one other
    have poured := advance_pour sink fuel 0 { memory, pc, staged := first } env firstRest
    have poured' := advance_pour sink fuel 0 { memory, pc, staged := second } env secondRest
    have agree : one.pour = other.pour := by
      calc one.pour
        _ = advance (.streaming sink) halted fuel 0 { memory, pc } (env, first ++ₛ firstRest) :=
            poured.symm
        _ = advance (.streaming sink) halted fuel 0 { memory, pc } (env, second ++ₛ secondRest) :=
            by rw [same]
        _ = other.pour := poured'
    exact ⟨congrArg (·.ending) agree, congrArg (·.steps) agree,
      congrArg (·.machine.memory) agree, congrArg (·.machine.pc) agree,
      congrArg (·.env.1) agree, congrArg (·.env.2) agree⟩
  · intro ports fuel terminator text machine env evaluated returned more
    obtain ⟨same, steps⟩ := run_stage_of_eval ports fuel more terminator text machine env returned
    exact ⟨same.ending, steps, same.memory, same.pc, same.env⟩

/-- A program that reads two codes, emits them and halts: the first code is staged or delivered by
the source, and then it is evaluated before the run. -/
theorem run_depends_on_stream_pair :
    let memory : Memory :=
      { width := 16, cells := #[-1, 15, 3, 15, -1, 6, -1, 15, 9, 15, -1, 12, 16, 16, -1, 0, 0] }
    let sink : Int → List Int → Except PortFault Unit × List Int :=
      fun code written => (.ok (), written ++ [code])
    let later : Stream' Int := .const 98
    let staged := run (.streaming sink) 20 { memory, pc := 0, staged := [97] } ([], later)
    let delivered := run (.streaming sink) 20 { memory, pc := 0 } ([], .cons 97 later)
    let evaluated := eval Tape.ports 20 "" "a" { memory } { inputs := [98] }
    let resumed := run Tape.ports 3 evaluated.machine evaluated.env
    let alone := run Tape.ports (evaluated.steps + 3)
      (stage { memory } (codesOf (terminated "" "a"))) { inputs := [98] }
    staged.ending = .stopped ∧ staged.env.1 = [97, 98] ∧ staged.env.1 = delivered.env.1 ∧
      staged.steps = delivered.steps ∧ staged.machine.memory = delivered.machine.memory ∧
      evaluated.ending = .stopped ∧ evaluated.env.outputs = #[97] ∧
      resumed.env.outputs = #[97, 98] ∧ alone.ending = resumed.ending ∧
      alone.steps = evaluated.steps + resumed.steps ∧ alone.env = resumed.env := by
  intro memory sink later
  have same : [97] ++ₛ later = [] ++ₛ Stream'.cons 97 later := rfl
  have returned : (eval Tape.ports 20 "" "a" { memory } { inputs := [98] }).ending = .stopped := by
    decide +kernel
  obtain ⟨-, steps, memories, -, envs, -⟩ :=
    run_depends_on_stream.1 sink memory 0 [] [97] [] later (.cons 97 later) same 20
  obtain ⟨endings, sum, -, -, tapes⟩ :=
    run_depends_on_stream.2 Tape.ports 20 "" "a" { memory } { inputs := [98] } returned 3
  dsimp only
  exact ⟨by decide +kernel, by decide +kernel, envs, steps, memories, returned, by decide +kernel,
    by decide +kernel, endings, sum, tapes⟩

end Machine

end Subleq
