import Subleq.Proofs.Machine.Runs
import Subleq.Proofs.Machine.Step

/-!
# Environments that look alike

A machine knows its environment only by what its ports answer. If the ports of two environments give
the same answers, and the environments stay as much alike as they were, then a machine does the same
in both of them. The sources matter only where a step asks them, which no step of an evaluation
does: an evaluation stops in front of it.
-/

namespace Subleq

variable {σ τ : Type}

/-- Whether two sinks give the same answers in related environments, which stay related. -/
def SinksAgree (related : σ → τ → Prop) (first : Ports σ) (second : Ports τ) : Prop :=
  ∀ code env other, related env other →
    (first.sink code env).1 = (second.sink code other).1 ∧
      related (first.sink code env).2 (second.sink code other).2

/-- Whether two sources give the same answers in related environments, which stay related. -/
def SourcesAgree (related : σ → τ → Prop) (first : Ports σ) (second : Ports τ) : Prop :=
  ∀ env other, related env other →
    (first.source env).1 = (second.source other).1 ∧
      related (first.source env).2 (second.source other).2

namespace Machine

/-- Steps that leave the same machine and the same fault, in related environments. -/
structure Stepped.Alike (related : σ → τ → Prop) (first : Stepped σ) (second : Stepped τ) :
    Prop where
  machine : first.machine = second.machine
  env : related first.env second.env
  fault : first.fault = second.fault

/-- Runs that leave the same machine after as many steps and end in the same way, in related
environments. -/
structure Progress.Alike (related : σ → τ → Prop) (first : Progress σ) (second : Progress τ) :
    Prop where
  machine : first.machine = second.machine
  env : related first.env second.env
  steps : first.steps = second.steps
  ending : first.ending = second.ending

variable {related : σ → τ → Prop} {first : Ports σ} {second : Ports τ} {env : σ} {other : τ}

theorem store_alike (alike : related env other) (machine : Machine) (target : Nat)
    (value next : Int) (staged : List Int) :
    (machine.store target value next staged env).Alike related
      (machine.store target value next staged other) := by
  obtain ⟨memory, pc, queue⟩ := machine
  unfold store
  cases stored : memory.store target value with
  | mk result after =>
      simp only [stored]
      cases result with
      | ok => exact ⟨rfl, alike, rfl⟩
      | error fault => exact ⟨rfl, alike, rfl⟩

/-- The next code is the same in both environments, if the sources agree where nothing is staged. -/
theorem nextCode_alike (alike : related env other) (staged : List Int)
    (sources : staged = [] → SourcesAgree related first second) :
    (nextCode first staged env).1 = (nextCode second staged other).1 ∧
      related (nextCode first staged env).2 (nextCode second staged other).2 := by
  cases staged with
  | cons code rest => exact ⟨rfl, alike⟩
  | nil =>
      obtain ⟨answer, kept⟩ := sources rfl env other alike
      unfold nextCode
      cases asked : first.source env with
      | mk result after =>
          cases otherAsked : second.source other with
          | mk otherResult otherAfter =>
              rw [asked, otherAsked] at answer kept
              cases answer
              cases result with
              | ok code => exact ⟨rfl, kept⟩
              | error fault => exact ⟨rfl, kept⟩

/-- A step is the same in both environments, if the sources agree where it asks them. -/
theorem step_alike (sinks : SinksAgree related first second) {machine : Machine}
    (sources : machine.waiting = true → SourcesAgree related first second)
    (alike : related env other) :
    (step first machine env).Alike related (step second machine other) := by
  cases halt : machine.halted with
  | true =>
      rw [step_of_halted first env halt, step_of_halted second other halt]
      exact ⟨rfl, alike, rfl⟩
  | false =>
      cases decoded : decode machine.memory machine.pc with
      | error fault =>
          rw [step_of_error first env halt decoded, step_of_error second other halt decoded]
          exact ⟨rfl, alike, rfl⟩
      | ok instruction =>
          cases instruction with
          | input target =>
              have asks : machine.staged = [] → SourcesAgree related first second := by
                intro empty
                obtain ⟨nonnegative, special⟩ := get_of_decode_input decoded
                exact sources (waiting_eq_true_iff.mpr ⟨nonnegative, empty, special⟩)
              obtain ⟨answer, kept⟩ := nextCode_alike alike machine.staged asks
              rw [step_of_input first env halt decoded, step_of_input second other halt decoded]
              cases read : nextCode first machine.staged env with
              | mk result after =>
                  cases otherRead : nextCode second machine.staged other with
                  | mk otherResult otherAfter =>
                      rw [read, otherRead] at answer kept
                      cases answer
                      cases result with
                      | error fault => exact ⟨rfl, kept, rfl⟩
                      | ok next => exact store_alike kept machine target next.1 _ next.2
          | output source =>
              obtain ⟨answer, kept⟩ := sinks (machine.memory.get source) env other alike
              rw [step_of_output first env halt decoded, step_of_output second other halt decoded]
              cases emitted : first.sink (machine.memory.get source) env with
              | mk result after =>
                  cases otherEmitted : second.sink (machine.memory.get source) other with
                  | mk otherResult otherAfter =>
                      rw [emitted, otherEmitted] at answer kept
                      cases answer
                      cases result with
                      | error fault => exact ⟨rfl, kept, rfl⟩
                      | ok _ => exact ⟨rfl, kept, rfl⟩
          | subtract source target =>
              cases fitting : machine.memory.widthFault? with
              | some fault =>
                  rw [step_of_tight first env halt decoded fitting,
                    step_of_tight second other halt decoded fitting]
                  exact ⟨rfl, alike, rfl⟩
              | none =>
                  by_cases taken : wrap machine.memory.width
                      (machine.memory.get target - machine.memory.get source) ≤ 0
                  · rw [step_of_taken first env halt decoded fitting taken,
                      step_of_taken second other halt decoded fitting taken]
                    cases branchTarget machine.memory machine.pc with
                    | error fault => exact ⟨rfl, alike, rfl⟩
                    | ok next => exact store_alike alike machine target _ next machine.staged
                  · rw [step_of_passed first env halt decoded fitting taken,
                      step_of_passed second other halt decoded fitting taken]
                    exact store_alike alike machine target _ (machine.pc + 3) machine.staged

/-- A run is the same in both environments, if the sources agree or it stops before it asks them. -/
theorem advance_alike (sinks : SinksAgree related first second) {stop : Machine → Bool}
    (sources : ∀ machine : Machine, stop machine = false → machine.waiting = true →
      SourcesAgree related first second)
    (fuel steps : Nat) (machine : Machine) (alike : related env other) :
    (advance first stop fuel steps machine env).Alike related
      (advance second stop fuel steps machine other) := by
  induction fuel generalizing steps machine env other with
  | zero => exact ⟨rfl, alike, rfl, rfl⟩
  | succ fuel ih =>
      unfold advance
      cases stopping : stop machine with
      | true => exact ⟨rfl, alike, rfl, rfl⟩
      | false =>
          have stepped := step_alike sinks (sources machine stopping) alike
          cases done : step first machine env with
          | mk after afterEnv fault =>
              cases otherDone : step second machine other with
              | mk otherAfter otherEnv otherFault =>
                  rw [done, otherDone] at stepped
                  obtain ⟨same, kept, sameFault⟩ := stepped
                  cases same
                  cases sameFault
                  cases fault with
                  | none => exact ih (steps + 1) after kept
                  | some fault => exact ⟨rfl, kept, rfl, rfl⟩

/-- A run to the halt is the same in both environments. -/
theorem run_alike (sinks : SinksAgree related first second)
    (sources : SourcesAgree related first second) (fuel : Nat) (machine : Machine)
    (alike : related env other) :
    (machine.run first fuel env).Alike related (machine.run second fuel other) :=
  advance_alike sinks (fun _ _ _ => sources) fuel 0 machine alike

/-- An evaluation is the same in both environments, whatever the sources are. -/
theorem eval_alike (sinks : SinksAgree related first second) (fuel : Nat)
    (terminator text : String) (machine : Machine) (alike : related env other) :
    (machine.eval first fuel terminator text env).Alike related
      (machine.eval second fuel terminator text other) := by
  cases halt : machine.halted with
  | true =>
      rw [eval_of_halted first fuel terminator text halt,
        eval_of_halted second fuel terminator text halt]
      exact ⟨rfl, alike, rfl, rfl⟩
  | false =>
      have unasked : ∀ machine : Machine, machine.idle = false → machine.waiting = true →
          SourcesAgree related first second := by
        intro machine active waits
        rw [idle, waits, Bool.or_true] at active
        cases active
      obtain ⟨same, kept, sameSteps, sameEnding⟩ := advance_alike sinks unasked fuel 0
        (machine.stage (codesOf (terminated terminator text))) alike
      rw [eval_of_running first fuel terminator text halt,
        eval_of_running second fuel terminator text halt]
      refine ⟨?_, kept, sameSteps, sameEnding⟩
      simp only [Progress.settle, same, sameEnding]

end Machine

end Subleq
