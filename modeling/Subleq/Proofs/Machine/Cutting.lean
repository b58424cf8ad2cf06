import Mathlib.Data.List.Infix
import Subleq.Proofs.Machine.Runs
import Subleq.Proofs.Machine.Step

/-!
# Cutting input into texts

Evaluating texts one after the other is evaluating them at one go, if each of them carries the
terminator. The two runs are aligned step by step: codes that are staged behind others change
nothing until a machine would rest, and where it rests the queue is empty, so that staging the
next text gives the very machine that the longer run has reached.
-/

namespace Subleq.Machine

variable {σ : Type}

/-! ## Staged codes behind others -/

/-- A machine that does not wait has a staged code for the instruction that reads one. -/
theorem staged_of_decode_input {machine : Machine} {target : Nat}
    (decoded : decode machine.memory machine.pc = .ok (.input target))
    (active : machine.waiting = false) : ∃ code rest, machine.staged = code :: rest := by
  obtain ⟨nonnegative, special⟩ := get_of_decode_input decoded
  cases queue : machine.staged with
  | nil =>
      have waits := waiting_eq_true_iff.mpr ⟨nonnegative, queue, special⟩
      rw [active] at waits
      cases waits
  | cons code rest => exact ⟨code, rest, rfl⟩

/-- The outcome of a step with further codes staged. -/
def Stepped.stage (stepped : Stepped σ) (codes : List Int) : Stepped σ :=
  { stepped with machine := stepped.machine.stage codes }

theorem store_stage (machine : Machine) (codes : List Int) (target : Nat) (value next : Int)
    (staged : List Int) (env : σ) :
    (machine.stage codes).store target value next (staged ++ codes) env =
      (machine.store target value next staged env).stage codes := by
  obtain ⟨memory, pc, queue⟩ := machine
  cases stored : memory.store target value with
  | mk result after =>
      cases result with
      | ok => simp [store, stage, Stepped.stage, stored]
      | error fault => simp [store, stage, Stepped.stage, stored]

theorem stage_stage (machine : Machine) (first second : List Int) :
    (machine.stage first).stage second = machine.stage (first ++ second) := by
  simp [stage]

/-- A step of a machine that does not wait is not affected by codes behind the staged ones. -/
theorem step_stage (ports : Ports σ) {machine : Machine} (active : machine.waiting = false)
    (codes : List Int) (env : σ) :
    step ports (machine.stage codes) env = (step ports machine env).stage codes := by
  cases halt : machine.halted with
  | true =>
      rw [step_of_halted ports env halt, @step_of_halted σ ports (machine.stage codes) env halt]
      rfl
  | false =>
      have halt' : (machine.stage codes).halted = false := halt
      have memory : (machine.stage codes).memory = machine.memory := rfl
      have pc : (machine.stage codes).pc = machine.pc := rfl
      cases decoded : decode machine.memory machine.pc with
      | error fault =>
          rw [step_of_error ports env halt decoded, step_of_error ports env halt' decoded]
          rfl
      | ok instruction =>
          cases instruction with
          | input target =>
              obtain ⟨code, rest, queue⟩ := staged_of_decode_input decoded active
              rw [step_of_input ports env halt decoded, step_of_input ports env halt' decoded]
              simp only [staged_stage, queue, List.cons_append, nextCode]
              exact store_stage machine codes target code (machine.pc + 3) rest env
          | output source =>
              rw [step_of_output ports env halt decoded, step_of_output ports env halt' decoded]
              rw [memory]
              cases ports.sink (machine.memory.get source) env with
              | mk result after => cases result <;> rfl
          | subtract source target =>
              cases fitting : machine.memory.widthFault? with
              | some fault =>
                  rw [step_of_tight ports env halt decoded fitting,
                    step_of_tight ports env halt' decoded fitting]
                  rfl
              | none =>
                  by_cases taken : wrap machine.memory.width
                      (machine.memory.get target - machine.memory.get source) ≤ 0
                  · rw [step_of_taken ports env halt decoded fitting taken,
                      step_of_taken ports env halt' decoded fitting taken]
                    rw [memory, pc]
                    cases branchTarget machine.memory machine.pc with
                    | error fault => rfl
                    | ok next => exact store_stage machine codes target _ next machine.staged env
                  · rw [step_of_passed ports env halt decoded fitting taken,
                      step_of_passed ports env halt' decoded fitting taken]
                    exact store_stage machine codes target _ (machine.pc + 3) machine.staged env

theorem idle_stage {machine : Machine} (active : machine.idle = false) (codes : List Int) :
    (machine.stage codes).idle = false := by
  unfold idle at active ⊢
  rw [Bool.or_eq_false_iff] at active ⊢
  refine ⟨active.1, ?_⟩
  rw [Bool.eq_false_iff]
  intro waits
  obtain ⟨nonnegative, empty, special⟩ := waiting_eq_true_iff.mp waits
  have queue : machine.staged = [] := (List.append_eq_nil_iff.mp empty).1
  have resting : machine.waiting = true :=
    waiting_eq_true_iff.mpr ⟨nonnegative, queue, special⟩
  rw [active.2] at resting
  cases resting

/-! ## Runs -/

/-- A run to the rest or the halt is a part of every run with further codes behind the staged
ones: the longer run gets to the same point by the same steps, and goes on from there. -/
theorem advance_stage (ports : Ports σ) (codes : List Int) (fuel more steps : Nat)
    (machine : Machine) (env : σ)
    (stopped : (advance ports idle fuel steps machine env).ending = .stopped) :
    ∃ count, (advance ports idle fuel steps machine env).steps = steps + count ∧
      advance ports idle (count + more) steps (machine.stage codes) env =
        advance ports idle more (steps + count)
          ((advance ports idle fuel steps machine env).machine.stage codes)
          (advance ports idle fuel steps machine env).env := by
  induction fuel generalizing steps machine env with
  | zero => exact ⟨0, rfl, by rw [Nat.zero_add]; rfl⟩
  | succ fuel ih =>
      cases resting : machine.idle with
      | true =>
          rw [advance_of_stop ports resting]
          exact ⟨0, rfl, by rw [Nat.zero_add]; rfl⟩
      | false =>
          have active : machine.waiting = false := by
            unfold idle at resting
            exact (Bool.or_eq_false_iff.mp resting).2
          have staged := step_stage ports active codes env
          cases stepped : step ports machine env with
          | mk after afterEnv fault =>
              rw [stepped] at staged
              cases fault with
              | some fault => simp [advance, resting, stepped] at stopped
              | none =>
                  simp only [advance, resting, stepped, Bool.false_eq_true, if_false] at stopped ⊢
                  obtain ⟨count, counted, continued⟩ := ih (steps + 1) after afterEnv stopped
                  refine ⟨count + 1, by rw [counted]; omega, ?_⟩
                  rw [show count + 1 + more = count + more + 1 by omega,
                    show steps + (count + 1) = steps + 1 + count by omega, ← continued]
                  simp only [advance, idle_stage resting, staged, Stepped.stage,
                    Bool.false_eq_true, if_false]

/-! ## Evaluations -/

/-- A text that needs no terminator: there is none, or the text ends with it. -/
def EndsWith (terminator text : String) : Prop :=
  terminator = "" ∨ terminator.toList <:+ text.toList

theorem terminated_of_endsWith {terminator text : String} (ends : EndsWith terminator text) :
    terminated terminator text = text := by
  unfold terminated
  rcases ends with empty | suffix
  · simp [empty]
  · simp [suffix]

theorem EndsWith.append {terminator second : String} (ends : EndsWith terminator second)
    (first : String) : EndsWith terminator (first ++ second) := by
  rcases ends with empty | suffix
  · exact Or.inl empty
  · right
    rw [String.toList_append]
    exact suffix.trans (List.suffix_append _ _)

/-- What an evaluation goes on from: a machine that has halted or rests settles, and then takes the
next text as the longer run has it staged already. -/
theorem settle_advance_stage (ports : Ports σ) {terminator text : String}
    (ends : EndsWith terminator text) (more steps : Nat) (machine : Machine) (env : σ) :
    (advance ports idle more steps (machine.stage (codesOf text)) env).settle =
      (eval ports more terminator text
        (if machine.halted then machine.clearStaged else machine) env).after steps := by
  cases halt : machine.halted with
  | true =>
      have stagedHalt : (machine.stage (codesOf text)).halted = true := halt
      have clearedHalt : machine.clearStaged.halted = true := halt
      have stagedIdle : (machine.stage (codesOf text)).idle = true := by simp [idle, stagedHalt]
      rw [advance_of_stop ports stagedIdle, Progress.settle_of_stopped rfl, if_pos rfl,
        if_pos stagedHalt, eval_of_halted ports more terminator text clearedHalt]
      rfl
  | false =>
      have counted := advance_after ports idle more steps 0 (machine.stage (codesOf text)) env
      rw [Nat.add_zero] at counted
      rw [counted, Progress.settle_after, if_neg (by decide),
        eval_of_running ports more terminator text halt, terminated_of_endsWith ends]

/-- An evaluation that returned and one more evaluation are one evaluation of both texts, step by
step: with the bound of the second raised by the steps of the first, it leaves the same. -/
theorem eval_append (ports : Ports σ) {terminator first second : String}
    (firstEnds : EndsWith terminator first) (secondEnds : EndsWith terminator second)
    (fuel more : Nat) (machine : Machine) (env : σ) {progress : Progress σ}
    (evaluated : eval ports fuel terminator first machine env = progress)
    (returned : progress.ending = .stopped) :
    eval ports (progress.steps + more) terminator (first ++ second) machine env =
      (eval ports more terminator second progress.machine progress.env).after progress.steps := by
  cases halt : machine.halted with
  | true =>
      rw [eval_of_halted ports fuel terminator first halt] at evaluated
      subst evaluated
      rw [eval_of_halted ports _ terminator _ halt, eval_of_halted ports _ terminator _ halt]
      rfl
  | false =>
      have running (bound : Nat) {text : String} (ends : EndsWith terminator text) :
          eval ports bound terminator text machine env =
            (advance ports idle bound 0 (machine.stage (codesOf text)) env).settle := by
        rw [eval_of_running ports bound terminator text halt, terminated_of_endsWith ends]
      rw [running fuel firstEnds] at evaluated
      subst evaluated
      rw [Progress.ending_settle] at returned
      obtain ⟨count, counted, continued⟩ := advance_stage ports (codesOf second) fuel more 0
        (machine.stage (codesOf first)) env returned
      rw [Nat.zero_add] at counted continued
      rw [running _ (secondEnds.append first), codesOf_append, ← stage_stage,
        Progress.steps_settle, counted, continued,
        settle_advance_stage ports secondEnds more count, Progress.settle_of_stopped returned]

/-- Once the evaluation of a text has returned, evaluating the next one ends if and only if
evaluating both at one go does, and it leaves the same after as many steps in all. -/
theorem evaluates_append_iff (ports : Ports σ) {terminator first second : String}
    (firstEnds : EndsWith terminator first) (secondEnds : EndsWith terminator second)
    (machine : Machine) (env : σ) {progress : Progress σ}
    (evaluated : Evaluates ports terminator first machine env progress)
    (returned : progress.ending = .stopped) (total : Progress σ) :
    Evaluates ports terminator (first ++ second) machine env total ↔
      ∃ last, Evaluates ports terminator second progress.machine progress.env last ∧
        total = last.after progress.steps := by
  obtain ⟨-, fuel, evaluated⟩ := evaluated
  have joined (more : Nat) :=
    eval_append ports firstEnds secondEnds fuel more machine env evaluated returned
  constructor
  · rintro ⟨ended, bound, rfl⟩
    have raised := eval_of_le ports (Nat.le_add_left bound progress.steps) terminator
      (first ++ second) machine env ended
    rw [joined bound] at raised
    refine ⟨_, ⟨?_, bound, rfl⟩, raised.symm⟩
    rw [← raised] at ended
    exact ended
  · rintro ⟨last, ⟨ended, bound, rfl⟩, rfl⟩
    exact ⟨ended, progress.steps + bound, joined bound⟩

/-! ## Any number of texts -/

theorem EndsWith.join {terminator last : String} (ends : EndsWith terminator last)
    (texts : List String) : EndsWith terminator (String.join (texts ++ [last])) := by
  rw [String.join_append]
  exact EndsWith.append (by simpa using ends) (String.join texts)

/-- If the evaluations of some texts, one after the other, have returned, then evaluating one more
text ends if and only if evaluating all of them at one go does, and it leaves the same after as many
steps in all. -/
theorem evaluates_join_iff (ports : Ports σ) {terminator last : String} {texts : List String}
    (textsEnd : ∀ text ∈ texts, EndsWith terminator text)
    (lastEnds : EndsWith terminator last) (machine : Machine) (env : σ) {progress : Progress σ}
    (evaluated : EvaluatesAll ports terminator texts machine env progress)
    (returned : progress.ending = .stopped) (total : Progress σ) :
    Evaluates ports terminator (String.join (texts ++ [last])) machine env total ↔
      ∃ final, Evaluates ports terminator last progress.machine progress.env final ∧
        total = final.after progress.steps := by
  obtain ⟨-, fuel, evaluated⟩ := evaluated
  subst evaluated
  induction texts generalizing machine env total with
  | nil => simp [evalAll_nil]
  | cons text texts ih =>
      have restEnd : ∀ other ∈ texts, EndsWith terminator other := by
        intro other member
        exact textsEnd other (List.mem_cons_of_mem text member)
      obtain ⟨textReturned, continued⟩ := evalAll_cons_of_returned returned
      generalize first : eval ports fuel terminator text machine env = progress at *
      have textEvaluated : Evaluates ports terminator text machine env progress :=
        ⟨by simp [textReturned], fuel, first⟩
      have textEnds := textsEnd text List.mem_cons_self
      rw [continued] at returned ⊢
      rw [List.cons_append, String.join_cons,
        evaluates_append_iff ports textEnds (lastEnds.join texts) machine env textEvaluated
          textReturned]
      constructor
      · rintro ⟨rest, restEvaluated, rfl⟩
        obtain ⟨final, finalEvaluated, rfl⟩ :=
          (ih restEnd progress.machine progress.env rest returned).mp restEvaluated
        exact ⟨final, finalEvaluated, Progress.after_after ..⟩
      · rintro ⟨final, finalEvaluated, rfl⟩
        refine ⟨_, (ih restEnd progress.machine progress.env _ returned).mpr
          ⟨final, finalEvaluated, rfl⟩, ?_⟩
        exact (Progress.after_after ..).symm

/-- How input is cut into texts does not matter, whatever the machine: its memory, its program
counter, its queue and the program it runs, which may rewrite itself, are any. Once a text has been
evaluated, going on with a second text ends if and only if both at one go end; it then leaves the
same machine in the same environment, fails by the same fault if it fails, and the steps add up.
The same holds for any number of texts. -/
theorem evaluation_ignores_cuts (ports : Ports σ) (terminator : String) (machine : Machine)
    (env : σ) :
    (∀ (first second : String) (progress : Progress σ),
      EndsWith terminator first → EndsWith terminator second →
      Evaluates ports terminator first machine env progress → progress.ending = .stopped →
      ∀ total, Evaluates ports terminator (first ++ second) machine env total ↔
        ∃ last, Evaluates ports terminator second progress.machine progress.env last ∧
          total = last.after progress.steps) ∧
    ∀ (texts : List String) (last : String) (progress : Progress σ),
      (∀ text ∈ texts, EndsWith terminator text) → EndsWith terminator last →
      EvaluatesAll ports terminator texts machine env progress → progress.ending = .stopped →
      ∀ total, Evaluates ports terminator (String.join (texts ++ [last])) machine env total ↔
        ∃ final, Evaluates ports terminator last progress.machine progress.env final ∧
          total = final.after progress.steps := by
  constructor
  · intro first second progress firstEnds secondEnds evaluated returned total
    exact evaluates_append_iff ports firstEnds secondEnds machine env evaluated returned total
  · intro texts last progress textsEnd lastEnds evaluated returned total
    exact evaluates_join_iff ports textsEnd lastEnds machine env evaluated returned total

/-- A program that emits what it reads is given two lines. -/
theorem evaluation_ignores_cuts_echo :
    let machine : Machine :=
      { memory := { width := 16, cells := #[-1, 9, 3, 9, -1, 6, 9, 9, 0, 0] } }
    let first := eval Tape.ports 20 "\n" "a\n" machine {}
    first.ending = .stopped ∧ first.steps = 6 ∧
      (∀ total, Evaluates Tape.ports "\n" ("a\n" ++ "b\n") machine {} total ↔
        ∃ last, Evaluates Tape.ports "\n" "b\n" first.machine first.env last ∧
          total = last.after first.steps) ∧
      ∀ total, Evaluates Tape.ports "\n" (String.join (["a\n"] ++ ["b\n"])) machine {} total ↔
        ∃ last, Evaluates Tape.ports "\n" "b\n" first.machine first.env last ∧
          total = last.after first.steps := by
  intro machine first
  have returned : first.ending = .stopped := by decide +kernel
  have firstEnds : EndsWith "\n" "a\n" := Or.inr (by decide)
  have secondEnds : EndsWith "\n" "b\n" := Or.inr (by decide)
  have cuts := evaluation_ignores_cuts Tape.ports "\n" machine {}
  refine ⟨returned, by decide +kernel, ?_, ?_⟩
  · exact cuts.1 "a\n" "b\n" first firstEnds secondEnds ⟨by simp [returned], 20, rfl⟩ returned
  · have evaluated : EvaluatesAll Tape.ports "\n" ["a\n"] machine {} first :=
      ⟨by simp [returned], 20, evalAll_singleton ..⟩
    exact cuts.2 ["a\n"] "b\n" first (by simpa using firstEnds) secondEnds evaluated returned

end Subleq.Machine
