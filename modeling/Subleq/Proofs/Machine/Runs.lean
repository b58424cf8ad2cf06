import Subleq.Machine.Run

/-!
# Ends of runs

The bound on the number of steps is no part of what a machine does: a run that ends within a bound
ends the same way within every greater one. `Evaluates` is therefore evaluation without a bound, and
`evalAll` evaluates texts one after the other as long as the evaluations return.
-/

namespace Subleq.Machine

variable {σ : Type}

/-- A machine waits if its program counter is an address, nothing is staged, and the first cell of
its instruction is the sentinel. -/
theorem waiting_eq_true_iff {machine : Machine} :
    machine.waiting = true ↔
      ¬machine.pc < 0 ∧ machine.staged = [] ∧ machine.memory.get machine.pc.toNat = sentinel := by
  unfold waiting
  by_cases negative : machine.pc < 0
  · simp [negative]
  · cases queue : machine.staged with
    | nil => simp [negative]
    | cons code rest => simp

/-- The progress of a run that was `count` steps under way before. -/
def Progress.after (progress : Progress σ) (count : Nat) : Progress σ :=
  { progress with steps := count + progress.steps }

@[simp] theorem Progress.after_zero (progress : Progress σ) : progress.after 0 = progress := by
  simp [after]

@[simp] theorem Progress.after_after (progress : Progress σ) (first second : Nat) :
    (progress.after second).after first = progress.after (first + second) := by
  simp [after, Nat.add_assoc]

@[simp] theorem Progress.settle_after (progress : Progress σ) (count : Nat) :
    (progress.after count).settle = progress.settle.after count := rfl

@[simp] theorem Progress.ending_settle (progress : Progress σ) :
    progress.settle.ending = progress.ending := rfl

@[simp] theorem Progress.steps_settle (progress : Progress σ) :
    progress.settle.steps = progress.steps := rfl

@[simp] theorem Progress.env_settle (progress : Progress σ) :
    progress.settle.env = progress.env := rfl

/-- A run that stopped settles by forgetting staged codes if it stopped at the halt. -/
theorem Progress.settle_of_stopped {progress : Progress σ} (stopped : progress.ending = .stopped) :
    progress.settle =
      { progress with machine := if progress.machine.halted then progress.machine.clearStaged
                                 else progress.machine } := by
  obtain ⟨machine, env, steps, ending⟩ := progress
  cases stopped
  rfl

/-- The count of the steps done before is only added to. -/
theorem advance_after (ports : Ports σ) (stop : Machine → Bool) (fuel count steps : Nat)
    (machine : Machine) (env : σ) :
    advance ports stop fuel (count + steps) machine env =
      (advance ports stop fuel steps machine env).after count := by
  induction fuel generalizing steps machine env with
  | zero => rfl
  | succ fuel ih =>
      unfold advance
      split
      · rfl
      · cases step ports machine env with
        | mk after afterEnv fault =>
            cases fault with
            | none => exact ih (steps + 1) after afterEnv
            | some fault => rfl

theorem advance_of_stop (ports : Ports σ) {stop : Machine → Bool} {machine : Machine}
    (stopped : stop machine = true) (fuel steps : Nat) (env : σ) :
    advance ports stop fuel steps machine env = { machine, env, steps, ending := .stopped } := by
  cases fuel with
  | zero => simp [advance, stopped]
  | succ fuel => simp [advance, stopped]

/-- A run that ends within a bound ends the same way within every greater one. -/
theorem advance_of_le (ports : Ports σ) (stop : Machine → Bool) {fuel more : Nat} (le : fuel ≤ more)
    (steps : Nat) (machine : Machine) (env : σ)
    (ended : (advance ports stop fuel steps machine env).ending ≠ .outOfFuel) :
    advance ports stop more steps machine env = advance ports stop fuel steps machine env := by
  induction fuel generalizing more steps machine env with
  | zero =>
      have stopped : stop machine = true := by
        cases stopping : stop machine with
        | true => rfl
        | false => simp [advance, stopping] at ended
      rw [advance_of_stop ports stopped, advance_of_stop ports stopped]
  | succ fuel ih =>
      obtain ⟨more, rfl⟩ : ∃ rest, more = rest + 1 := ⟨more - 1, by omega⟩
      unfold advance at ended ⊢
      split
      · rfl
      next running =>
        rw [if_neg running] at ended
        cases stepped : step ports machine env with
        | mk after afterEnv fault =>
            rw [stepped] at ended
            cases fault with
            | none => exact ih (by omega) (steps + 1) after afterEnv ended
            | some fault => rfl

/-! ## Evaluations -/

section Codes

@[simp] theorem codesOf_append (first second : String) :
    codesOf (first ++ second) = codesOf first ++ codesOf second := by
  simp [codesOf]

theorem isEmpty_codesOf (text : String) : (codesOf text).isEmpty = text.isEmpty := by
  rw [Bool.eq_iff_iff, List.isEmpty_iff, String.isEmpty_iff, codesOf, List.map_eq_nil_iff,
    String.toList_eq_nil_iff]

theorem code_injective : Function.Injective fun c : Char => (c.toNat : Int) := by
  intro first second same
  exact Char.toNat_inj.mp (Int.ofNat_inj.mp same)

theorem isSuffixOf_codesOf (ending text : String) :
    (codesOf ending).isSuffixOf (codesOf text) = ending.toList.isSuffixOf text.toList := by
  rw [Bool.eq_iff_iff, List.isSuffixOf_iff_suffix, List.isSuffixOf_iff_suffix]
  constructor
  · rintro ⟨before, split⟩
    obtain ⟨first, second, whole, -, same⟩ := List.append_eq_map_iff.mp split
    rw [(List.map_inj_right fun _ _ equal => code_injective equal).mp same] at whole
    exact ⟨first, whole.symm⟩
  · exact fun suffix => suffix.map _

theorem terminatedCodes_codesOf (terminator text : String) :
    terminatedCodes (codesOf terminator) (codesOf text) = codesOf (terminated terminator text) := by
  rw [terminatedCodes, terminated, isEmpty_codesOf, isSuffixOf_codesOf]
  split
  · rfl
  · rw [codesOf_append]

variable (ports : Ports σ) (fuel : Nat) (terminator codes : List Int) {machine : Machine}

theorem evalCodes_of_halted (halt : machine.halted = true) (env : σ) :
    evalCodes ports fuel terminator codes machine env =
      { machine, env, steps := 0, ending := .stopped } := by
  simp [evalCodes, halt]

/-- A machine that runs stages the codes with the terminator. -/
theorem evalCodes_of_running (running : machine.halted = false) (env : σ) :
    evalCodes ports fuel terminator codes machine env =
      (advance ports idle fuel 0 (machine.stage (terminatedCodes terminator codes))
        env).settle := by
  simp [evalCodes, running]

variable {fuel}

/-- An evaluation that ends within a bound ends the same way within every greater one. -/
theorem evalCodes_of_le {more : Nat} (le : fuel ≤ more) (machine : Machine) (env : σ)
    (ended : (evalCodes ports fuel terminator codes machine env).ending ≠ .outOfFuel) :
    evalCodes ports more terminator codes machine env =
      evalCodes ports fuel terminator codes machine env := by
  unfold evalCodes at ended ⊢
  split
  · rfl
  next running =>
    rw [if_neg running, Progress.ending_settle] at ended
    rw [advance_of_le ports idle le 0 _ env ended]

end Codes

theorem eval_of_halted (ports : Ports σ) (fuel : Nat) (terminator text : String)
    {machine : Machine} (halt : machine.halted = true) (env : σ) :
    eval ports fuel terminator text machine env =
      { machine, env, steps := 0, ending := .stopped } :=
  evalCodes_of_halted ports fuel _ _ halt env

theorem eval_of_running (ports : Ports σ) (fuel : Nat) (terminator text : String)
    {machine : Machine} (running : machine.halted = false) (env : σ) :
    eval ports fuel terminator text machine env =
      (advance ports idle fuel 0 (machine.stage (codesOf (terminated terminator text)))
        env).settle := by
  rw [eval, evalCodes_of_running ports fuel _ _ running, terminatedCodes_codesOf]

theorem eval_of_le (ports : Ports σ) {fuel more : Nat} (le : fuel ≤ more)
    (terminator text : String) (machine : Machine) (env : σ)
    (ended : (eval ports fuel terminator text machine env).ending ≠ .outOfFuel) :
    eval ports more terminator text machine env = eval ports fuel terminator text machine env :=
  evalCodes_of_le ports _ _ le machine env ended

/-- The evaluation of a text ends, and this is what it leaves. -/
def Evaluates (ports : Ports σ) (terminator text : String) (machine : Machine) (env : σ)
    (progress : Progress σ) : Prop :=
  progress.ending ≠ .outOfFuel ∧ ∃ fuel, eval ports fuel terminator text machine env = progress

/-- Evaluates lists of codes one after the other; the first evaluation that does not return is the
last. -/
def evalAllCodes (ports : Ports σ) (fuel : Nat) (terminator : List Int) :
    List (List Int) → Machine → σ → Progress σ
  | [], machine, env => { machine, env, steps := 0, ending := .stopped }
  | codes :: rest, machine, env =>
      let progress := evalCodes ports fuel terminator codes machine env
      match progress.ending with
      | .stopped =>
          (evalAllCodes ports fuel terminator rest progress.machine progress.env).after
            progress.steps
      | _ => progress

/-- Evaluates texts one after the other. -/
def evalAll (ports : Ports σ) (fuel : Nat) (terminator : String) (texts : List String) :
    Machine → σ → Progress σ :=
  evalAllCodes ports fuel (codesOf terminator) (texts.map codesOf)

theorem evalAll_nil (ports : Ports σ) (fuel : Nat) (terminator : String) (machine : Machine)
    (env : σ) :
    evalAll ports fuel terminator [] machine env =
      { machine, env, steps := 0, ending := .stopped } := rfl

theorem evalAll_cons (ports : Ports σ) (fuel : Nat) (terminator text : String)
    (texts : List String) (machine : Machine) (env : σ) :
    evalAll ports fuel terminator (text :: texts) machine env =
      match (eval ports fuel terminator text machine env).ending with
      | .stopped =>
          (evalAll ports fuel terminator texts (eval ports fuel terminator text machine env).machine
            (eval ports fuel terminator text machine env).env).after
              (eval ports fuel terminator text machine env).steps
      | _ => eval ports fuel terminator text machine env := rfl

theorem evalAll_singleton (ports : Ports σ) (fuel : Nat) (terminator text : String)
    (machine : Machine) (env : σ) :
    evalAll ports fuel terminator [text] machine env =
      eval ports fuel terminator text machine env := by
  simp only [evalAll_cons]
  generalize eval ports fuel terminator text machine env = progress
  obtain ⟨after, afterEnv, steps, ending⟩ := progress
  cases ending with
  | stopped => rfl
  | failed fault => rfl
  | outOfFuel => rfl

/-- Evaluations of texts that all returned begin with one that returned and go on from there. -/
theorem evalAll_cons_of_returned {ports : Ports σ} {fuel : Nat} {terminator text : String}
    {texts : List String} {machine : Machine} {env : σ}
    (returned : (evalAll ports fuel terminator (text :: texts) machine env).ending = .stopped) :
    let first := eval ports fuel terminator text machine env
    first.ending = .stopped ∧
      evalAll ports fuel terminator (text :: texts) machine env =
        (evalAll ports fuel terminator texts first.machine first.env).after first.steps := by
  intro first
  cases ending : first.ending with
  | stopped =>
      refine ⟨rfl, ?_⟩
      simp only [evalAll_cons]
      rw [show (eval ports fuel terminator text machine env).ending = .stopped from ending]
  | failed fault =>
      simp only [evalAll_cons] at returned
      rw [show (eval ports fuel terminator text machine env).ending = .failed fault from ending]
        at returned
      exact absurd (ending.symm.trans returned) (by simp)
  | outOfFuel =>
      simp only [evalAll_cons] at returned
      rw [show (eval ports fuel terminator text machine env).ending = .outOfFuel from ending]
        at returned
      exact absurd (ending.symm.trans returned) (by simp)

/-- The evaluations of texts, one after the other, end, and this is what they leave. -/
def EvaluatesAll (ports : Ports σ) (terminator : String) (texts : List String) (machine : Machine)
    (env : σ) (progress : Progress σ) : Prop :=
  progress.ending ≠ .outOfFuel ∧ ∃ fuel, evalAll ports fuel terminator texts machine env = progress

end Subleq.Machine
