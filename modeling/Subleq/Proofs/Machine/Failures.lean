import Subleq.Proofs.Machine.Leftovers

/-!
# What a failure leaves

A step that fails leaves the machine as it was, and its sink has accepted nothing. The one exception
is a step that finds no room for the cell it writes: its program counter and all cells are as they
were, but the code it read is gone, and the buffer may be longer. A run or an evaluation that fails
has come, by steps that all succeeded, to a machine whose next step fails, and leaves what that step
leaves; an evaluation that fails by a fault of the machine's own kind forgets what is still staged.
-/

namespace Subleq

variable {σ : Type}

/-- Ports with a list of the codes that the sink has accepted. -/
def Ports.logged (ports : Ports σ) : Ports (σ × List Int) where
  source := fun (env, accepted) =>
    let (result, env) := ports.source env
    (result, env, accepted)
  sink := fun code (env, accepted) =>
    match ports.sink code env with
    | (.ok (), env) => (.ok (), env, accepted ++ [code])
    | (.error fault, env) => (.error fault, env, accepted)

namespace Machine

variable {machine : Machine}

/-! ## Steps -/

/-- What a failing step leaves of a machine. Control stays and no cell changes; unless there was no
room for a cell, nothing changes at all. The buffer is the same if there is room for its width, and
the queue is the same or has lost the code that was read. -/
structure Spares (fault : StepFault) (machine after : Machine) : Prop where
  pc : after.pc = machine.pc
  cells : after.memory.get = machine.memory.get
  whole : (∀ tight, fault ≠ .storage tight) → after = machine
  buffer : machine.memory.widthFault? = none → after.memory = machine.memory
  queue : after.staged = machine.staged ∨
    machine.memory.get machine.pc.toNat = sentinel ∧ after.staged = machine.staged.tail

namespace Spares

theorem refl (fault : StepFault) (machine : Machine) : Spares fault machine machine :=
  ⟨rfl, rfl, fun _ => rfl, fun _ => rfl, Or.inl rfl⟩

theorem store {target : Nat} {value next : Int} {staged : List Int} {env : σ} {fault : StepFault}
    (queue : staged = machine.staged ∨
      machine.memory.get machine.pc.toNat = sentinel ∧ staged = machine.staged.tail)
    (failed : (machine.store target value next staged env).fault = some fault) :
    Spares fault machine (machine.store target value next staged env).machine := by
  obtain ⟨memory, pc, codes⟩ := machine
  unfold Machine.store Memory.store at failed ⊢
  dsimp only at failed queue ⊢
  cases growing : memory.room.growthFault? (target + 1 - memory.size) with
  | some tight =>
      rw [growing] at failed
      cases failed
      exact ⟨rfl, rfl, fun other => absurd rfl (other tight), fun _ => rfl, queue⟩
  | none =>
      rw [growing] at failed
      cases fitting : memory.widthFault? with
      | none =>
          rw [fitting] at failed
          cases failed
      | some tight =>
          rw [fitting] at failed
          cases failed
          refine ⟨rfl, ?_, fun other => absurd rfl (other tight), ?_, queue⟩
          · funext address
            exact Memory.getD_extend memory.cells (target + 1) address
          · intro fits
            rw [fitting] at fits
            cases fits

end Spares

/-- The codes that are left when one was read are those behind it. -/
theorem staged_of_nextCode {ports : Ports σ} {staged rest : List Int} {env later : σ} {code : Int}
    (answered : nextCode ports staged env = (.ok (code, rest), later)) : rest = staged.tail := by
  unfold nextCode at answered
  split at answered
  · cases answered
    rfl
  · split at answered
    · cases answered
      rfl
    · cases answered

/-- A step that fails spares the machine. -/
theorem spares_step (ports : Ports σ) (env : σ) {fault : StepFault}
    (failed : (machine.step ports env).fault = some fault) :
    Spares fault machine (machine.step ports env).machine := by
  cases running : machine.halted with
  | true =>
      rw [step_of_halted ports env running] at failed
      cases failed
  | false =>
      cases decoded : decode machine.memory machine.pc with
      | error bad =>
          rw [step_of_error ports env running decoded]
          exact .refl fault machine
      | ok instruction =>
          cases instruction with
          | input target =>
              have special := (get_of_decode_input decoded).2
              rw [step_of_input ports env running decoded] at failed ⊢
              cases answered : nextCode ports machine.staged env with
              | mk result later =>
                  rw [answered] at failed
                  cases result with
                  | error bad => exact .refl fault machine
                  | ok read =>
                      exact .store (Or.inr ⟨special, staged_of_nextCode answered⟩) failed
          | output source =>
              rw [step_of_output ports env running decoded] at failed ⊢
              cases accepted : ports.sink (machine.memory.get source) env with
              | mk result later =>
                  rw [accepted] at failed
                  cases result with
                  | error bad => exact .refl fault machine
                  | ok => cases failed
          | subtract source target =>
              cases fitting : machine.memory.widthFault? with
              | some tight =>
                  rw [step_of_tight ports env running decoded fitting]
                  exact .refl fault machine
              | none =>
                  by_cases taken : wrap machine.memory.width
                      (machine.memory.get target - machine.memory.get source) ≤ 0
                  · rw [step_of_taken ports env running decoded fitting taken] at failed ⊢
                    cases branch : branchTarget machine.memory machine.pc with
                    | error bad => exact .refl fault machine
                    | ok next =>
                        rw [branch] at failed
                        exact .store (Or.inl rfl) failed
                  · rw [step_of_passed ports env running decoded fitting taken] at failed ⊢
                    exact .store (Or.inl rfl) failed

theorem env_store (machine : Machine) (target : Nat) (value next : Int) (staged : List Int)
    (env : σ) : (machine.store target value next staged env).env = env := by
  unfold store
  dsimp only
  split
  · rfl
  · rfl

theorem accepted_nextCode (ports : Ports σ) (staged : List Int) (env : σ) (accepted : List Int) :
    (nextCode ports.logged staged (env, accepted)).2.2 = accepted := by
  have asked : (ports.logged.source (env, accepted)).2.2 = accepted := rfl
  cases staged with
  | cons code rest => rfl
  | nil =>
      simp only [nextCode]
      split
      next given => rw [given] at asked; exact asked
      next given => rw [given] at asked; exact asked

/-- The sink has accepted nothing from a step that fails. -/
theorem accepted_of_fault (ports : Ports σ) (env : σ) (accepted : List Int) {fault : StepFault}
    (failed : (machine.step ports.logged (env, accepted)).fault = some fault) :
    (machine.step ports.logged (env, accepted)).env.2 = accepted := by
  have read := accepted_nextCode ports machine.staged env accepted
  fun_cases step ports.logged machine (env, accepted) with
  | case3 _ _ _ bad later answered =>
      rw [answered] at read
      exact read
  | case4 _ _ _ code staged later answered =>
      rw [answered] at read
      rw [env_store]
      exact read
  | case5 _ source _ bad later given =>
      unfold Ports.logged at given
      dsimp only at given
      split at given
      · cases given
      · cases given
        rfl
  | case6 running source decoded later given =>
      rw [step_of_output _ _ (by simpa using running) decoded, given] at failed
      cases failed
  | _ => simp [env_store]

/-- The list of accepted codes is no concern of the machine, and a step that fails adds nothing to
it. -/
theorem step_logged (ports : Ports σ) (env : σ) (accepted : List Int) {fault : StepFault}
    (failed : (machine.step ports env).fault = some fault) :
    machine.step ports.logged (env, accepted) =
      { machine := (machine.step ports env).machine
        env := ((machine.step ports env).env, accepted)
        fault := some fault } := by
  have sinks : SinksAgree (fun logged env => logged.1 = env) ports.logged ports := by
    rintro code ⟨_, codes⟩ env rfl
    unfold Ports.logged
    dsimp only
    split
    next given => rw [given]; exact ⟨rfl, rfl⟩
    next given => rw [given]; exact ⟨rfl, rfl⟩
  have sources : SourcesAgree (fun logged env => logged.1 = env) ports.logged ports := by
    rintro ⟨_, codes⟩ env rfl
    exact ⟨rfl, rfl⟩
  obtain ⟨sameMachine, sameEnv, sameFault⟩ : (machine.step ports.logged (env, accepted)).Alike
      (fun logged env => logged.1 = env) (machine.step ports env) :=
    step_alike sinks (fun _ => sources) rfl
  have unheard := accepted_of_fault ports env accepted (sameFault.trans failed)
  rw [failed] at sameFault
  cases logged : machine.step ports.logged (env, accepted) with
  | mk after later complaint =>
      rw [logged] at sameMachine sameEnv sameFault unheard
      cases sameMachine
      cases sameFault
      rw [← sameEnv, ← unheard]

/-! ## Runs -/

/-- The machine and the environment after a number of steps, if none of them fails. -/
def proceed (ports : Ports σ) : Nat → Machine → σ → Option (Machine × σ)
  | 0, machine, env => some (machine, env)
  | count + 1, machine, env =>
      match step ports machine env with
      | { machine, env, fault := none } => proceed ports count machine env
      | { fault := some _, .. } => none

/-- A run that fails has come by its steps to a machine that it does not stop at and whose next step
fails. -/
theorem exists_failing_advance (ports : Ports σ) {stop : Machine → Bool} {fuel steps : Nat}
    {machine : Machine} {env : σ} {fault : StepFault}
    (failed : (advance ports stop fuel steps machine env).ending = .failed fault) :
    let progress := advance ports stop fuel steps machine env
    ∃ count reached later, progress.steps = steps + count ∧
      proceed ports count machine env = some (reached, later) ∧ stop reached = false ∧
      step ports reached later =
        { machine := progress.machine, env := progress.env, fault := some fault } := by
  induction fuel generalizing steps machine env with
  | zero =>
      simp only [advance] at failed
      split at failed
      · cases failed
      · cases failed
  | succ fuel ih =>
      unfold advance at failed ⊢
      split at failed
      · cases failed
      next running =>
        rw [if_neg running]
        cases stepped : step ports machine env with
        | mk after afterEnv complaint =>
            rw [stepped] at failed
            cases complaint with
            | none =>
                obtain ⟨count, reached, later, counted, goes, active, fails⟩ := ih failed
                have shifted : steps + 1 + count = steps + (count + 1) := by omega
                refine ⟨count + 1, reached, later, counted.trans shifted, ?_, active, fails⟩
                rw [proceed, stepped]
                exact goes
            | some complaint =>
                cases failed
                exact ⟨0, machine, env, rfl, rfl, by simpa using running, stepped⟩

/-- A run that fails has come to a machine whose next step fails, and leaves what this step
leaves. -/
theorem exists_failing_run (ports : Ports σ) {fuel : Nat} {env : σ} {fault : StepFault}
    (failed : (machine.run ports fuel env).ending = .failed fault) :
    ∃ reached later,
      proceed ports (machine.run ports fuel env).steps machine env = some (reached, later) ∧
      (reached.step ports later).fault = some fault ∧
      Spares fault reached (machine.run ports fuel env).machine := by
  obtain ⟨count, reached, later, counted, goes, -, fails⟩ := exists_failing_advance ports failed
  have spared : Spares fault reached _ := spares_step ports later (by rw [fails])
  rw [fails] at spared
  refine ⟨reached, later, ?_, by rw [fails], spared⟩
  rw [Machine.run, counted, Nat.zero_add]
  exact goes

/-- An evaluation that fails has come to a machine whose next step fails. If the fault is of the
machine's own kind, nothing but the staged codes is gone. -/
theorem exists_failing_eval (ports : Ports σ) {fuel : Nat} {terminator text : String} {env : σ}
    {fault : StepFault}
    (failed : (machine.eval ports fuel terminator text env).ending = .failed fault) :
    let progress := machine.eval ports fuel terminator text env
    ∃ reached later,
      proceed ports progress.steps (machine.stage (codesOf (terminated terminator text))) env =
        some (reached, later) ∧
      (reached.step ports later).fault = some fault ∧
      (fault.isOwn = true → progress.machine = reached.clearStaged) ∧
      (fault.isOwn = false → Spares fault reached progress.machine) := by
  intro progress
  cases running : machine.halted with
  | true =>
      rw [eval_of_halted ports fuel terminator text running] at failed
      cases failed
  | false =>
      have equal : progress = _ := eval_of_running ports fuel terminator text running env
      rw [eval_of_running ports fuel terminator text running, Progress.ending_settle] at failed
      obtain ⟨count, reached, later, counted, goes, -, fails⟩ :=
        exists_failing_advance ports failed
      have spared : Spares fault reached _ := spares_step ports later (by rw [fails])
      rw [fails] at spared
      rw [Nat.zero_add] at counted
      refine ⟨reached, later, ?_, by rw [fails], ?_, ?_⟩
      · rw [equal, Progress.steps_settle, counted]
        exact goes
      · intro own
        have whole := spared.whole (by rintro tight rfl; cases own)
        simp only [equal, Progress.settle, failed, own, if_true]
        exact congrArg clearStaged whole
      · intro foreign
        simp only [equal, Progress.settle, failed, foreign]
        exact spared

/-- Failures change nothing, and stop a run where they happen. Whatever the machine is, its memory,
its program counter and its queue, and however its ports behave: a step that fails spares the
machine, and its sink has accepted nothing. A run or an evaluation that fails after a number of
completed steps leaves what those steps led to, as the failing step spares it; and if the fault is
of the machine's own kind, the evaluation leaves nothing staged. In unlimited room, where nothing
fails for want of room, to be spared is to be unchanged. -/
theorem failures_spare_machine (ports : Ports σ) (machine : Machine) (env : σ) :
    (∀ fault, (machine.step ports env).fault = some fault →
      Spares fault machine (machine.step ports env).machine ∧
      ∀ accepted, machine.step ports.logged (env, accepted) =
        { machine := (machine.step ports env).machine,
          env := ((machine.step ports env).env, accepted), fault := some fault }) ∧
    (∀ fuel fault, (machine.run ports fuel env).ending = .failed fault →
      ∃ reached later,
        proceed ports (machine.run ports fuel env).steps machine env = some (reached, later) ∧
        (reached.step ports later).fault = some fault ∧
        Spares fault reached (machine.run ports fuel env).machine) ∧
    (∀ fuel terminator text fault,
      (machine.eval ports fuel terminator text env).ending = .failed fault →
      let progress := machine.eval ports fuel terminator text env
      ∃ reached later,
        proceed ports progress.steps (machine.stage (codesOf (terminated terminator text))) env =
          some (reached, later) ∧
        (reached.step ports later).fault = some fault ∧
        (fault.isOwn = true → progress.machine = reached.clearStaged) ∧
        (fault.isOwn = false → Spares fault reached progress.machine)) ∧
    (machine.memory.room = .unlimited → ∀ tight,
      (machine.step ports env).fault ≠ some (.storage tight) ∧
      (∀ fuel, (machine.run ports fuel env).ending ≠ .failed (.storage tight)) ∧
      ∀ fuel terminator text,
        (machine.eval ports fuel terminator text env).ending ≠ .failed (.storage tight)) := by
  refine ⟨?_, fun _ _ failed => exists_failing_run ports failed,
    fun _ _ _ _ failed => exists_failing_eval ports failed, ?_⟩
  · intro fault failed
    exact ⟨spares_step ports env failed, fun accepted => step_logged ports env accepted failed⟩
  · intro unlimited tight
    refine ⟨fun failed => not_isTight_step unlimited ports env ⟨tight, failed⟩,
      fun fuel => ending_advance_ne ports halted fuel 0 unlimited env tight,
      fun fuel terminator text => ?_⟩
    cases running : machine.halted with
    | true =>
        rw [eval_of_halted ports fuel terminator text running]
        exact Ending.noConfusion
    | false =>
        rw [eval_of_running ports fuel terminator text running, Progress.ending_settle]
        have staged : (machine.stage (codesOf (terminated terminator text))).memory.room =
            .unlimited := unlimited
        exact ending_advance_ne ports idle fuel 0 staged env tight

/-- A program that reads two codes and comes to an instruction whose second operand is no address:
of three codes it has read two, and the third is forgotten. -/
theorem failures_spare_machine_reading :
    let machine : Machine :=
      { memory := { width := 16, cells := #[-1, 9, 3, -1, 10, 6, 9, -2, 0, 0, 0] } }
    let progress := machine.eval Tape.ports 5 "" "abc" {}
    let fault : StepFault := .address (.operand .b (-2) 6)
    progress.ending = .failed fault ∧ progress.steps = 2 ∧
      ∃ reached later,
        proceed Tape.ports 2 (machine.stage (codesOf "abc")) {} = some (reached, later) ∧
        (reached.step Tape.ports later).fault = some fault ∧ reached.staged = [99] ∧
        progress.machine = reached.clearStaged ∧
        Spares fault reached (reached.step Tape.ports later).machine := by
  intro machine progress fault
  have ended : progress.ending = .failed fault := by decide +kernel
  have counted : progress.steps = 2 := by decide +kernel
  obtain ⟨-, -, evals, -⟩ := failures_spare_machine Tape.ports machine {}
  have own : fault.isOwn = true := by decide +kernel
  obtain ⟨reached, later, goes, fails, forgets, -⟩ := evals 5 "" "abc" fault ended
  rw [show (machine.eval Tape.ports 5 "" "abc" {}).steps = 2 from counted] at goes
  have unread : (proceed Tape.ports 2 (machine.stage (codesOf (terminated "" "abc"))) {}).map
      (·.1.staged) = some [99] := by decide +kernel
  refine ⟨ended, counted, reached, later, goes, fails, ?_, forgets own, ?_⟩
  · rw [goes] at unread
    exact Option.some.inj unread
  · exact ((failures_spare_machine Tape.ports reached later).1 fault fails).1

/-- A step that finds no room for the cell it reads into has lost the code: with cells of 70 bits,
an input instruction may name an address that no buffer reaches. -/
theorem read_code_is_lost :
    let machine : Machine :=
      { memory := { width := 70, cells := #[-1, 18446744073709551616, 3], room := .ordinary },
        staged := [97, 98] }
    let stepped := machine.step Tape.ports {}
    stepped.fault = some (.storage .indexTooLarge) ∧ stepped.machine.staged = [98] ∧
      stepped.machine.staged ≠ machine.staged := by
  decide +kernel

end Machine

end Subleq
