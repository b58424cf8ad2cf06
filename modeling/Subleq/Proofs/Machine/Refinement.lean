import Subleq.Proofs.Machine.Abstract
import Subleq.Proofs.Machine.Step

/-!
# The buffer does not show

An operation of a machine is the same operation of the abstract machine it shows, unless it finds no
room; and it tells what is wrong in the same way, unless the complaint cannot be written. In
unlimited room every operation finds room. Hence no sequence of operations can tell two machines
apart whose buffers differ only in zeros at their ends, as long as there is room.
-/

namespace Subleq

namespace Memory

theorem read_eq (memory : Memory) (location : Int) :
    memory.read location =
      if location < 0 then .error (.cell location) else .ok (memory.get location.toNat) := by
  unfold read address
  split <;> rfl

theorem dump_eq (memory : Memory) (start count : Int) :
    memory.dump start count =
      if count ≤ 0 then .ok []
      else if start < 0 then .error (.cell start)
      else .ok ((List.range' start.toNat count.toNat).map memory.get) := by
  unfold dump address
  split
  · rfl
  · split <;> rfl

/-- A write judges its address before it asks for room. -/
theorem write_eq (memory : Memory) (location value : Int) :
    memory.write location value =
      if location < 0 then (.error (.address (.cell location)), memory)
      else
        let (result, after) := memory.store location.toNat value
        (result.mapError .storage, after) := by
  unfold write address
  by_cases negative : location < 0
  · rw [if_pos negative, if_pos negative]
  · rw [if_neg negative, if_neg negative]

theorem writeBlock_eq (memory : Memory) (base : Int) (values : List Int) :
    memory.writeBlock base values =
      if base < 0 then (.error (.address (.cell base)), memory)
      else
        let (result, after) := memory.storeBlock base.toNat values
        (result.mapError .storage, after) := by
  unfold writeBlock address
  by_cases negative : base < 0
  · rw [if_pos negative, if_pos negative]
  · rw [if_neg negative, if_neg negative]

theorem write_of_unlimited {memory : Memory} (unlimited : memory.room = .unlimited)
    (location value : Int) :
    memory.write location value =
      if location < 0 then (.error (.address (.cell location)), memory)
      else (.ok (), memory.set location.toNat value) := by
  rw [write_eq, store_of_unlimited unlimited]
  rfl

theorem writeBlock_of_unlimited {memory : Memory} (unlimited : memory.room = .unlimited)
    (base : Int) (values : List Int) :
    memory.writeBlock base values =
      if base < 0 then (.error (.address (.cell base)), memory)
      else (.ok values.length, memory.setBlock base.toNat values) := by
  rw [writeBlock_eq, storeBlock_of_unlimited unlimited]
  rfl

end Memory

namespace Machine

variable {σ : Type}

/-! ## Loads -/

theorem install_of_unlimited {machine : Machine} (unlimited : machine.memory.room = .unlimited)
    (base : Nat) (values : List Int) :
    machine.install base values =
      (.ok values.length, { machine with memory := machine.memory.setBlock base values }) := by
  unfold install
  rw [Memory.storeBlock_of_unlimited unlimited]
  rfl

theorem view_setBlock (machine : Machine) (base : Nat) (values : List Int) :
    Machine.view { machine with memory := machine.memory.setBlock base values } =
      machine.view.place base values := by
  simp [view, Abstract.place, Memory.get_setBlock]

theorem view_reset (machine : Machine) : machine.reset.view = machine.view.reset := by
  simp [view, reset, Abstract.reset]

/-- In unlimited room a loaded image is all there is in the memory. -/
theorem view_load {machine : Machine} (unlimited : machine.memory.room = .unlimited)
    (values : List Int) (base : Nat) :
    (machine.load values base).2.view = machine.view.reset.place base values := by
  have cleared : machine.reset.memory.room = .unlimited := unlimited
  have valid : loadBase base = .ok base := by
    simp [loadBase]
  rw [load, valid]
  simp only [install_of_unlimited cleared, view_setBlock, view_reset]

/-- In unlimited room a loaded image is laid over zeros. -/
theorem get_load {machine : Machine} (unlimited : machine.memory.room = .unlimited)
    (values : List Int) (base : Nat) :
    (machine.load values base).2.memory.get =
      overlay machine.memory.width base values fun _ => 0 :=
  congrArg Abstract.cell (view_load unlimited values base)

theorem room_load {machine : Machine} (unlimited : machine.memory.room = .unlimited)
    (values : List Int) (base : Nat) :
    (machine.load values base).2.memory.room = .unlimited := by
  have cleared : machine.reset.memory.room = .unlimited := unlimited
  have valid : loadBase base = .ok base := by
    simp [loadBase]
  rw [load, valid]
  simp only [install_of_unlimited cleared]
  simpa using cleared

/-! ## Steps -/

/-- Whether a step found no room. -/
def Stepped.IsTight (stepped : Stepped σ) : Prop := ∃ tight, stepped.fault = some (.storage tight)

theorem store_of_not_isTight {machine : Machine} {target : Nat} {value next : Int}
    {staged : List Int} {env : σ} (fits : ¬(machine.store target value next staged env).IsTight) :
    machine.store target value next staged env =
      { machine := { memory := machine.memory.set target value, pc := next, staged }, env } := by
  obtain ⟨memory, pc, queue⟩ := machine
  have stored : memory.store target value = (.ok (), memory.set target value) := by
    refine Memory.store_eq_of_ne_error fun tight full => fits ⟨tight, ?_⟩
    cases answered : memory.store target value with
    | mk result after =>
        rw [answered] at full
        cases full
        simp only [store, answered]
  simp only [store, stored]

theorem store_of_unlimited {machine : Machine} (unlimited : machine.memory.room = .unlimited)
    (target : Nat) (value next : Int) (staged : List Int) (env : σ) :
    machine.store target value next staged env =
      { machine := { memory := machine.memory.set target value, pc := next, staged }, env } := by
  obtain ⟨memory, pc, queue⟩ := machine
  simp only [store, Memory.store_of_unlimited unlimited]

theorem view_set (machine : Machine) (target : Nat) (value next : Int) (staged : List Int) :
    Machine.view { memory := machine.memory.set target value, pc := next, staged } =
      machine.view.writeAndGo target value next staged := by
  simp [view, Abstract.writeAndGo, Abstract.assign, Memory.get_set]

/-- What a step leaves as it shows. -/
def Stepped.view (stepped : Stepped σ) : Abstract.Stepped σ :=
  { machine := stepped.machine.view, env := stepped.env, fault := stepped.fault }

/-- The instruction of a machine, by the operands that it shows. -/
theorem decode_of_nonneg {machine : Machine} (nonnegative : ¬machine.view.pc < 0) :
    decode machine.memory machine.pc =
      decodeOperands (machine.view.cell machine.view.pc.toNat)
        (machine.view.cell (machine.view.pc.toNat + 1)) machine.view.pc :=
  if_neg nonnegative

theorem halted_eq_true {machine : Machine} (halt : machine.view.pc = -1) :
    machine.halted = true := by
  unfold halted
  rw [show machine.pc = -1 from halt]
  rfl

theorem halted_eq_false {machine : Machine} (running : ¬machine.view.pc = -1) :
    machine.halted = false := by
  unfold halted
  exact beq_eq_false_iff_ne.mpr running

/-- An input step that finds room shows as an input step. -/
theorem view_step_input {machine : Machine} (ports : Ports σ) (env : σ)
    (fits : ¬(step ports machine env).IsTight) (running : ¬machine.view.pc = -1) {target : Nat}
    (decoded : decode machine.memory machine.pc = .ok (.input target)) :
    (step ports machine env).view =
      match machine.staged with
      | code :: rest =>
          { machine := machine.view.writeAndGo target code (machine.pc + 3) rest, env }
      | [] =>
          match ports.source env with
          | (.ok code, env) =>
              { machine := machine.view.writeAndGo target code (machine.pc + 3) [], env }
          | (.error fault, env) =>
              { machine := machine.view, env, fault := some (.port fault) } := by
  rw [step_of_input ports env (halted_eq_false running) decoded] at fits ⊢
  cases queue : machine.staged with
  | cons code rest =>
      simp only [queue, nextCode] at fits ⊢
      rw [store_of_not_isTight fits, ← view_set]
      rfl
  | nil =>
      cases answered : ports.source env with
      | mk result after =>
          cases result with
          | ok code =>
              simp only [queue, nextCode, answered] at fits ⊢
              rw [store_of_not_isTight fits, ← view_set]
              rfl
          | error fault =>
              simp only [nextCode, answered]
              rfl

theorem view_step_output (machine : Machine) (ports : Ports σ) (env : σ)
    (running : ¬machine.view.pc = -1) {source : Nat}
    (decoded : decode machine.memory machine.pc = .ok (.output source)) :
    (step ports machine env).view =
      match ports.sink (machine.memory.get source) env with
      | (.ok (), env) => { machine := { machine.view with pc := machine.pc + 3 }, env }
      | (.error fault, env) => { machine := machine.view, env, fault := some (.port fault) } := by
  rw [step_of_output ports env (halted_eq_false running) decoded]
  cases answered : ports.sink (machine.memory.get source) env with
  | mk result after =>
      cases result with
      | ok => simp [Stepped.view, view]
      | error fault => simp [Stepped.view]

/-- A subtraction that finds room shows as a subtraction; the target of a branch is looked at only
if it is taken, but before anything is written. -/
theorem view_step_subtract {machine : Machine} (ports : Ports σ) (env : σ)
    (fits : ¬(step ports machine env).IsTight) (running : ¬machine.view.pc = -1)
    {source target : Nat}
    (decoded : decode machine.memory machine.pc = .ok (.subtract source target)) :
    (step ports machine env).view =
      let result := wrap machine.memory.width
        (machine.memory.get target - machine.memory.get source)
      let next := machine.memory.get (machine.pc.toNat + 2)
      if 0 < result then
        { machine := machine.view.writeAndGo target result (machine.pc + 3) machine.staged, env }
      else if next < -1 then
        { machine := machine.view, env, fault := some (.address (.operand .c next machine.pc)) }
      else { machine := machine.view.writeAndGo target result next machine.staged, env } := by
  have notHalted := halted_eq_false running
  cases fitting : machine.memory.widthFault? with
  | some tight =>
      rw [step_of_tight ports env notHalted decoded fitting] at fits
      exact absurd ⟨tight, rfl⟩ fits
  | none =>
      by_cases positive : 0 < wrap machine.memory.width
          (machine.memory.get target - machine.memory.get source)
      · rw [step_of_passed ports env notHalted decoded fitting (by omega)] at fits ⊢
        rw [store_of_not_isTight fits, if_pos positive, ← view_set]
        rfl
      · rw [step_of_taken ports env notHalted decoded fitting (by omega)] at fits ⊢
        rw [if_neg positive]
        by_cases invalid : machine.memory.get (machine.pc.toNat + 2) < -1
        · simp [branchTarget, sentinel, invalid, Stepped.view]
        · simp only [branchTarget, sentinel, invalid, if_false] at fits ⊢
          rw [store_of_not_isTight fits, ← view_set]
          rfl

/-- A step that finds room shows as a step of the abstract machine. -/
theorem view_step_of_fits {machine : Machine} (ports : Ports σ) (env : σ)
    (fits : ¬(step ports machine env).IsTight) :
    (step ports machine env).view = machine.view.step ports env := by
  unfold Abstract.step
  by_cases halt : machine.view.pc = -1
  · rw [step_of_halted ports env (halted_eq_true halt), if_pos halt]
    rfl
  have notHalted := halted_eq_false halt
  have refused {fault : AddressFault} (error : decode machine.memory machine.pc = .error fault) :
      (step ports machine env).view =
        { machine := machine.view, env, fault := some (.address fault) } := by
    rw [step_of_error ports env notHalted error]
    rfl
  rw [if_neg halt]
  by_cases negative : machine.view.pc < 0
  · rw [if_pos negative]
    exact refused (if_pos negative)
  have decoded := decode_of_nonneg negative
  rw [if_neg negative]
  unfold decodeOperands sentinel at decoded
  -- The operands are judged in the same order on both sides.
  by_cases badA : machine.view.cell machine.view.pc.toNat < -1
  · rw [if_pos badA]
    exact refused (decoded.trans (if_pos badA))
  rw [if_neg badA] at decoded ⊢
  by_cases badB : machine.view.cell (machine.view.pc.toNat + 1) < -1
  · rw [if_pos badB]
    exact refused (decoded.trans (if_pos badB))
  rw [if_neg badB] at decoded ⊢
  by_cases input : machine.view.cell machine.view.pc.toNat = -1
  · rw [if_pos input] at decoded ⊢
    by_cases noTarget : machine.view.cell (machine.view.pc.toNat + 1) = -1
    · rw [if_pos noTarget]
      exact refused (decoded.trans (if_pos noTarget))
    · rw [if_neg noTarget] at decoded ⊢
      exact view_step_input ports env fits halt decoded
  rw [if_neg input] at decoded ⊢
  by_cases output : machine.view.cell (machine.view.pc.toNat + 1) = -1
  · rw [if_pos output] at decoded ⊢
    exact view_step_output machine ports env halt decoded
  · rw [if_neg output] at decoded ⊢
    exact view_step_subtract ports env fits halt decoded

theorem not_isTight_step {machine : Machine} (unlimited : machine.memory.room = .unlimited)
    (ports : Ports σ) (env : σ) : ¬(step ports machine env).IsTight := by
  fun_cases step ports machine env <;>
    simp_all [Stepped.IsTight, store_of_unlimited, Memory.widthFault?]

/-! ## What stays in unlimited room -/

@[simp] theorem room_store (machine : Machine) (target : Nat) (value next : Int)
    (staged : List Int) (env : σ) :
    (machine.store target value next staged env).machine.memory.room = machine.memory.room := by
  obtain ⟨memory, pc, queue⟩ := machine
  have kept := Memory.room_store memory target value
  cases stored : memory.store target value with
  | mk result after =>
      rw [stored] at kept
      cases result with
      | ok => simpa only [store, stored] using kept
      | error fault => simpa only [store, stored] using kept

/-- A step does not change the room a machine lives in. -/
@[simp] theorem room_step (ports : Ports σ) (machine : Machine) (env : σ) :
    (step ports machine env).machine.memory.room = machine.memory.room := by
  fun_cases step ports machine env <;> simp

/-! ## Runs -/

/-- What a run leaves as it shows. -/
def Progress.view (progress : Progress σ) : Abstract.Progress σ :=
  { machine := progress.machine.view, env := progress.env, steps := progress.steps,
    ending := progress.ending }

/-- A run that finds room shows as a run of the abstract machine, for every condition to stop that
can be seen on the abstract machine. -/
theorem view_advance_of_fits (ports : Ports σ) {stop : Machine → Bool} {stopView : Abstract → Bool}
    (visible : ∀ machine : Machine, stop machine = stopView machine.view) (fuel steps : Nat)
    {machine : Machine} (env : σ)
    (fits : ∀ tight, (advance ports stop fuel steps machine env).ending ≠
      .failed (.storage tight)) :
    (advance ports stop fuel steps machine env).view =
      Abstract.advance ports stopView fuel steps machine.view env := by
  induction fuel generalizing steps machine env with
  | zero =>
      simp only [advance, Abstract.advance, visible]
      rfl
  | succ fuel ih =>
      unfold advance at fits
      unfold advance Abstract.advance
      rw [visible] at fits ⊢
      cases stopped : stopView machine.view with
      | true => rfl
      | false =>
          rw [stopped] at fits
          cases stepped : step ports machine env with
          | mk after afterEnv fault =>
              rw [stepped] at fits
              -- The run is tight if its next step is.
              have roomy : ¬(step ports machine env).IsTight := by
                rintro ⟨tight, failed⟩
                rw [stepped] at failed
                cases failed
                exact fits tight rfl
              rw [← view_step_of_fits ports env roomy, stepped]
              cases fault with
              | none => exact ih (steps + 1) afterEnv fits
              | some fault => rfl

theorem ending_advance_ne (ports : Ports σ) (stop : Machine → Bool) (fuel steps : Nat)
    {machine : Machine} (unlimited : machine.memory.room = .unlimited) (env : σ)
    (tight : StorageFault) :
    (advance ports stop fuel steps machine env).ending ≠ .failed (.storage tight) := by
  induction fuel generalizing steps machine env with
  | zero =>
      simp only [advance]
      split <;> exact Ending.noConfusion
  | succ fuel ih =>
      have roomy := not_isTight_step unlimited ports env
      have room := room_step ports machine env
      unfold advance
      split
      · exact Ending.noConfusion
      · split
        next stepped =>
          rw [stepped] at room
          exact ih (steps + 1) (room.trans unlimited) _
        next stepped =>
          rw [stepped] at roomy
          rintro failed
          cases failed
          exact roomy ⟨tight, rfl⟩

/-- In unlimited room a run shows as a run of the abstract machine. -/
theorem view_advance (ports : Ports σ) {stop : Machine → Bool} {stopView : Abstract → Bool}
    (visible : ∀ machine : Machine, stop machine = stopView machine.view) (fuel steps : Nat)
    {machine : Machine} (unlimited : machine.memory.room = .unlimited) (env : σ) :
    (advance ports stop fuel steps machine env).view =
      Abstract.advance ports stopView fuel steps machine.view env :=
  view_advance_of_fits ports visible fuel steps env
    (ending_advance_ne ports stop fuel steps unlimited env)

/-- In unlimited room a run to the halt shows as one of the abstract machine. -/
theorem view_run (ports : Ports σ) (fuel : Nat) {machine : Machine}
    (unlimited : machine.memory.room = .unlimited) (env : σ) :
    (machine.run ports fuel env).view =
      Abstract.advance ports Abstract.halted fuel 0 machine.view env :=
  @view_advance σ ports halted Abstract.halted (fun _ => rfl) fuel 0 machine unlimited env

theorem room_advance (ports : Ports σ) (stop : Machine → Bool) (fuel steps : Nat)
    (machine : Machine) (env : σ) :
    (advance ports stop fuel steps machine env).machine.memory.room = machine.memory.room := by
  induction fuel generalizing steps machine env with
  | zero => rfl
  | succ fuel ih =>
      have room := room_step ports machine env
      unfold advance
      split
      · rfl
      · split
        next stepped =>
          rw [stepped] at room
          rw [ih]
          exact room
        next stepped =>
          rw [stepped] at room
          exact room


end Machine

end Subleq
