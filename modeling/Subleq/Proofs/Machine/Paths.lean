import Subleq.Proofs.Cell
import Subleq.Proofs.Machine.Refinement
import Subleq.Proofs.Machine.Runs

/-!
# Paths of the abstract machine

What a step of the abstract machine does, by the three cells at its program counter, and `Reaches`:
finitely many steps that succeed, none of which starts where a condition to stop holds. A run to
that condition follows every such path, and an evaluation follows a path to where the machine rests.
-/

namespace Subleq.Abstract

variable {σ : Type} {machine : Abstract}

/-- The machine with other cells, at another place. -/
def moved (machine : Abstract) (cell : Nat → Int) (pc : Int) : Abstract := { machine with cell, pc }

@[simp] theorem width_moved (cell : Nat → Int) (pc : Int) :
    (machine.moved cell pc).width = machine.width := rfl

@[simp] theorem cell_moved (cell : Nat → Int) (pc : Int) :
    (machine.moved cell pc).cell = cell := rfl

@[simp] theorem pc_moved (cell : Nat → Int) (pc : Int) : (machine.moved cell pc).pc = pc := rfl

@[simp] theorem staged_moved (cell : Nat → Int) (pc : Int) :
    (machine.moved cell pc).staged = machine.staged := rfl

@[simp] theorem moved_moved (cell other : Nat → Int) (pc next : Int) :
    (machine.moved cell pc).moved other next = machine.moved other next := rfl

theorem moved_self {pc : Int} (same : machine.pc = pc) :
    machine.moved machine.cell pc = machine := by
  cases same
  rfl

/-! ## Single steps -/

theorem step_subtract (ports : Ports σ) (env : σ) {start source target : Nat} {next : Int}
    (pc : machine.pc = start) (cellA : machine.cell start = source)
    (cellB : machine.cell (start + 1) = target) (cellC : machine.cell (start + 2) = next)
    (valid : -1 ≤ next) :
    machine.step ports env =
      { machine := machine.moved
          (Function.update machine.cell target
            (wrap machine.width (machine.cell target - machine.cell source)))
          (if wrap machine.width (machine.cell target - machine.cell source) ≤ 0 then next
            else (start + 3 : Nat)),
        env } := by
  simp only [step, pc, Int.toNat_natCast, cellA, cellB, cellC]
  rw [if_neg (by omega), if_neg (by omega), if_neg (by omega), if_neg (by omega),
    if_neg (by omega), if_neg (by omega)]
  by_cases taken : wrap machine.width (machine.cell target - machine.cell source) ≤ 0
  · rw [if_neg (by omega), if_neg (by omega), if_pos taken]
    simp [writeAndGo, assign, moved]
  · rw [if_pos (by omega), if_neg taken]
    simp [writeAndGo, assign, moved]

/-- An instruction that reads a code: the first staged one, or else one from the source. -/
theorem step_input (ports : Ports σ) (env : σ) {start target : Nat} (pc : machine.pc = start)
    (cellA : machine.cell start = -1) (cellB : machine.cell (start + 1) = target) :
    machine.step ports env =
      match Machine.nextCode ports machine.staged env with
      | (.ok (code, staged), env) =>
          { machine := { machine.moved (Function.update machine.cell target
              (wrap machine.width code)) (start + 3 : Nat) with staged }, env }
      | (.error fault, env) => { machine, env, fault := some (.port fault) } := by
  simp only [step, pc, Int.toNat_natCast, cellA, cellB]
  rw [if_neg (by omega), if_neg (by omega), if_neg (by omega), if_neg (by omega), if_pos trivial,
    if_neg (by omega)]
  cases queue : machine.staged with
  | cons code rest => rfl
  | nil =>
      simp only [Machine.nextCode]
      cases ports.source env with
      | mk result after => cases result <;> rfl

theorem step_output (ports : Ports σ) (env : σ) {start source : Nat} (pc : machine.pc = start)
    (cellA : machine.cell start = source) (cellB : machine.cell (start + 1) = -1) :
    machine.step ports env =
      match ports.sink (machine.cell source) env with
      | (.ok (), env) => { machine := machine.moved machine.cell (start + 3 : Nat), env }
      | (.error fault, env) => { machine, env, fault := some (.port fault) } := by
  simp only [step, pc, Int.toNat_natCast, cellA, cellB]
  rw [if_neg (by omega), if_neg (by omega), if_neg (by omega), if_neg (by omega),
    if_neg (by omega), if_pos trivial]
  rfl

/-! ## Paths -/

/-- Whether a condition to stop lets every instruction be executed that does not read input. -/
def Lively (stop : Abstract → Bool) : Prop :=
  ∀ machine : Abstract, 0 ≤ machine.pc → machine.cell machine.pc.toNat ≠ -1 → stop machine = false

theorem halted_of_nonneg {machine : Abstract} (nonneg : 0 ≤ machine.pc) :
    machine.halted = false := by
  simp only [halted, beq_eq_false_iff_ne]
  omega

theorem lively_halted : Lively halted := by
  intro machine nonneg _
  exact halted_of_nonneg nonneg

theorem lively_idle : Lively idle := by
  intro machine nonneg instruction
  simp [idle, halted_of_nonneg nonneg, waiting, instruction]

/-- A number of steps that succeed leads from one machine and environment to another, and none of
them starts where `stop` holds. -/
inductive Reaches (ports : Ports σ) (stop : Abstract → Bool) :
    Nat → Abstract → σ → Abstract → σ → Prop where
  | refl (machine : Abstract) (env : σ) : Reaches ports stop 0 machine env machine env
  | head {count : Nat} {machine middle last : Abstract} {env middleEnv lastEnv : σ} :
      stop machine = false →
      machine.step ports env = { machine := middle, env := middleEnv } →
      Reaches ports stop count middle middleEnv last lastEnv →
      Reaches ports stop (count + 1) machine env last lastEnv

namespace Reaches

variable {ports : Ports σ} {stop : Abstract → Bool} {first middle last : Abstract}
  {firstEnv middleEnv lastEnv : σ} {count more : Nat}

theorem single (active : stop first = false)
    (stepped : first.step ports firstEnv = { machine := middle, env := middleEnv }) :
    Reaches ports stop 1 first firstEnv middle middleEnv :=
  .head active stepped (.refl middle middleEnv)

theorem trans (left : Reaches ports stop count first firstEnv middle middleEnv)
    (right : Reaches ports stop more middle middleEnv last lastEnv) :
    Reaches ports stop (count + more) first firstEnv last lastEnv := by
  induction left with
  | refl => simpa using right
  | head active stepped _ ih =>
      rw [Nat.succ_add]
      exact .head active stepped (ih right)

theorem advance_eq (path : Reaches ports stop count first firstEnv last lastEnv)
    (fuel steps : Nat) :
    advance ports stop (count + fuel) steps first firstEnv =
      advance ports stop fuel (steps + count) last lastEnv := by
  induction path generalizing steps with
  | refl => simp
  | @head count machine middle last env middleEnv lastEnv active stepped _ ih =>
      rw [Nat.succ_add, advance, active, stepped]
      simp only [Bool.false_eq_true, if_false]
      rw [ih, show steps + 1 + count = steps + (count + 1) by omega]

/-- A run that follows a path to where it has to stop ends there. -/
theorem advance_stopped (path : Reaches ports stop count first firstEnv last lastEnv)
    (stopped : stop last = true) {fuel : Nat} (enough : count ≤ fuel) (steps : Nat) :
    advance ports stop fuel steps first firstEnv =
      { machine := last, env := lastEnv, steps := steps + count, ending := .stopped } := by
  obtain ⟨more, rfl⟩ := Nat.exists_eq_add_of_le enough
  rw [path.advance_eq]
  cases more with
  | zero => simp [advance, stopped]
  | succ more => simp [advance, stopped]

end Reaches

end Subleq.Abstract

namespace Subleq.Machine

variable {σ : Type} {ports : Ports σ} {machine : Machine}

theorem idle_view (machine : Machine) : machine.idle = machine.view.idle := by
  have shown : machine.waiting = machine.view.waiting := by
    rw [Bool.eq_iff_iff, waiting_eq_true_iff, Abstract.waiting, Bool.and_eq_true, Bool.and_eq_true,
      List.isEmpty_iff, beq_iff_eq, decide_eq_true_iff, Int.not_lt, and_assoc]
    rfl
  rw [idle, shown]
  rfl

/-- A run with a bound as long as a path ends where the path does. -/
theorem run_along (unlimited : machine.memory.room = .unlimited) {count : Nat} {env lastEnv : σ}
    {last : Abstract}
    (path : Abstract.Reaches ports Abstract.halted count machine.view env last lastEnv) :
    let progress := machine.run ports count env
    progress.machine.view = last ∧ progress.env = lastEnv ∧ progress.steps = count ∧
      ∀ fault, progress.ending ≠ .failed fault := by
  have followed := path.advance_eq 0 0
  rw [Nat.add_zero, Nat.zero_add] at followed
  have shown := (view_run ports count unlimited env).trans followed
  refine ⟨congrArg Abstract.Progress.machine shown, congrArg Abstract.Progress.env shown,
    congrArg Abstract.Progress.steps shown, ?_⟩
  intro fault failed
  have ended := (congrArg Abstract.Progress.ending shown).symm.trans failed
  simp only [Abstract.advance] at ended
  split at ended
  · cases ended
  · cases ended

theorem run_of_reaches (unlimited : machine.memory.room = .unlimited) {count : Nat}
    {env lastEnv : σ} {last : Abstract}
    (path : Abstract.Reaches ports Abstract.halted count machine.view env last lastEnv)
    (stops : last.halted = true) {fuel : Nat} (enough : count ≤ fuel) :
    let progress := machine.run ports fuel env
    progress.ending = .stopped ∧ progress.env = lastEnv ∧ progress.machine.view = last := by
  have shown := view_run ports fuel unlimited env
  rw [path.advance_stopped stops enough] at shown
  exact ⟨congrArg Abstract.Progress.ending shown, congrArg Abstract.Progress.env shown,
    congrArg Abstract.Progress.machine shown⟩

/-- An evaluation follows a path to where the machine rests or halts; after the halt nothing stays
staged. -/
theorem evalCodes_of_reaches (unlimited : machine.memory.room = .unlimited)
    (running : machine.halted = false) {terminator codes : List Int} {count : Nat}
    {env lastEnv : σ} {last : Abstract}
    (path : Abstract.Reaches ports Abstract.idle count
      (machine.stage (terminatedCodes terminator codes)).view env last lastEnv)
    (rests : last.idle = true) {fuel : Nat} (enough : count ≤ fuel) :
    let progress := machine.evalCodes ports fuel terminator codes env
    progress.ending = .stopped ∧ progress.env = lastEnv ∧
      progress.machine.memory.room = .unlimited ∧
      progress.machine.view = if last.halted then { last with staged := [] } else last := by
  have room : (machine.stage (terminatedCodes terminator codes)).memory.room = .unlimited :=
    unlimited
  have shown := view_advance ports idle_view fuel 0 room env
  rw [path.advance_stopped rests enough] at shown
  have stopped := congrArg Abstract.Progress.ending shown
  have arrived := congrArg Abstract.Progress.machine shown
  have roomAfter := room_advance ports idle fuel 0
    (machine.stage (terminatedCodes terminator codes)) env
  rw [evalCodes_of_running ports fuel terminator codes running, Progress.settle_of_stopped stopped]
  refine ⟨stopped, congrArg Abstract.Progress.env shown, ?_, ?_⟩
  · split
    · exact roomAfter.trans unlimited
    · exact roomAfter.trans unlimited
  · have halts : (advance ports idle fuel 0 (machine.stage (terminatedCodes terminator codes))
        env).machine.halted = last.halted := congrArg Abstract.halted arrived
    rw [halts]
    split
    · exact congrArg (fun shown : Abstract => { shown with staged := [] }) arrived
    · exact arrived

end Subleq.Machine
