import Subleq.Proofs.Machine.Bounds
import Subleq.Proofs.Machine.Refinement
import Subleq.Proofs.Machine.Resting

/-!
# What an evaluation leaves staged

An evaluation that halts, rests or fails by a fault of the machine's own kind leaves nothing staged.
What it leaves otherwise depends on where it was stopped: when a bound on its steps is used up, when
there is no room for a cell, or when the complaint about an operand has too many digits to be
written. The last two are out of reach of a machine of modest size.
-/

namespace Subleq

/-- Ports that never fail. -/
structure Ports.Unfailing {σ : Type} (ports : Ports σ) : Prop where
  source : ∀ env, ∃ code later, ports.source env = (.ok code, later)
  sink : ∀ code env, ∃ later, ports.sink code env = (.ok (), later)

namespace Machine

variable {σ : Type} {machine : Machine}

/-! ## Nothing staged -/

theorem staged_store (machine : Machine) (target : Nat) (value next : Int) (staged : List Int)
    (env : σ) : (machine.store target value next staged env).machine.staged = staged := by
  unfold store
  dsimp only
  split
  · rfl
  · rfl

theorem staged_step (ports : Ports σ) (empty : machine.staged = []) (env : σ) :
    (machine.step ports env).machine.staged = [] := by
  have read : ∀ code staged later,
      nextCode ports machine.staged env = (.ok (code, staged), later) → staged = [] := by
    intro code staged later answered
    rw [empty, nextCode] at answered
    split at answered
    · cases answered
      rfl
    · cases answered
  fun_cases step ports machine env with
  | case4 target _ _ code staged later answered =>
      rw [staged_store]
      exact read code staged later answered
  | _ => simp [staged_store, empty]

theorem staged_advance (ports : Ports σ) (stop : Machine → Bool) (fuel steps : Nat)
    {machine : Machine} (empty : machine.staged = []) (env : σ) :
    (advance ports stop fuel steps machine env).machine.staged = [] := by
  induction fuel generalizing steps machine env with
  | zero => exact empty
  | succ fuel ih =>
      have next := staged_step ports empty env
      unfold advance
      split
      · exact empty
      · cases stepped : step ports machine env with
        | mk after afterEnv fault =>
            rw [stepped] at next
            cases fault with
            | none => exact ih (steps + 1) next afterEnv
            | some fault => exact next

/-- An evaluation leaves nothing staged, unless it is out of fuel or fails by a fault that is not of
the machine's own kind. -/
theorem staged_eval (ports : Ports σ) (fuel : Nat) (terminator text : String)
    (empty : machine.staged = []) (env : σ) :
    let progress := machine.eval ports fuel terminator text env
    progress.machine.staged = [] ∨ progress.ending = .outOfFuel ∨
      ∃ fault, progress.ending = .failed fault ∧ fault.isOwn = false := by
  intro progress
  cases running : machine.halted with
  | true =>
      left
      simp only [progress, eval_of_halted ports fuel terminator text running]
      exact empty
  | false =>
      cases ended : progress.ending with
      | stopped => exact Or.inl (rests_of_eval ports fuel terminator text running env ended).1
      | outOfFuel => exact Or.inr (Or.inl rfl)
      | failed fault =>
          cases own : fault.isOwn with
          | false => exact Or.inr (Or.inr ⟨fault, rfl, own⟩)
          | true =>
              left
              simp only [progress, eval_of_running ports fuel terminator text running] at ended ⊢
              rw [Progress.ending_settle] at ended
              simp [Progress.settle, ended, own, clearStaged]

theorem staged_loadData (machine : Machine) (data : List Datum) (base : Int) :
    (machine.loadData data base).2.staged = machine.staged := by
  unfold loadData
  split
  · rfl
  · split
    · rfl
    · rfl

theorem staged_loadText (machine : Machine) (text : String) (fresh : Bool) (base : Int) :
    (machine.loadText text fresh base).2.staged = machine.staged := by
  unfold loadText
  split
  · rfl
  · split
    · rfl
    · split
      · rfl
      · rfl

/-! ## Machines of modest size -/

/-- What a step complains of: integers that stand in the memory or in the program counter, what a
port complains of, or the room for the cell that `B` names. -/
inductive Blames (ports : Ports σ) (machine : Machine) : StepFault → Prop
  | address (fault : AddressFault)
      (named : ∀ number ∈ fault.named,
        number = machine.pc ∨ ∃ place, number = machine.memory.get place) :
      Blames ports machine (.address fault)
  | source (env : σ) (fault : PortFault) (fails : (ports.source env).1 = .error fault) :
      Blames ports machine (.port fault)
  | sink (code : Int) (env : σ) (fault : PortFault)
      (fails : (ports.sink code env).1 = .error fault) : Blames ports machine (.port fault)
  | width (fault : StorageFault) (tight : machine.memory.widthFault? = some fault) :
      Blames ports machine (.storage fault)
  | growth (target : Nat) (fault : StorageFault)
      (names : machine.memory.get (machine.pc.toNat + 1) = target)
      (tight : machine.memory.room.growthFault? (target + 1 - machine.memory.size) = some fault) :
      Blames ports machine (.storage fault)

theorem named_of_decode {fault : AddressFault}
    (refused : decode machine.memory machine.pc = .error fault) :
    ∀ number ∈ fault.named, number = machine.pc ∨ ∃ place, number = machine.memory.get place := by
  unfold decode decodeOperands at refused
  split at refused
  · cases refused
    simp [AddressFault.named]
  · repeat' split at refused
    all_goals cases refused
    all_goals simp [AddressFault.named]

theorem blames_store {ports : Ports σ} {target : Nat}
    (names : machine.memory.get (machine.pc.toNat + 1) = target) (value next : Int)
    (staged : List Int) (env : σ) {fault : StepFault}
    (failed : (machine.store target value next staged env).fault = some fault) :
    Blames ports machine fault := by
  obtain ⟨memory, pc, queue⟩ := machine
  unfold store Memory.store at failed
  dsimp only at failed names
  cases growing : memory.room.growthFault? (target + 1 - memory.size) with
  | some tight =>
      rw [growing] at failed
      cases failed
      exact .growth target tight names growing
  | none =>
      rw [growing] at failed
      cases fitting : memory.widthFault? with
      | some tight =>
          rw [fitting] at failed
          cases failed
          exact .width tight fitting
      | none =>
          rw [fitting] at failed
          cases failed

theorem source_of_nextCode {ports : Ports σ} {staged : List Int} {env later : σ}
    {fault : PortFault} (failed : nextCode ports staged env = (.error fault, later)) :
    (ports.source env).1 = .error fault := by
  unfold nextCode at failed
  split at failed
  · cases failed
  · split at failed
    next => cases failed
    next answered =>
      cases failed
      rw [answered]

/-- Every complaint of a step has its reason in the machine or in the ports. -/
theorem blames_step (ports : Ports σ) (env : σ) {fault : StepFault}
    (failed : (machine.step ports env).fault = some fault) : Blames ports machine fault := by
  cases running : machine.halted with
  | true =>
      rw [step_of_halted ports env running] at failed
      cases failed
  | false =>
      cases decoded : decode machine.memory machine.pc with
      | error bad =>
          rw [step_of_error ports env running decoded] at failed
          cases failed
          exact .address bad (named_of_decode decoded)
      | ok instruction =>
          have operands := operands_of_decode decoded
          cases instruction with
          | input target =>
              have names := (Prod.mk.inj operands).2.symm
              rw [step_of_input ports env running decoded] at failed
              cases answered : nextCode ports machine.staged env with
              | mk result later =>
                  rw [answered] at failed
                  cases result with
                  | ok read => exact blames_store names _ _ _ _ failed
                  | error bad =>
                      cases failed
                      exact .source env bad (source_of_nextCode answered)
          | output source =>
              rw [step_of_output ports env running decoded] at failed
              cases accepted : ports.sink (machine.memory.get source) env with
              | mk result later =>
                  rw [accepted] at failed
                  cases result with
                  | ok => cases failed
                  | error bad =>
                      cases failed
                      exact .sink _ _ bad (congrArg Prod.fst accepted)
          | subtract source target =>
              have names := (Prod.mk.inj operands).2.symm
              cases fitting : machine.memory.widthFault? with
              | some tight =>
                  rw [step_of_tight ports env running decoded fitting] at failed
                  cases failed
                  exact .width tight fitting
              | none =>
                  by_cases taken : wrap machine.memory.width
                      (machine.memory.get target - machine.memory.get source) ≤ 0
                  · rw [step_of_taken ports env running decoded fitting taken, branchTarget]
                      at failed
                    split at failed
                    next bad refused =>
                      split at refused
                      · cases refused
                        cases failed
                        exact .address _ (by simp [AddressFault.named])
                      · cases refused
                    next => exact blames_store names _ _ _ _ failed
                  · rw [step_of_passed ports env running decoded fitting taken] at failed
                    exact blames_store names _ _ _ _ failed

/-- Ports that never fail are not complained of. -/
theorem not_blames_port {ports : Ports σ} (unfailing : ports.Unfailing) (fault : PortFault) :
    ¬Blames ports machine (.port fault) := by
  intro blames
  cases blames with
  | source env _ fails =>
      obtain ⟨code, later, answers⟩ := unfailing.source env
      rw [answers] at fails
      cases fails
  | sink code env _ fails =>
      obtain ⟨later, accepts⟩ := unfailing.sink code env
      rw [accepts] at fails
      cases fails

/-- A run that fails has come to a step that fails, in a state with all that steps keep. -/
theorem exists_failing_step {ports : Ports σ} (kept : Machine → Prop)
    (keeps : ∀ machine env, kept machine → kept (step ports machine env).machine)
    {stop : Machine → Bool} {fuel steps : Nat} {machine : Machine} (holds : kept machine) {env : σ}
    {fault : StepFault}
    (failed : (advance ports stop fuel steps machine env).ending = .failed fault) :
    ∃ reached later, kept reached ∧ (step ports reached later).fault = some fault := by
  induction fuel generalizing steps machine env with
  | zero =>
      unfold advance at failed
      dsimp only at failed
      split at failed
      · cases failed
      · cases failed
  | succ fuel ih =>
      have next := keeps machine env holds
      unfold advance at failed
      split at failed
      · cases failed
      · cases stepped : step ports machine env with
        | mk after afterEnv complaint =>
            rw [stepped] at failed next
            cases complaint with
            | none => exact ih next failed
            | some complaint =>
                cases failed
                exact ⟨machine, env, holds, by rw [stepped]⟩

/-- The same of an evaluation, if what steps keep does not depend on what is staged. -/
theorem exists_failing_step_of_eval {ports : Ports σ} (kept : Machine → Prop)
    (keeps : ∀ machine env, kept machine → kept (step ports machine env).machine)
    (restage : ∀ machine staged, kept machine → kept { machine with staged }) {fuel : Nat}
    {terminator text : String} {machine : Machine} (holds : kept machine) {env : σ}
    {fault : StepFault}
    (failed : (eval ports fuel terminator text machine env).ending = .failed fault) :
    ∃ reached later, kept reached ∧ (step ports reached later).fault = some fault := by
  cases running : machine.halted with
  | true =>
      rw [eval_of_halted ports fuel terminator text running] at failed
      cases failed
  | false =>
      rw [eval_of_running ports fuel terminator text running, Progress.ending_settle] at failed
      exact exists_failing_step kept keeps (restage machine _ holds) failed

/-- An evaluation does not fail by ports that never fail. -/
theorem ending_eval_ne_port {ports : Ports σ} (unfailing : ports.Unfailing) (fuel : Nat)
    (terminator text : String) (env : σ) (fault : PortFault) :
    (machine.eval ports fuel terminator text env).ending ≠ .failed (.port fault) := by
  intro failed
  obtain ⟨reached, later, -, fails⟩ := exists_failing_step_of_eval (fun _ => True)
    (fun _ _ => id) (fun _ _ => id) trivial failed
  exact not_blames_port unfailing fault (blames_step ports later fails)

end Machine

/-- A memory whose addresses can all be written, in room for all that a program can ask for. -/
structure Memory.Modest (memory : Memory) : Prop where
  width : memory.width ≤ 14285
  size : memory.size + 2 < 10 ^ Text.Numeral.digitLimit
  cell : memory.widthFault? = none
  growth : ∀ count : Nat, count ≤ 2 ^ (memory.width - 1) → memory.room.growthFault? count = none

namespace Memory.Modest

variable {memory after : Memory}

theorem of_unlimited (width : memory.width ≤ 14285)
    (size : memory.size + 2 < 10 ^ Text.Numeral.digitLimit) (room : memory.room = .unlimited) :
    memory.Modest where
  width := width
  size := size
  cell := by simp [Memory.widthFault?, room]
  growth := by simp [room]

theorem bound_lt (modest : memory.Modest) :
    2 ^ (memory.width - 1) + 2 < 10 ^ Text.Numeral.digitLimit := by
  have narrow : memory.width - 1 ≤ 14284 := by
    have width := modest.width
    omega
  calc 2 ^ (memory.width - 1) + 2 ≤ 2 ^ 14284 + 2 :=
        Nat.add_le_add_right (Nat.pow_le_pow_right (by decide) narrow) 2
    _ < 10 ^ Text.Numeral.digitLimit := by decide +kernel

theorem grows (modest : memory.Modest) (room : after.room = memory.room)
    (grows : Grows (2 ^ (memory.width - 1)) memory after) : after.Modest where
  width := by
    rw [grows.width]
    exact modest.width
  size := by
    have bounded := grows.bounded
    have small := modest.size
    have named := modest.bound_lt
    omega
  cell := by
    rw [Memory.widthFault?, room, grows.width]
    exact modest.cell
  growth := by
    rw [room, grows.width]
    exact modest.growth

end Memory.Modest

namespace Machine.InBounds

variable {σ : Type} {ports : Ports σ} {width : Nat} {machine : Machine}

/-- The integers that a machine in bounds and of modest size can complain of can be written. -/
theorem isWritable (bounds : machine.InBounds width) (modest : machine.memory.Modest)
    {number : Int} (stands : number = machine.pc ∨ ∃ place, number = machine.memory.get place) :
    Text.isWritable number = true := by
  have bound : cellBound machine.memory.width = (2 ^ (machine.memory.width - 1) : Nat) := by
    rw [cellBound]
    norm_cast
  have named := modest.bound_lt
  have small := modest.size
  have special : sentinel = -1 := rfl
  rw [Text.isWritable, decide_eq_true_iff, Nat.pow_eq]
  generalize 10 ^ Text.Numeral.digitLimit = limit at *
  generalize 2 ^ (machine.memory.width - 1) = half at *
  rcases stands with rfl | ⟨place, rfl⟩
  · have low := bounds.counter
    have high := bounds.reach
    rw [← bounds.sameWidth] at high
    omega
  · obtain ⟨low, high⟩ := bounds.fits place
    omega

/-- A machine of modest size fails by faults of its own kind only, if its ports do not fail. -/
theorem isOwn_of_step (bounds : machine.InBounds width) (modest : machine.memory.Modest)
    (unfailing : ports.Unfailing) (env : σ) {fault : StepFault}
    (failed : (machine.step ports env).fault = some fault) : fault.isOwn = true := by
  cases blames_step ports env failed with
  | address bad named =>
      rw [StepFault.isOwn, AddressFault.isWritable, List.all_eq_true]
      intro number stands
      exact bounds.isWritable modest (named number stands)
  | source _ bad _ => exact absurd (blames_step ports env failed) (not_blames_port unfailing bad)
  | sink _ _ bad _ => exact absurd (blames_step ports env failed) (not_blames_port unfailing bad)
  | width bad tight =>
      rw [modest.cell] at tight
      cases tight
  | growth target bad names tight =>
      have fits := (bounds.fits (machine.pc.toNat + 1)).2
      rw [names, cellBound] at fits
      have low : target + 1 ≤ 2 ^ (machine.memory.width - 1) := by exact_mod_cast fits
      rw [modest.growth _ (Nat.le_trans (Nat.sub_le _ _) low)] at tight
      cases tight

/-- A step keeps a machine in bounds and of modest size. -/
theorem step_modest (positive : 0 < width) (bounds : machine.InBounds width)
    (modest : machine.memory.Modest) (env : σ) :
    (machine.step ports env).machine.InBounds width ∧
      (machine.step ports env).machine.memory.Modest := by
  obtain ⟨inBounds, grows⟩ := bounds.step positive ports env
  rw [← bounds.sameWidth] at grows
  exact ⟨inBounds, modest.grows (room_step ports machine env) grows⟩

/-- An evaluation on a machine of modest size fails by faults of its own kind only. -/
theorem isOwn_of_eval (positive : 0 < width) (unfailing : ports.Unfailing)
    (bounds : machine.InBounds width) (modest : machine.memory.Modest) {fuel : Nat}
    {terminator text : String} {env : σ} {fault : StepFault}
    (failed : (machine.eval ports fuel terminator text env).ending = .failed fault) :
    fault.isOwn = true := by
  obtain ⟨reached, later, ⟨inBounds, small⟩, fails⟩ := exists_failing_step_of_eval
    (fun machine => machine.InBounds width ∧ machine.memory.Modest)
    (fun _ env both => both.1.step_modest positive both.2 env)
    (fun _ staged both => ⟨both.1.restage staged, both.2⟩) ⟨bounds, modest⟩ failed
  exact inBounds.isOwn_of_step small unfailing later fails

end Machine.InBounds

end Subleq
