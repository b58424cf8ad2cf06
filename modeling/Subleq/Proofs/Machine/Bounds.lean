import Subleq.Config
import Subleq.Proofs.Cell
import Subleq.Proofs.Machine.Abstract
import Subleq.Proofs.Machine.Runs
import Subleq.Proofs.Machine.Step

/-!
# Bounds

The width of its cells bounds a machine. Every value it holds went through a cell, so an operand
names an address below the greatest value of a cell, and execution makes the buffer no longer than
that. The program counter is an operand too, or three cells behind an instruction; and an
instruction behind which control passes on is not wholly behind the buffer, since one that is
subtracts the first cell from itself and goes back to it.

These facts hold together of every machine that is built, loaded and executed in any order, whatever
room it lives in and whether or not what is asked of it fails.
-/

namespace Subleq

/-! ## Memory -/

namespace Memory

variable {memory after last : Memory} {limit : Nat}

theorem get_of_size_le {address : Nat} (behind : memory.size ≤ address) :
    memory.get address = 0 := by
  simp only [get, Array.getD_eq_getD_getElem?]
  rw [Array.getElem?_eq_none behind]
  rfl

/-- Whether all cells of a memory are in the range of its width. -/
def Fits (memory : Memory) : Prop := ∀ address, FitsCell memory.width (memory.get address)

/-- What writes do to a memory: its cells stay in range, and its buffer stays as long as it was or
grows, but not beyond a limit. -/
structure Grows (limit : Nat) (memory after : Memory) : Prop where
  width : after.width = memory.width
  fits : memory.Fits → after.Fits
  longer : memory.size ≤ after.size
  bounded : after.size ≤ max memory.size limit

namespace Grows

theorem refl (limit : Nat) (memory : Memory) : Grows limit memory memory where
  width := rfl
  fits := id
  longer := Nat.le_refl _
  bounded := Nat.le_max_left _ _

theorem trans (first : Grows limit memory after) (second : Grows limit after last) :
    Grows limit memory last where
  width := second.width.trans first.width
  fits := second.fits ∘ first.fits
  longer := first.longer.trans second.longer
  bounded := by
    have firstBounded := first.bounded
    have secondBounded := second.bounded
    omega

theorem mono {greater : Nat} (grows : Grows limit memory after) (le : limit ≤ greater) :
    Grows greater memory after where
  width := grows.width
  fits := grows.fits
  longer := grows.longer
  bounded := by
    have bounded := grows.bounded
    omega

theorem grow (memory : Memory) (size : Nat) : Grows size memory (memory.grow size) where
  width := rfl
  fits := by
    intro fits address
    have same : (memory.grow size).get address = memory.get address :=
      getD_extend memory.cells size address
    rw [same]
    exact fits address
  longer := by
    have grown : (memory.grow size).size = max memory.size size := size_extend memory.cells size
    omega
  bounded := Nat.le_of_eq (size_extend memory.cells size)

theorem setBlock (positive : 0 < memory.width) (base : Nat) (values : List Int) :
    Grows (base + values.length) memory (memory.setBlock base values) where
  width := rfl
  fits := by
    intro fits address
    rw [get_setBlock, width_setBlock, overlay]
    split
    · split
      · exact fitsCell_wrap positive _
      · exact fits address
    · exact fits address
  longer := by
    rw [size_setBlock]
    exact Nat.le_max_left _ _
  bounded := Nat.le_of_eq (size_setBlock memory base values)

theorem set (positive : 0 < memory.width) (target : Nat) (value : Int) :
    Grows (target + 1) memory (memory.set target value) where
  width := rfl
  fits := by
    intro fits address
    rw [get_set, width_set]
    by_cases same : address = target
    · rw [same, Function.update_self]
      exact fitsCell_wrap positive value
    · rw [Function.update_of_ne same]
      exact fits address
  longer := by
    rw [size_set]
    exact Nat.le_max_left _ _
  bounded := Nat.le_of_eq (size_set memory target value)

theorem store (positive : 0 < memory.width) (target : Nat) (value : Int) :
    Grows (target + 1) memory (memory.store target value).2 := by
  unfold Memory.store
  split
  · exact refl _ memory
  · split
    · exact grow memory (target + 1)
    · exact set positive target value

theorem storeBlock (positive : 0 < memory.width) (base : Nat) (values : List Int) :
    Grows (base + values.length) memory (memory.storeBlock base values).2 := by
  unfold Memory.storeBlock
  split
  · exact refl _ memory
  · split
    · exact grow memory (base + values.length)
    · exact setBlock positive base values

end Grows

end Memory

namespace Machine

variable {σ : Type} {machine : Machine}

/-! ## Steps -/

/-- Only a program counter that is no address is complained of. -/
theorem counter_of_decode {memory : Memory} {pc other : Int}
    (refused : decode memory pc = .error (.counter other)) : pc < 0 := by
  unfold decode decodeOperands at refused
  split at refused
  next negative => exact negative
  · repeat' split at refused
    all_goals cases refused

/-- What a step can do in any room: it fails and leaves the machine, or it passes over an
instruction that emits, or it writes the cell that `B` names and moves on. Behind a write control
passes on only if `A` and `B` differ, or else it branches to `C`. -/
theorem step_outcomes (running : machine.halted = false) (ports : Ports σ) (env : σ) :
    let a := machine.memory.get machine.pc.toNat
    let b := machine.memory.get (machine.pc.toNat + 1)
    let c := machine.memory.get (machine.pc.toNat + 2)
    ∃ later : σ,
      (∃ fault, (∀ pc, fault = .address (.counter pc) → machine.pc < 0) ∧
        machine.step ports env = { machine, env := later, fault := some fault }) ∨
      (a ≠ b ∧
        machine.step ports env =
          { machine := { machine with pc := machine.pc + 3 }, env := later }) ∨
      ∃ (target : Nat) (value next : Int) (staged : List Int), b = target ∧
        (next = machine.pc + 3 ∧ a ≠ b ∨ next = c ∧ sentinel ≤ c) ∧
        machine.step ports env = machine.store target value next staged later := by
  intro a b c
  have special : sentinel = -1 := rfl
  cases decoded : decode machine.memory machine.pc with
  | error fault =>
      refine ⟨env, Or.inl ⟨.address fault, ?_, step_of_error ports env running decoded⟩⟩
      rintro pc ⟨⟩
      exact counter_of_decode decoded
  | ok instruction =>
      have operands : instruction.operands = (a, b) := operands_of_decode decoded
      cases instruction with
      | input target =>
          obtain ⟨cellA, cellB⟩ := Prod.mk.inj operands
          rw [step_of_input ports env running decoded]
          cases nextCode ports machine.staged env with
          | mk result after =>
              refine ⟨after, ?_⟩
              cases result with
              | error fault => exact Or.inl ⟨.port fault, by simp, rfl⟩
              | ok read =>
                  exact Or.inr (Or.inr ⟨target, read.1, machine.pc + 3, read.2, cellB.symm,
                    Or.inl ⟨rfl, by omega⟩, rfl⟩)
      | output source =>
          obtain ⟨cellA, cellB⟩ := Prod.mk.inj operands
          rw [step_of_output ports env running decoded]
          cases ports.sink (machine.memory.get source) env with
          | mk result after =>
              refine ⟨after, ?_⟩
              cases result with
              | error fault => exact Or.inl ⟨.port fault, by simp, rfl⟩
              | ok done => exact Or.inr (Or.inl ⟨by omega, rfl⟩)
      | subtract source target =>
          obtain ⟨cellA, cellB⟩ := Prod.mk.inj operands
          refine ⟨env, ?_⟩
          cases fitting : machine.memory.widthFault? with
          | some fault =>
              rw [step_of_tight ports env running decoded fitting]
              exact Or.inl ⟨.storage fault, by simp, rfl⟩
          | none =>
              by_cases taken : wrap machine.memory.width
                  (machine.memory.get target - machine.memory.get source) ≤ 0
              · rw [step_of_taken ports env running decoded fitting taken]
                simp only [branchTarget]
                split
                next fault refused =>
                  split at refused
                  · cases refused
                    exact Or.inl ⟨_, by simp, rfl⟩
                  · cases refused
                next next valid =>
                  split at valid
                  · cases valid
                  next addresses =>
                    cases valid
                    exact Or.inr (Or.inr ⟨target, _, c, _, cellB.symm,
                      Or.inr ⟨rfl, Int.not_lt.mp addresses⟩, rfl⟩)
              · have distinct : a ≠ b := by
                  intro same
                  have equal : source = target := by omega
                  rw [equal, Int.sub_self, wrap_zero] at taken
                  exact taken (Int.le_refl 0)
                rw [step_of_passed ports env running decoded fitting taken]
                exact Or.inr (Or.inr ⟨target, _, machine.pc + 3, _, cellB.symm,
                  Or.inl ⟨rfl, distinct⟩, rfl⟩)

/-- A write leaves the memory that it was made to, control stays or moves on, and nothing but the
room is complained of. -/
theorem store_outcome (machine : Machine) (target : Nat) (value next : Int) (staged : List Int)
    (env : σ) :
    let stepped := machine.store target value next staged env
    stepped.machine.memory = (machine.memory.store target value).2 ∧
      (stepped.machine.pc = machine.pc ∨ stepped.machine.pc = next) ∧
      ∀ fault, stepped.fault ≠ some (.address fault) := by
  obtain ⟨memory, pc, queue⟩ := machine
  unfold store
  cases stored : memory.store target value with
  | mk result after =>
      dsimp only
      rw [stored]
      cases result with
      | ok => exact ⟨rfl, Or.inr rfl, by simp⟩
      | error fault => exact ⟨rfl, Or.inl rfl, by simp⟩

/-- Settling a run touches nothing but the staged codes. -/
theorem Progress.machine_settle (progress : Progress σ) :
    ∃ staged, progress.settle.machine = { progress.machine with staged } := by
  have either : ∀ forget : Bool, ∃ staged,
      (if forget then progress.machine.clearStaged else progress.machine) =
        { progress.machine with staged } := by
    intro forget
    cases forget with
    | true => exact ⟨[], rfl⟩
    | false => exact ⟨progress.machine.staged, rfl⟩
  exact either _

/-- A machine within the bounds of a width. -/
structure InBounds (width : Nat) (machine : Machine) : Prop where
  sameWidth : machine.memory.width = width
  fits : machine.memory.Fits
  counter : sentinel ≤ machine.pc
  reach : machine.pc ≤ max (cellBound width - 1) (machine.memory.size + 2)

/-- What execution does to a machine: it comes to be in bounds, and its buffer does not grow beyond
the addresses that a cell can name. -/
structure Executes (width : Nat) (machine after : Machine) : Prop where
  inBounds : after.InBounds width
  grows : Memory.Grows (2 ^ (width - 1)) machine.memory after.memory

/-- An instruction behind which control passes on begins inside the buffer. -/
theorem lt_size_of_distinct
    (distinct : machine.memory.get machine.pc.toNat ≠ machine.memory.get (machine.pc.toNat + 1)) :
    machine.pc < machine.memory.size := by
  by_contra behind
  have before : machine.memory.size ≤ machine.pc.toNat := by omega
  apply distinct
  rw [Memory.get_of_size_le before, Memory.get_of_size_le (before.trans (Nat.le_succ _))]

section Bounds

variable {width : Nat}

namespace InBounds

theorem restage (bounds : machine.InBounds width) (staged : List Int) :
    InBounds width { machine with staged } :=
  ⟨bounds.sameWidth, bounds.fits, bounds.counter, bounds.reach⟩

/-- A machine that writes a cell it can name, and goes to an address in reach, stays in bounds. -/
theorem store (positive : 0 < width) (bounds : machine.InBounds width) {target : Nat}
    (named : FitsCell width target) (value : Int) {next : Int} (counter : sentinel ≤ next)
    (reach : next ≤ max (cellBound width - 1) (machine.memory.size + 2)) (staged : List Int)
    (env : σ) : Executes width machine (machine.store target value next staged env).machine := by
  obtain ⟨memory, moved, -⟩ := store_outcome machine target value next staged env
  have low : target + 1 ≤ 2 ^ (width - 1) := by
    have upper := named.2
    unfold cellBound at upper
    exact_mod_cast upper
  have grows : Memory.Grows (2 ^ (width - 1)) machine.memory
      (machine.memory.store target value).2 :=
    (Memory.Grows.store (bounds.sameWidth ▸ positive) target value).mono low
  have longer := grows.longer
  have here := bounds.counter
  have near := bounds.reach
  refine ⟨⟨?_, ?_, ?_, ?_⟩, ?_⟩
  · rw [memory, grows.width, bounds.sameWidth]
  · rw [memory]
    exact grows.fits bounds.fits
  · rcases moved with stays | goes
    · rw [stays]
      exact here
    · rw [goes]
      exact counter
  · rw [memory]
    rcases moved with stays | goes
    · rw [stays]
      omega
    · rw [goes]
      omega
  · rw [memory]
    exact grows

theorem step (positive : 0 < width) (bounds : machine.InBounds width) (ports : Ports σ) (env : σ) :
    Executes width machine (machine.step ports env).machine := by
  have special : sentinel = -1 := rfl
  have inRange : ∀ address, FitsCell width (machine.memory.get address) := by
    intro address
    rw [← bounds.sameWidth]
    exact bounds.fits address
  cases running : machine.halted with
  | true =>
      rw [step_of_halted ports env running]
      exact ⟨bounds, .refl _ _⟩
  | false =>
      have here := bounds.counter
      obtain ⟨later, refuses | ⟨distinct, emits⟩ | ⟨target, value, next, staged, names, goes,
        stores⟩⟩ := step_outcomes running ports env
      · obtain ⟨fault, -, refused⟩ := refuses
        rw [refused]
        exact ⟨bounds, .refl _ _⟩
      · have inside := lt_size_of_distinct distinct
        rw [emits]
        refine ⟨⟨bounds.sameWidth, bounds.fits, ?_, ?_⟩, .refl _ _⟩
        · dsimp only
          omega
        · dsimp only
          omega
      · have named : FitsCell width target := names ▸ inRange (machine.pc.toNat + 1)
        rw [stores]
        rcases goes with ⟨rfl, distinct⟩ | ⟨rfl, counter⟩
        · have inside := lt_size_of_distinct distinct
          exact bounds.store positive named value (by omega) (by omega) staged later
        · have upper := (inRange (machine.pc.toNat + 2)).2
          exact bounds.store positive named value counter (by omega) staged later

/-- A step of a machine in bounds does not complain of the program counter. -/
theorem unblamed_step (bounds : machine.InBounds width) (ports : Ports σ) (env : σ) (pc : Int) :
    (machine.step ports env).fault ≠ some (.address (.counter pc)) := by
  have special : sentinel = -1 := rfl
  have here := bounds.counter
  cases running : machine.halted with
  | true =>
      rw [step_of_halted ports env running]
      simp
  | false =>
      have active : machine.pc ≠ sentinel := by simpa [halted] using running
      obtain ⟨later, ⟨fault, blames, refused⟩ | ⟨-, emits⟩ | ⟨target, value, next, staged, -, -,
        stores⟩⟩ := step_outcomes running ports env
      · rw [refused]
        intro blamed
        have negative := blames pc (Option.some.inj blamed)
        omega
      · rw [emits]
        simp
      · rw [stores]
        exact (store_outcome machine target value next staged later).2.2 _

/-- A run keeps a machine in bounds, however far it gets, and its program counter is not complained
of. -/
theorem advance (positive : 0 < width) (ports : Ports σ) (stop : Machine → Bool)
    (fuel steps : Nat) {machine : Machine} (bounds : machine.InBounds width) (env : σ) :
    let progress := Machine.advance ports stop fuel steps machine env
    Executes width machine progress.machine ∧
      ∀ pc, progress.ending ≠ .failed (.address (.counter pc)) := by
  induction fuel generalizing steps machine env with
  | zero =>
      refine ⟨⟨bounds, .refl _ _⟩, fun pc => ?_⟩
      simp only [Machine.advance]
      split
      · simp
      · simp
  | succ fuel ih =>
      have after := bounds.step positive ports env
      have unblamed := bounds.unblamed_step ports env
      unfold Machine.advance
      dsimp only
      split
      · exact ⟨⟨bounds, .refl _ _⟩, by simp⟩
      · cases stepped : machine.step ports env with
        | mk next nextEnv fault =>
            rw [stepped] at after unblamed
            cases fault with
            | none =>
                obtain ⟨others, quiet⟩ := ih (steps + 1) after.inBounds nextEnv
                exact ⟨⟨others.inBounds, after.grows.trans others.grows⟩, quiet⟩
            | some fault =>
                refine ⟨after, fun pc blamed => unblamed pc ?_⟩
                cases blamed
                rfl

/-- An evaluation keeps a machine in bounds, however far it gets, and its program counter is not
complained of. -/
theorem eval (positive : 0 < width) (bounds : machine.InBounds width) (ports : Ports σ)
    (fuel : Nat) (terminator text : String) (env : σ) :
    let progress := machine.eval ports fuel terminator text env
    Executes width machine progress.machine ∧
      ∀ pc, progress.ending ≠ .failed (.address (.counter pc)) := by
  cases running : machine.halted with
  | true =>
      rw [eval_of_halted ports fuel terminator text running]
      exact ⟨⟨bounds, .refl _ _⟩, by simp⟩
  | false =>
      obtain ⟨ran, quiet⟩ := advance positive ports idle fuel 0
        (bounds.restage (machine.staged ++ codesOf (terminated terminator text))) env
      rw [eval_of_running ports fuel terminator text running]
      refine ⟨?_, quiet⟩
      obtain ⟨staged, settled⟩ := (Machine.advance ports idle fuel 0
        (machine.stage (codesOf (terminated terminator text))) env).machine_settle
      rw [settled]
      exact ⟨ran.inBounds.restage staged, ran.grows⟩

theorem cells (bounds : machine.InBounds width) {value : Int}
    (member : value ∈ machine.memory.cells) :
    -2 ^ (width - 1) ≤ value ∧ value ≤ 2 ^ (width - 1) - 1 := by
  obtain ⟨index, inside, held⟩ := Array.mem_iff_getElem.mp member
  have inRange := bounds.fits index
  rw [bounds.sameWidth, Memory.get, Array.getD_eq_getD_getElem?,
    Array.getElem?_eq_getElem inside, held, Option.getD_some] at inRange
  exact ⟨inRange.1, Int.le_sub_one_of_lt inRange.2⟩

/-! ## Loads -/

theorem reset (bounds : machine.InBounds width) : machine.reset.InBounds width where
  sameWidth := bounds.sameWidth
  fits := by
    intro address
    have boundPositive := cellBound_pos machine.reset.memory.width
    have zero : machine.reset.memory.get address = 0 := by simp [Machine.reset]
    rw [zero]
    exact ⟨by omega, boundPositive⟩
  counter := Int.le_of_lt (by decide : (-1 : Int) < 0)
  reach := by
    change (0 : Int) ≤ max (cellBound width - 1) ((0 : Nat) + 2)
    omega

/-- A block of values is written in bounds, or what there is room for. -/
theorem install (positive : 0 < width) (bounds : machine.InBounds width) (base : Nat)
    (values : List Int) : (machine.install base values).2.InBounds width := by
  have grows := Memory.Grows.storeBlock (bounds.sameWidth ▸ positive) base values
  have longer := grows.longer
  have near := bounds.reach
  refine ⟨grows.width.trans bounds.sameWidth, grows.fits bounds.fits, bounds.counter, ?_⟩
  change machine.pc ≤ max (cellBound width - 1)
    ((machine.memory.storeBlock base values).2.size + 2)
  omega

theorem loadData (positive : 0 < width) (bounds : machine.InBounds width) (data : List Datum)
    (base : Int) : (machine.loadData data base).2.InBounds width := by
  unfold Machine.loadData
  split
  · exact bounds
  · split
    · exact bounds
    · exact bounds.reset.install positive _ _

theorem loadText (positive : 0 < width) (bounds : machine.InBounds width) (text : String)
    (fresh : Bool) (base : Int) : (machine.loadText text fresh base).2.InBounds width := by
  unfold Machine.loadText
  split
  · exact bounds
  · split
    · exact bounds
    · split
      · exact bounds.reset.install positive _ _
      · exact bounds.install positive _ _

theorem ofWidth (width : Nat) (room : Room) :
    ((Machine.ofWidth width).within room).InBounds width := by
  have boundPositive := cellBound_pos width
  refine ⟨rfl, ?_, Int.le_of_lt (by decide : (-1 : Int) < 0), ?_⟩
  · intro address
    have zero : ((Machine.ofWidth width).within room).memory.get address = 0 :=
      Memory.get_empty width address
    rw [zero]
    exact ⟨by change -cellBound width ≤ 0; omega, boundPositive⟩
  · change (0 : Int) ≤ max (cellBound width - 1) ((0 : Nat) + 2)
    omega

end InBounds

end Bounds

/-! ## Requests -/

/-- What can be asked of a machine of a session. -/
inductive Request where
  | load (data : List Datum) (base : Int)
  | loadText (text : String) (fresh : Bool) (base : Int)
  | reset
  | stage (codes : List Int)
  | clearStaged
  | emit (code : Int)
  | step
  | run (fuel : Nat)
  | eval (fuel : Nat) (text : String)

namespace Request

/-- Whether a request puts other cells into the memory than a program does. -/
def loads : Request → Bool
  | load _ _ | loadText _ _ _ | reset => true
  | _ => false

/-- Does what is asked of a machine. -/
def perform (config : Config σ) (machine : Machine) (env : σ) :
    Request → Performed Complaint Machine σ
  | load data base => machine.attempt config.ports (.load data base) env
  | loadText text fresh base => machine.attempt config.ports (.loadText text fresh base) env
  | reset => machine.attempt config.ports .reset env
  | stage codes => machine.attempt config.ports (.stage codes) env
  | clearStaged => machine.attempt config.ports .clearStaged env
  | emit code =>
      match config.ports.sink code env with
      | (.ok (), env) => { reply := .ok .nothing, machine, env }
      | (.error fault, env) => { reply := .error (.step (.port fault)), machine, env }
  | step => machine.attempt config.ports .step env
  | run fuel => machine.attempt config.ports (.run fuel) env
  | eval fuel text =>
      let { machine, env, steps, ending } :=
        machine.eval config.ports fuel config.terminator text env
      { reply := runReply steps ending, machine, env }

/-- Does what is asked of a machine, one request after the other. -/
def performAll (config : Config σ) : List Request → Machine → σ → Machine × σ
  | [], machine, env => (machine, env)
  | request :: requests, machine, env =>
      let performed := request.perform config machine env
      performAll config requests performed.machine performed.env

variable (config : Config σ) {width : Nat}

theorem blames_of_runReply {steps : Nat} {ending : Ending} {fault : StepFault}
    (failed : runReply steps ending = .error (.step fault)) : ending = .failed fault := by
  cases ending with
  | failed other =>
      cases failed
      rfl
  | stopped => cases failed
  | outOfFuel => cases failed

/-- What is asked of a machine keeps it in bounds; its program counter is not complained of; and
nothing but a load makes its buffer longer than a cell can name. -/
theorem perform_inBounds (positive : 0 < width) (bounds : machine.InBounds width) (env : σ)
    (request : Request) :
    let performed := request.perform config machine env
    performed.machine.InBounds width ∧
      (∀ pc, performed.reply ≠ .error (.step (.address (.counter pc)))) ∧
      (request.loads = false →
        Memory.Grows (2 ^ (width - 1)) machine.memory performed.machine.memory) := by
  have stays : Memory.Grows (2 ^ (width - 1)) machine.memory machine.memory := .refl _ _
  have quiet {α : Type} (result : Except LoadFault α) (answer : α → Answer) (pc : Int) :
      (result.map answer).mapError Complaint.load ≠ .error (.step (.address (.counter pc))) := by
    cases result <;> simp [Except.map, Except.mapError]
  cases request with
  | load data base =>
      exact ⟨bounds.loadData positive data base, quiet _ _, by simp [loads]⟩
  | loadText text fresh base =>
      exact ⟨bounds.loadText positive text fresh base, quiet _ _, by simp [loads]⟩
  | reset => exact ⟨bounds.reset, by simp [perform, attempt], by simp [loads]⟩
  | stage codes =>
      exact ⟨bounds.restage _, by simp [perform, attempt], fun _ => stays⟩
  | clearStaged =>
      exact ⟨bounds.restage _, by simp [perform, attempt], fun _ => stays⟩
  | emit code =>
      simp only [perform]
      split
      · exact ⟨bounds, by simp, fun _ => stays⟩
      · exact ⟨bounds, by simp, fun _ => stays⟩
  | step =>
      have stepped := bounds.step positive config.ports env
      refine ⟨stepped.inBounds, fun pc failed => bounds.unblamed_step config.ports env pc ?_,
        fun _ => stepped.grows⟩
      change stepReply (machine.step config.ports env).fault = _ at failed
      cases blamed : (machine.step config.ports env).fault with
      | none =>
          rw [blamed] at failed
          cases failed
      | some fault =>
          rw [blamed] at failed
          cases failed
          rfl
  | run fuel =>
      obtain ⟨ran, unblamed⟩ :=
        InBounds.advance positive config.ports halted fuel 0 bounds env
      exact ⟨ran.inBounds, fun pc failed => unblamed pc (blames_of_runReply failed),
        fun _ => ran.grows⟩
  | eval fuel text =>
      obtain ⟨ran, unblamed⟩ := bounds.eval positive config.ports fuel config.terminator text env
      exact ⟨ran.inBounds, fun pc failed => unblamed pc (blames_of_runReply failed),
        fun _ => ran.grows⟩

theorem performAll_inBounds (positive : 0 < width) (requests : List Request) {machine : Machine}
    (bounds : machine.InBounds width) (env : σ) :
    (performAll config requests machine env).1.InBounds width := by
  induction requests generalizing machine env with
  | nil => exact bounds
  | cons request requests ih =>
      exact ih (perform_inBounds config positive bounds env request).1 _

/-- Requests that load nothing make the buffer no longer than a cell can name. -/
theorem performAll_grows (positive : 0 < width) (requests : List Request)
    (unloaded : ∀ request ∈ requests, request.loads = false) {machine : Machine}
    (bounds : machine.InBounds width) (env : σ) :
    Memory.Grows (2 ^ (width - 1)) machine.memory
      (performAll config requests machine env).1.memory := by
  induction requests generalizing machine env with
  | nil => exact .refl _ _
  | cons request requests ih =>
      obtain ⟨after, -, grows⟩ := perform_inBounds config positive bounds env request
      exact (grows (unloaded request List.mem_cons_self)).trans
        (ih (fun other member => unloaded other (List.mem_cons_of_mem _ member)) after _)

/-- The width of its cells bounds a machine. Whatever is asked of a machine after it was built, in
any order and whether or not it fails: every cell is in range, and the program counter is the halt,
or an address that a cell can name, or at most two cells behind the buffer. From there, requests
that load nothing make the buffer no longer than it is or than the addresses that a cell can name;
and nothing that is asked of the machine fails because of its program counter. -/
theorem performAll_stays_bounded (config : Config σ) (wide : 2 ≤ config.width) (room : Room)
    (requests : List Request) (env : σ) :
    let reached := performAll config requests (config.machine.within room) env
    let machine := reached.1
    (∀ value ∈ machine.memory.cells,
      -2 ^ (config.width - 1) ≤ value ∧ value ≤ 2 ^ (config.width - 1) - 1) ∧
    (-1 ≤ machine.pc ∧
      machine.pc ≤ max (2 ^ (config.width - 1) - 1 : Int) (machine.memory.size + 2)) ∧
    (∀ more : List Request, (∀ request ∈ more, request.loads = false) →
      (performAll config more machine reached.2).1.memory.size ≤
        max machine.memory.size (2 ^ (config.width - 1))) ∧
    ∀ (request : Request) (pc : Int),
      (request.perform config machine reached.2).reply ≠
        .error (.step (.address (.counter pc))) := by
  intro reached machine
  have positive : 0 < config.width := by omega
  have bounds : machine.InBounds config.width :=
    performAll_inBounds config positive requests (InBounds.ofWidth config.width room) env
  refine ⟨fun value member => bounds.cells member, ⟨bounds.counter, bounds.reach⟩, ?_, ?_⟩
  · intro more unloaded
    exact (performAll_grows config positive more unloaded bounds reached.2).bounded
  · intro request pc
    exact (perform_inBounds config positive bounds reached.2 request).2.1 pc

/-- With cells of two bits, an instruction that reads and begins in the last cell of the buffer: the
program counter gets two cells behind the buffer, and control comes back from there. -/
theorem performAll_stays_bounded_behind :
    let config : Config Tape := { ports := Tape.ports, width := 2, terminator := "" }
    let reached := performAll config [.load [.integer (-1)] 0, .stage [1], .step]
      (config.machine.within .unlimited) {}
    let machine := reached.1
    2 ≤ config.width ∧ machine.pc = 3 ∧ machine.memory.size = 1 ∧
      (∀ value ∈ machine.memory.cells, -2 ≤ value ∧ value ≤ 1) ∧
      (-1 ≤ machine.pc ∧ machine.pc ≤ max (1 : Int) (machine.memory.size + 2)) ∧
      (performAll config [.step, .run 9] machine reached.2).1.memory.size ≤
        max machine.memory.size 2 ∧
      ∀ pc, (Request.step.perform config machine reached.2).reply ≠
        .error (.step (.address (.counter pc))) := by
  intro config reached machine
  obtain ⟨cells, counter, grows, quiet⟩ := performAll_stays_bounded config (Nat.le_refl 2)
    .unlimited [.load [.integer (-1)] 0, .stage [1], .step] {}
  exact ⟨Nat.le_refl 2, by decide, by decide, cells, counter,
    grows [.step, .run 9] (by simp [loads]), quiet .step⟩

end Request

end Machine

end Subleq
