import Subleq.Proofs.Machine.Refinement
import Subleq.Proofs.Machine.Runs
import Subleq.Proofs.Machine.Step

/-!
# Programs that keep to their cells

An image whose first cells are instructions is confined if every instruction that writes names one
of some given cells, every branch leads to an instruction or to the halt, and the last instruction
always branches. This can be read off the image. A machine that is loaded with it then stays within
it, whatever its input is: its buffer keeps its length and all cells but the given ones keep their
values, so that the instructions stay what they were. Only a first operand may be among the cells
that are written.
-/

namespace Subleq

/-- The three cells of an instruction. -/
structure Encoded where
  a : Int
  b : Int
  c : Int
  deriving Repr, DecidableEq

namespace Encoded

/-- The cells of an image by threes. -/
def all : List Int → List Encoded
  | a :: b :: c :: cells => ⟨a, b, c⟩ :: all cells
  | _ => []

/-- Whether an instruction writes to given cells only, and branches to one of `count` instructions
or to the halt. -/
def keeps (count : Nat) (written : List Nat) (encoded : Encoded) : Bool :=
  (encoded.b == sentinel || (0 ≤ encoded.b && written.contains encoded.b.toNat)) &&
    (encoded.c == sentinel ||
      (0 ≤ encoded.c && encoded.c < 3 * count && encoded.c % 3 == 0))

theorem exists_mem_all {cells : List Int} {index : Nat} (inside : 3 * index + 2 < cells.length) :
    ∃ encoded ∈ all cells, cells[3 * index]? = some encoded.a ∧
      cells[3 * index + 1]? = some encoded.b ∧ cells[3 * index + 2]? = some encoded.c := by
  induction cells using all.induct generalizing index with
  | case1 a b c cells ih =>
      cases index with
      | zero => exact ⟨⟨a, b, c⟩, by simp [all], rfl, rfl, rfl⟩
      | succ index =>
          simp only [List.length_cons] at inside
          obtain ⟨encoded, member, heldA, heldB, heldC⟩ := ih (by omega : 3 * index + 2 < _)
          rw [show 3 * (index + 1) = 3 * index + 3 by omega]
          exact ⟨encoded, by simp [all, member], heldA, heldB, heldC⟩
  | case2 cells short =>
      exfalso
      match cells, short with
      | [], _ => exact absurd inside (by simp only [List.length_nil]; omega)
      | [_], _ => exact absurd inside (by simp only [List.length_cons, List.length_nil]; omega)
      | [_, _], _ => exact absurd inside (by simp only [List.length_cons, List.length_nil]; omega)
      | a :: b :: c :: cells, short => exact short a b c cells rfl

end Encoded

/-- Whether the first `count` instructions of an image keep to the given cells and to each other. -/
structure Confined (image : List Int) (count : Nat) (written : List Nat) : Prop where
  length : 3 * count ≤ image.length
  keeps : ∀ encoded ∈ Encoded.all (image.take (3 * count)), encoded.keeps count written = true
  inside : ∀ position ∈ written, position < image.length
  operands : ∀ position ∈ written, position < 3 * count → position % 3 = 0
  /-- The last instruction subtracts a cell from itself. -/
  closed : ∀ index, index + 1 = count → 3 * index ∉ written ∧
    ∃ operand : Nat, image[3 * index]? = some (operand : Int) ∧
      image[3 * index + 1]? = some (operand : Int)

namespace Confined

variable {image : List Int} {count : Nat} {written : List Nat}

theorem exists_encoded (confined : Confined image count written) {index : Nat}
    (inside : index < count) :
    ∃ encoded : Encoded, encoded.keeps count written = true ∧
      image[3 * index + 1]? = some encoded.b ∧ image[3 * index + 2]? = some encoded.c := by
  have long := confined.length
  obtain ⟨encoded, member, -, heldB, heldC⟩ :=
    @Encoded.exists_mem_all (image.take (3 * count)) index (by rw [List.length_take]; omega)
  rw [List.getElem?_take_of_lt (by omega)] at heldB heldC
  exact ⟨encoded, confined.keeps encoded member, heldB, heldC⟩

end Confined

namespace Machine

variable {σ : Type} {image : List Int} {count : Nat} {written : List Nat} {machine : Machine}

/-- What a step can do to a machine in unlimited room: nothing, or pass over an instruction that
emits, or write the cell that `B` names. After a write control passes on only if `A` and `B` differ,
or else it branches. -/
theorem step_cases (unlimited : machine.memory.room = .unlimited)
    (running : machine.halted = false) (ports : Ports σ) (env : σ) :
    let a := machine.memory.get machine.pc.toNat
    let b := machine.memory.get (machine.pc.toNat + 1)
    let c := machine.memory.get (machine.pc.toNat + 2)
    (machine.step ports env).machine = machine ∨
    (b = sentinel ∧ a ≠ b ∧
      (machine.step ports env).machine = { machine with pc := machine.pc + 3 }) ∨
    ∃ (target : Nat) (value next : Int) (staged : List Int), b = target ∧
      (next = machine.pc + 3 ∧ a ≠ b ∨ next = c) ∧
      (machine.step ports env).machine =
        { memory := machine.memory.set target value, pc := next, staged } := by
  intro a b c
  have special : sentinel = -1 := rfl
  cases decoded : decode machine.memory machine.pc with
  | error fault =>
      rw [step_of_error ports env running decoded]
      exact Or.inl rfl
  | ok instruction =>
      have operands : instruction.operands = (a, b) := operands_of_decode decoded
      cases instruction with
      | input target =>
          obtain ⟨cellA, cellB⟩ := Prod.mk.inj operands
          rw [step_of_input ports env running decoded]
          cases nextCode ports machine.staged env with
          | mk result after =>
              cases result with
              | error fault => exact Or.inl rfl
              | ok read =>
                  dsimp only
                  rw [store_of_unlimited unlimited]
                  exact Or.inr (Or.inr ⟨target, _, _, _, cellB.symm,
                    Or.inl ⟨rfl, by omega⟩, rfl⟩)
      | output source =>
          obtain ⟨cellA, cellB⟩ := Prod.mk.inj operands
          rw [step_of_output ports env running decoded]
          cases ports.sink (machine.memory.get source) env with
          | mk result after =>
              cases result with
              | error fault => exact Or.inl rfl
              | ok done => exact Or.inr (Or.inl ⟨cellB.symm, by omega, rfl⟩)
      | subtract source target =>
          obtain ⟨cellA, cellB⟩ := Prod.mk.inj operands
          have fitting : machine.memory.widthFault? = none := by
            simp [Memory.widthFault?, unlimited]
          by_cases taken : wrap machine.memory.width
              (machine.memory.get target - machine.memory.get source) ≤ 0
          · rw [step_of_taken ports env running decoded fitting taken]
            cases branch : branchTarget machine.memory machine.pc with
            | error fault => exact Or.inl rfl
            | ok next =>
                have target_eq : next = c := by
                  simp only [branchTarget] at branch
                  split at branch
                  · cases branch
                  · exact (Except.ok.inj branch).symm
                dsimp only
                rw [store_of_unlimited unlimited]
                exact Or.inr (Or.inr ⟨target, _, _, _, cellB.symm, Or.inr target_eq, rfl⟩)
          · have distinct : a ≠ b := by
              intro same
              have equal : source = target := by omega
              rw [equal, Int.sub_self, wrap_zero] at taken
              exact taken (Int.le_refl 0)
            rw [step_of_passed ports env running decoded fitting taken,
              store_of_unlimited unlimited]
            exact Or.inr (Or.inr ⟨target, _, _, _, cellB.symm, Or.inl ⟨rfl, distinct⟩, rfl⟩)

/-- Whether control is at one of `count` instructions, or at the halt. -/
def AtCode (count : Nat) (pc : Int) : Prop :=
  pc = sentinel ∨ ∃ index < count, pc = 3 * (index : Int)

/-- A machine that is within its image: the buffer has the length of the image, all cells but the
given ones are as in the image, and control is at an instruction. -/
structure Contained (image : List Int) (count : Nat) (written : List Nat) (machine : Machine) :
    Prop where
  unlimited : machine.memory.room = .unlimited
  size : machine.memory.size = image.length
  kept : ∀ position value, image[position]? = some value → position ∉ written →
    machine.memory.get position = value
  atCode : AtCode count machine.pc

namespace Contained

/-- A write to one of the given cells stays within the image. -/
theorem set (contained : Contained image count written machine)
    (confined : Confined image count written) {target : Nat} (member : target ∈ written)
    (value : Int) {next : Int} (atCode : AtCode count next) (staged : List Int) :
    Contained image count written
      { memory := machine.memory.set target value, pc := next, staged } := by
  refine ⟨contained.unlimited, ?_, ?_, atCode⟩
  · have inside := confined.inside target member
    have size := contained.size
    rw [Memory.size_set]
    omega
  · intro position held found outside
    have apart : position ≠ target := fun same => outside (same ▸ member)
    rw [Memory.get_set, Function.update_of_ne apart]
    exact contained.kept position held found outside

/-- What a machine finds at an instruction: `B` is the sentinel or names one of the given cells, `C`
is an instruction or the halt, and another instruction follows unless `A` and `B` are the same. -/
theorem fetch (contained : Contained image count written machine)
    (confined : Confined image count written) (running : machine.halted = false) :
    let a := machine.memory.get machine.pc.toNat
    let b := machine.memory.get (machine.pc.toNat + 1)
    let c := machine.memory.get (machine.pc.toNat + 2)
    (∀ target : Nat, b = target → target ∈ written) ∧ AtCode count c ∧
      (a ≠ b → AtCode count (machine.pc + 3)) := by
  intro a b c
  have active : machine.pc ≠ sentinel := by
    intro same
    simp [halted, same] at running
  obtain ⟨index, inside, pc⟩ := contained.atCode.resolve_left active
  have place : machine.pc.toNat = 3 * index := by omega
  obtain ⟨encoded, keeps, heldB, heldC⟩ := confined.exists_encoded inside
  have fixed : ∀ offset, offset = 1 ∨ offset = 2 → 3 * index + offset ∉ written := by
    intro offset operand member
    have multiple := confined.operands _ member (by omega)
    omega
  have cellB : b = encoded.b := by
    rw [← contained.kept _ _ heldB (fixed 1 (Or.inl rfl)), ← place]
  have cellC : c = encoded.c := by
    rw [← contained.kept _ _ heldC (fixed 2 (Or.inr rfl)), ← place]
  simp only [Encoded.keeps, Bool.and_eq_true, Bool.or_eq_true, beq_iff_eq, decide_eq_true_eq,
    List.contains_iff_mem] at keeps
  obtain ⟨writes, branches⟩ := keeps
  refine ⟨?_, ?_, ?_⟩
  · intro target same
    rw [← cellB, same] at writes
    rcases writes with special | ⟨-, member⟩
    · exact absurd special (by simp only [sentinel]; omega)
    · simpa using member
  · rw [cellC]
    rcases branches with halts | ⟨⟨nonneg, below⟩, multiple⟩
    · exact Or.inl halts
    · exact Or.inr ⟨(encoded.c / 3).toNat, by omega, by omega⟩
  · intro distinct
    refine Or.inr ⟨index + 1, ?_, by omega⟩
    by_contra last
    obtain ⟨outside, operand, first, second⟩ := confined.closed index (by omega)
    have cellA : a = operand := by
      rw [← contained.kept _ _ first outside, ← place]
    rw [heldB, Option.some.injEq] at second
    exact distinct (cellA.trans (second.symm.trans cellB.symm))

/-- A step stays within the image, whatever the ports do. -/
theorem step (contained : Contained image count written machine)
    (confined : Confined image count written) (ports : Ports σ) (env : σ) :
    Contained image count written (machine.step ports env).machine := by
  cases running : machine.halted with
  | true =>
      rw [step_of_halted ports env running]
      exact contained
  | false =>
      obtain ⟨writes, branches, onward⟩ := contained.fetch confined running
      rcases step_cases contained.unlimited running ports env with
        stays | ⟨-, distinct, passes⟩ | ⟨target, value, next, staged, names, goes, stores⟩
      · rw [stays]
        exact contained
      · rw [passes]
        exact ⟨contained.unlimited, contained.size, contained.kept, onward distinct⟩
      · rw [stores]
        refine contained.set confined (writes target names) value ?_ staged
        rcases goes with ⟨rfl, distinct⟩ | rfl
        · exact onward distinct
        · exact branches

/-- A run stays within the image, however far it gets and however it ends. -/
theorem advance (confined : Confined image count written) (ports : Ports σ)
    (stop : Machine → Bool) (fuel steps : Nat) {machine : Machine}
    (contained : Contained image count written machine) (env : σ) :
    Contained image count written
      (Machine.advance ports stop fuel steps machine env).machine := by
  induction fuel generalizing steps machine env with
  | zero => exact contained
  | succ fuel ih =>
      unfold Machine.advance
      split
      · exact contained
      · have after := contained.step confined ports env
        cases stepped : machine.step ports env with
        | mk next nextEnv fault =>
            rw [stepped] at after
            cases fault with
            | none => exact ih (steps + 1) after nextEnv
            | some fault => exact after

theorem restage (contained : Contained image count written machine) (staged : List Int) :
    Contained image count written { machine with staged } :=
  ⟨contained.unlimited, contained.size, contained.kept, contained.atCode⟩

theorem settle {progress : Progress σ}
    (contained : Contained image count written progress.machine) :
    Contained image count written progress.settle.machine := by
  have either : ∀ forget : Bool, Contained image count written
      (if forget then progress.machine.clearStaged else progress.machine) := by
    intro forget
    cases forget with
    | true => exact contained.restage []
    | false => exact contained
  exact either _

theorem evalCodes (contained : Contained image count written machine)
    (confined : Confined image count written) (ports : Ports σ) (fuel : Nat)
    (terminator codes : List Int) (env : σ) :
    Contained image count written (machine.evalCodes ports fuel terminator codes env).machine := by
  unfold Machine.evalCodes
  split
  · exact contained
  · have ran := advance confined ports idle fuel 0
      (contained.restage (machine.staged ++ terminatedCodes terminator codes)) env
    exact ran.settle

theorem load (positive : 0 < count) {width : Nat}
    (fits : ∀ value ∈ image, wrap width value = value) :
    Contained image count written ((Machine.ofWidth width).load image 0).2 := by
  have loaded : ((Machine.ofWidth width).load image 0).2 =
      { memory := (Memory.empty width).clear.setBlock 0 image, pc := 0, staged := [] } := by
    have valid : loadBase 0 = .ok 0 := rfl
    rw [Machine.load, valid]
    exact congrArg Prod.snd (install_of_unlimited rfl 0 image)
  rw [loaded]
  refine ⟨rfl, ?_, ?_, Or.inr ⟨0, positive, rfl⟩⟩
  · rw [Memory.size_setBlock, Memory.size_clear]
    omega
  · intro position value found _
    rw [Memory.get_setBlock]
    simp only [overlay, Nat.zero_le, if_true, Nat.sub_zero, found]
    exact fits value (List.mem_of_getElem? found)

end Contained

end Machine

end Subleq
