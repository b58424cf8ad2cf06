import Subleq.Fault
import Subleq.Proofs.Memory
import Subleq.Proofs.Program

/-!
# Loads

A load is judged before the machine is touched. A bad base, a token that spells no integer or a
datum that is none leaves the machine as it was; otherwise the values stand in the memory from the
base on, behind a reset or over what was there. The loaders of texts and of lists leave the same
machine for the same values.

What is not judged before is whether there is room for the values. A load that finds none has
already reset the machine.
-/

namespace Subleq

/-! ## Blocks -/

namespace Memory

/-- Why there is no room for a block of cells, if there is none. -/
def blockFault? (memory : Memory) (base count : Nat) : Option StorageFault :=
  match memory.room.growthFault? (base + count - memory.size) with
  | some fault => some fault
  | none => if count = 0 then none else memory.widthFault?

variable {memory : Memory} {base : Nat} {values : List Int}

@[simp] theorem blockFault?_of_unlimited (unlimited : memory.room = .unlimited) (base count : Nat) :
    memory.blockFault? base count = none := by
  simp [blockFault?, widthFault?, unlimited]

theorem storeBlock_of_fits (fits : memory.blockFault? base values.length = none) :
    memory.storeBlock base values = (.ok values.length, memory.setBlock base values) := by
  rw [blockFault?] at fits
  rw [storeBlock]
  cases growing : memory.room.growthFault? (base + values.length - memory.size) with
  | some fault => simp [growing] at fits
  | none =>
      simp only [growing] at fits
      cases values with
      | nil => rfl
      | cons value rest =>
          rw [if_neg (by simp)] at fits
          simp [fits]

/-- A block for which there is no room leaves every cell as it was. -/
theorem storeBlock_of_tight {tight : StorageFault}
    (full : memory.blockFault? base values.length = some tight) :
    ∃ after, memory.storeBlock base values = (.error tight, after) ∧ after.get = memory.get := by
  rw [blockFault?] at full
  rw [storeBlock]
  cases growing : memory.room.growthFault? (base + values.length - memory.size) with
  | some fault =>
      simp only [growing, Option.some.injEq] at full
      exact ⟨memory, by rw [full], rfl⟩
  | none =>
      simp only [growing] at full
      cases values with
      | nil => cases full
      | cons value rest =>
          rw [if_neg (by simp)] at full
          refine ⟨memory.grow (base + (value :: rest).length), by simp [full], ?_⟩
          funext address
          exact getD_extend memory.cells _ address

/-- The values of a block stand where they were written. -/
theorem get_setBlock_of_lt {index : Nat} {value : Int} (found : values[index]? = some value) :
    (memory.setBlock base values).get (base + index) = wrap memory.width value := by
  simp [get_setBlock, overlay, found]

theorem get_setBlock_outside {address : Nat}
    (outside : address < base ∨ base + values.length ≤ address) :
    (memory.setBlock base values).get address = memory.get address := by
  rw [get_setBlock, overlay]
  split
  next behind =>
    rw [List.getElem?_eq_none (by omega)]
  · rfl

end Memory

/-! ## Data -/

namespace Datum

theorem integersFrom_append (position : Nat) (values : List Int) (data : List Datum) :
    integersFrom position (values.map .integer ++ data) =
      (integersFrom (position + values.length) data).map (values ++ ·) := by
  induction values generalizing position with
  | nil =>
      rw [List.map_nil, List.nil_append, List.length_nil, Nat.add_zero]
      cases integersFrom position data with
      | error fault => rfl
      | ok others => rfl
  | cons value values ih =>
      simp only [List.map_cons, List.cons_append, integersFrom, integer?, ih, List.length_cons]
      rw [show position + 1 + values.length = position + (values.length + 1) by omega]
      cases integersFrom (position + (values.length + 1)) data with
      | error fault => rfl
      | ok others => rfl

theorem integers_map_integer (values : List Int) : integers (values.map .integer) = .ok values := by
  have all := integersFrom_append 0 values []
  rw [List.append_nil] at all
  rw [integers, all]
  simp [integersFrom, Except.map]

/-- The first datum that is no integer is complained of. -/
theorem integers_of_bad (values : List Int) {datum : Datum} (bad : datum.integer? = none)
    (rest : List Datum) :
    integers (values.map .integer ++ datum :: rest) = .error ⟨datum, values.length⟩ := by
  rw [integers, integersFrom_append, integersFrom, bad, Nat.zero_add]
  rfl

end Datum

namespace Machine

open Program

variable {machine : Machine} {base : Int} {text : String} {fresh : Bool}

theorem load_eq_loadData (machine : Machine) (values : List Int) (base : Int) :
    machine.load values base = machine.loadData (values.map .integer) base := by
  unfold load loadData
  rw [Datum.integers_map_integer]

/-! ## Loads -/

/-- A machine as a load finds it when everything is judged. -/
def cleared (fresh : Bool) (machine : Machine) : Machine := if fresh then machine.reset else machine

/-- What a load leaves that finds room: the values from the base on, wrapped, and everywhere else
what was there, or zero after a reset. -/
structure Loaded (fresh : Bool) (base : Nat) (values : List Int) (machine after : Machine) :
    Prop where
  written : ∀ index value, values[index]? = some value →
    after.memory.get (base + index) = wrap machine.memory.width value
  elsewhere : ∀ address, address < base ∨ base + values.length ≤ address →
    after.memory.get address = if fresh then 0 else machine.memory.get address
  pc : after.pc = if fresh then 0 else machine.pc
  staged : after.staged = machine.staged

/-- What a load leaves that finds no room: the machine without its values. -/
structure Abandoned (fresh : Bool) (machine after : Machine) : Prop where
  cells : ∀ address, after.memory.get address = if fresh then 0 else machine.memory.get address
  pc : after.pc = if fresh then 0 else machine.pc
  staged : after.staged = machine.staged

theorem loadBase_of_nonneg (nonnegative : 0 ≤ base) : loadBase base = .ok base.toNat :=
  if_neg (Int.not_lt.mpr nonnegative)

theorem loadBase_of_neg (negative : base < 0) : loadBase base = .error (.base (.base base)) :=
  if_pos negative

theorem get_cleared (fresh : Bool) (machine : Machine) (address : Nat) :
    (machine.cleared fresh).memory.get address =
      if fresh then 0 else machine.memory.get address := by
  cases fresh with
  | true => simp [cleared, reset]
  | false => rfl

theorem loaded_setBlock (fresh : Bool) (machine : Machine) (base : Nat) (values : List Int) :
    Loaded fresh base values machine
      { machine.cleared fresh with
        memory := (machine.cleared fresh).memory.setBlock base values } where
  written := by
    intro index value found
    rw [Memory.get_setBlock_of_lt found]
    cases fresh with
    | true => rfl
    | false => rfl
  elsewhere := by
    intro address outside
    rw [Memory.get_setBlock_outside outside, get_cleared]
  pc := by cases fresh <;> rfl
  staged := by cases fresh <;> rfl

/-- Whether a text can not be loaded at a base: the base is no address, or a token of the text
spells no integer. -/
def Refused (text : String) (base : Int) : Prop :=
  base < 0 ∨ ∃ token ∈ Text.words text.toList, ∀ value, ¬Spells token value

theorem refused_iff : Refused text base ↔ base < 0 ∨ ∃ fault, Program.read text = .error fault := by
  rw [Refused, exists_read_eq_error_iff]

/-- A text that is refused leaves the machine as it was. -/
theorem loadText_of_refused (refused : Refused text base) :
    ∃ fault, (∀ tight, fault ≠ .storage tight) ∧
      machine.loadText text fresh base = (.error fault, machine) := by
  by_cases negative : base < 0
  · exact ⟨.base (.base base), by simp, by rw [loadText, loadBase_of_neg negative]⟩
  · obtain ⟨fault, unread⟩ := (refused_iff.mp refused).resolve_left negative
    refine ⟨.program fault, by simp, ?_⟩
    rw [loadText, loadBase_of_nonneg (Int.not_lt.mp negative), unread]

theorem exists_values_of_not_refused (accepted : ¬Refused text base) :
    0 ≤ base ∧ ∃ values, List.Forall₂ Spells (Text.words text.toList) values := by
  rw [Refused] at accepted
  push Not at accepted
  exact ⟨accepted.1, exists_spelled_iff.mpr accepted.2⟩

/-- A text that is not refused has its values installed. -/
theorem loadText_of_spelled {values : List Int} (nonnegative : 0 ≤ base)
    (spelled : List.Forall₂ Spells (Text.words text.toList) values) :
    machine.loadText text fresh base = (machine.cleared fresh).install base.toNat values := by
  rw [loadText, loadBase_of_nonneg nonnegative, read_eq_ok_iff.mpr spelled]
  rfl

theorem install_of_fits {base : Nat} {values : List Int}
    (fits : (machine.cleared fresh).memory.blockFault? base values.length = none) :
    ∃ after, (machine.cleared fresh).install base values = (.ok values.length, after) ∧
      Loaded fresh base values machine after := by
  refine ⟨_, ?_, loaded_setBlock fresh machine base values⟩
  rw [install, Memory.storeBlock_of_fits fits]
  rfl

theorem install_of_tight {base : Nat} {values : List Int} {tight : StorageFault}
    (full : (machine.cleared fresh).memory.blockFault? base values.length = some tight) :
    ∃ after, (machine.cleared fresh).install base values = (.error (.storage tight), after) ∧
      Abandoned fresh machine after := by
  obtain ⟨memory, stored, same⟩ := Memory.storeBlock_of_tight full
  refine ⟨{ machine.cleared fresh with memory }, ?_, ?_, ?_, ?_⟩
  · rw [install, stored]
    rfl
  · intro address
    rw [show memory.get address = _ from congrFun same address, get_cleared]
  · cases fresh <;> rfl
  · cases fresh <;> rfl

/-- The loader of texts does what the loader of lists does with the values of the text. -/
theorem loadText_eq_loadData {values : List Int} (read : Program.read text = .ok values)
    (base : Int) :
    machine.loadText text true base = machine.loadData (values.map .integer) base := by
  rw [loadText, loadData, read, Datum.integers_map_integer]
  rfl

theorem loadData_of_neg (negative : base < 0) (data : List Datum) :
    machine.loadData data base = (.error (.base (.base base)), machine) := by
  rw [loadData, loadBase_of_neg negative]

theorem loadData_of_bad (nonnegative : 0 ≤ base) (values : List Int) {datum : Datum}
    (bad : datum.integer? = none) (rest : List Datum) :
    machine.loadData (values.map .integer ++ datum :: rest) base =
      (.error (.datum ⟨datum, values.length⟩), machine) := by
  rw [loadData, loadBase_of_nonneg nonnegative, Datum.integers_of_bad values bad]

/-- Loads are judged before the machine is touched, and the two loaders agree. Whatever the machine,
the text, the base and the kind of the load: it is complained of anything but the room exactly if
the text is refused, and then the machine is as it was. A text that is not refused has as many
values as tokens, and leaves them in the machine if there is room for the block; if there is none,
which cannot be in unlimited room, the machine is left without them, but reset if that was asked
for.

With a reset, the text leaves the same machine and the same answer as the list of its values, and a
text that is not read leaves the machine as it was. A list is refused for its base, or for its first
datum that is no integer, and leaves the machine as it was too; the complaint about such a datum can
be made if its text can be written. -/
theorem loads_judged_before (machine : Machine) (text : String) (base : Int) (fresh : Bool) :
    ((∃ fault, (∀ tight, fault ≠ .storage tight) ∧
        (machine.loadText text fresh base).1 = .error fault) ↔ Refused text base) ∧
    (Refused text base → (machine.loadText text fresh base).2 = machine) ∧
    (¬Refused text base →
      ∃ values, List.Forall₂ Spells (Text.words text.toList) values ∧
        ((machine.cleared fresh).memory.blockFault? base.toNat values.length = none →
          ∃ after,
            machine.loadText text fresh base = (.ok (Text.words text.toList).length, after) ∧
            Loaded fresh base.toNat values machine after) ∧
        (∀ tight,
          (machine.cleared fresh).memory.blockFault? base.toNat values.length = some tight →
          ∃ after, machine.loadText text fresh base = (.error (.storage tight), after) ∧
            Abandoned fresh machine after)) ∧
    (machine.memory.room = .unlimited →
      ∀ place count, (machine.cleared fresh).memory.blockFault? place count = none) ∧
    (∀ values, Program.read text = .ok values →
      machine.loadText text true base = machine.loadData (values.map .integer) base) ∧
    ((∃ fault, Program.read text = .error fault) →
      ∃ fault, machine.loadText text true base = (.error fault, machine)) ∧
    (base < 0 → ∀ data, machine.loadData data base = (.error (.base (.base base)), machine)) ∧
    (0 ≤ base → ∀ (values : List Int) (datum : Datum) (rest : List Datum), datum.integer? = none →
      machine.loadData (values.map .integer ++ datum :: rest) base =
        (.error (.datum ⟨datum, values.length⟩), machine) ∧
      Fault.ofLoad (.datum ⟨datum, values.length⟩) =
        if datum.isWritable then .datum ⟨datum, values.length⟩ else .unwritable) := by
  have installed : ¬Refused text base → ∃ values : List Int,
      List.Forall₂ Spells (Text.words text.toList) values ∧
      machine.loadText text fresh base = (machine.cleared fresh).install base.toNat values := by
    intro accepted
    obtain ⟨nonnegative, values, spelled⟩ := exists_values_of_not_refused accepted
    exact ⟨values, spelled, loadText_of_spelled nonnegative spelled⟩
  refine ⟨⟨?_, ?_⟩, ?_, ?_, ?_, fun _ read => loadText_eq_loadData read base, ?_,
    fun negative data => loadData_of_neg negative data,
    fun nonnegative values _ rest bad => ⟨loadData_of_bad nonnegative values bad rest, rfl⟩⟩
  · rintro ⟨fault, other, failed⟩
    by_contra accepted
    obtain ⟨values, -, equal⟩ := installed accepted
    rw [equal] at failed
    cases room : (machine.cleared fresh).memory.blockFault? base.toNat values.length with
    | none =>
        obtain ⟨after, stored, -⟩ := install_of_fits room
        rw [stored] at failed
        cases failed
    | some tight =>
        obtain ⟨after, stored, -⟩ := install_of_tight room
        rw [stored] at failed
        cases failed
        exact other tight rfl
  · intro refused
    obtain ⟨fault, other, failed⟩ := loadText_of_refused refused
    exact ⟨fault, other, by rw [failed]⟩
  · intro refused
    obtain ⟨fault, -, failed⟩ := loadText_of_refused refused
    rw [failed]
  · intro accepted
    obtain ⟨values, spelled, equal⟩ := installed accepted
    refine ⟨values, spelled, ?_, ?_⟩
    · intro fits
      rw [equal, spelled.length_eq]
      exact install_of_fits fits
    · intro tight full
      rw [equal]
      exact install_of_tight full
  · intro unlimited place count
    apply Memory.blockFault?_of_unlimited
    cases fresh with
    | true => exact unlimited
    | false => exact unlimited
  · intro unread
    obtain ⟨fault, -, failed⟩ := loadText_of_refused (refused_iff.mpr (Or.inr unread))
    exact ⟨fault, failed⟩

/-- A text of two values over a memory of three cells, without a reset; and a token that is none. -/
theorem loads_judged_before_overlaid :
    let machine : Machine := { memory := { width := 8, cells := #[1, 2, 3] }, pc := 2 }
    ¬Refused "+300\n -1" 1 ∧ Refused "7 -" 1 ∧
      (∃ after, machine.loadText "+300\n -1" false 1 = (.ok 2, after) ∧
        after.memory.get 0 = 1 ∧ after.memory.get 1 = 44 ∧ after.memory.get 2 = -1 ∧
        after.memory.get 3 = 0 ∧ after.pc = 2) ∧
      (machine.loadText "7 -" false 1).2 = machine ∧
      machine.loadText "+300\n -1" true 1 = machine.loadData [.integer 300, .integer (-1)] 1 ∧
      machine.loadData [.integer 7, .truth true] 0 =
        (.error (.datum ⟨.truth true, 1⟩), machine) := by
  intro machine
  have read : Program.read "+300\n -1" = .ok [300, -1] := by decide +kernel
  have unread : Program.read "7 -" = .error (.token "-" 1 2) := by decide +kernel
  have accepted : ¬Refused "+300\n -1" 1 := by simp [refused_iff, read]
  have refused : Refused "7 -" 1 := refused_iff.mpr (Or.inr ⟨_, unread⟩)
  obtain ⟨-, -, loads, roomy, agrees, -⟩ := loads_judged_before machine "+300\n -1" 1 false
  obtain ⟨-, kept, -⟩ := loads_judged_before machine "7 -" 1 false
  obtain ⟨-, -, -, -, -, -, -, listed⟩ := loads_judged_before machine "" 0 false
  obtain ⟨values, spelled, stored, -⟩ := loads accepted
  have same := (read_eq_ok_iff.mpr spelled).symm.trans read
  cases same
  obtain ⟨after, answered, loaded⟩ := stored (roomy rfl 1 2)
  refine ⟨accepted, refused, ⟨after, answered, ?_, ?_, ?_, ?_, loaded.pc⟩, kept refused,
    agrees _ read, (listed (le_refl 0) [7] (.truth true) [] rfl).1⟩
  · exact loaded.elsewhere 0 (by decide)
  · exact (loaded.written 0 300 rfl).trans (by decide)
  · exact (loaded.written 1 (-1) rfl).trans (by decide)
  · exact loaded.elsewhere 3 (by decide)

/-- A load that finds no room leaves a machine that is reset: at a base that no buffer reaches, a
text with nothing wrong in it is not loaded, and what was in the memory is gone. -/
theorem load_without_room_forgets :
    let machine : Machine :=
      { memory := { width := 16, cells := #[7, 8, 9], room := .ordinary }, pc := 2 }
    ¬Refused "5" 18446744073709551616 ∧
      machine.loadText "5" true 18446744073709551616 =
        (.error (.storage .indexTooLarge),
          { memory := { machine.memory with cells := #[] }, pc := 0 }) := by
  intro machine
  have read : Program.read "5" = .ok [5] := by decide +kernel
  refine ⟨by simp [refused_iff, read], ?_⟩
  rw [loadText_of_spelled (by decide) (read_eq_ok_iff.mp read)]
  rfl

end Machine

end Subleq
