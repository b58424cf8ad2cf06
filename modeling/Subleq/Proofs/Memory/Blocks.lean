import Mathlib.Data.List.DropRight
import Subleq.Proofs.Machine.Loads
import Subleq.Proofs.Machine.Refinement

/-!
# Blocks and single writes

A block is written as its values are one after the other, with one exception: a block without values
makes the buffer reach up to its base, although nothing is written there. So the buffer is as long
as the writes since the memory was last cleared ask for, and the bases of empty blocks.
-/

namespace Subleq.Memory

variable {memory after : Memory} {base : Nat} {values : List Int}

/-! ## Single writes in a row -/

/-- Writes consecutive cells one after the other; the buffer grows with each of them. -/
def setEach (memory : Memory) (base : Nat) : List Int → Memory
  | [] => memory
  | value :: values => (memory.set base value).setEach (base + 1) values

/-- Writes values one after the other from an integer address on, up to the first write that
fails. -/
def writeEach (memory : Memory) (base : Int) : List Int → Except WriteFault Unit × Memory
  | [] => (.ok (), memory)
  | value :: values =>
      match memory.write base value with
      | (.ok (), memory) => memory.writeEach (base + 1) values
      | (.error fault, memory) => (.error fault, memory)

theorem width_setEach (memory : Memory) (base : Nat) (values : List Int) :
    (memory.setEach base values).width = memory.width := by
  induction values generalizing memory base with
  | nil => rfl
  | cons value values ih => exact ih (memory.set base value) (base + 1)

theorem room_setEach (memory : Memory) (base : Nat) (values : List Int) :
    (memory.setEach base values).room = memory.room := by
  induction values generalizing memory base with
  | nil => rfl
  | cons value values ih => exact ih (memory.set base value) (base + 1)

/-- Values that are written one after the other are a block that is laid over the view. -/
theorem get_setEach (memory : Memory) (base : Nat) (values : List Int) :
    (memory.setEach base values).get = overlay memory.width base values memory.get := by
  induction values generalizing memory base with
  | nil => exact (overlay_nil memory.width base memory.get).symm
  | cons value values ih => rw [setEach, ih, overlay_cons, width_set, get_set]

/-- The buffer reaches behind the last of the values that are written. -/
theorem size_setEach (memory : Memory) (base : Nat) (values : List Int) :
    (memory.setEach base values).size =
      if values = [] then memory.size else max memory.size (base + values.length) := by
  induction values generalizing memory base with
  | nil => rfl
  | cons value values ih =>
      rw [setEach, ih, size_set, if_neg (List.cons_ne_nil value values), List.length_cons]
      split
      next last =>
        rw [last, List.length_nil]
      next more => omega

/-- A memory is known by its width, its room, its view and the length of its buffer. -/
theorem eq_of_get {memory other : Memory} (width : memory.width = other.width)
    (room : memory.room = other.room) (size : memory.size = other.size)
    (get : memory.get = other.get) : memory = other := by
  obtain ⟨width, cells, room⟩ := memory
  obtain ⟨otherWidth, otherCells, otherRoom⟩ := other
  cases width
  cases room
  have same : cells = otherCells := by
    apply Array.ext size
    intro address inside otherInside
    have held := congrFun get address
    simpa [Memory.get, Array.getD, inside, otherInside] using held
  rw [same]

theorem size_grow (memory : Memory) (size : Nat) :
    (memory.grow size).size = max memory.size size :=
  size_extend memory.cells size

theorem get_grow (memory : Memory) (size : Nat) : (memory.grow size).get = memory.get := by
  funext address
  exact getD_extend memory.cells size address

/-- A block is its values one after the other, in a buffer that reaches up to its base. -/
theorem setBlock_eq_grow_setEach (memory : Memory) (base : Nat) (values : List Int) :
    memory.setBlock base values = (memory.setEach base values).grow base := by
  apply eq_of_get
  · exact (width_setEach memory base values).symm
  · exact (room_setEach memory base values).symm
  · rw [size_setBlock, size_grow, size_setEach]
    split
    next empty => rw [empty, List.length_nil, Nat.add_zero]
    next content => omega
  · rw [get_setBlock, get_grow, get_setEach]

/-! ## Where there is room -/

/-- Where there is room for much, there is room for less. -/
theorem growthFault?_of_le {room : Room} {fewer more : Nat}
    (fits : room.growthFault? more = none) (le : fewer ≤ more) :
    room.growthFault? fewer = none := by
  unfold Room.growthFault? at fits ⊢
  cases growth : room.growth with
  | none => rfl
  | some most =>
      simp only [growth, ite_eq_left_iff, reduceCtorEq, imp_false, not_not] at fits
      exact if_pos (Nat.le_trans le fits)

/-- A block has room if there is room for the length of its buffer and for the width of its
cells. -/
theorem blockFault?_eq_none_iff {count : Nat} :
    memory.blockFault? base count = none ↔
      memory.room.growthFault? (base + count - memory.size) = none ∧
        (count = 0 ∨ memory.widthFault? = none) := by
  unfold blockFault?
  cases memory.room.growthFault? (base + count - memory.size) with
  | some fault => simp
  | none =>
      by_cases empty : count = 0
      · simp [empty]
      · simp [empty]

/-- Where there is room for a block, each of its values finds room. -/
theorem writeEach_of_fits (fits : memory.blockFault? base values.length = none) :
    memory.writeEach base values = (.ok (), memory.setEach base values) := by
  induction values generalizing memory base with
  | nil => rfl
  | cons value values ih =>
      obtain ⟨growth, width⟩ := blockFault?_eq_none_iff.mp fits
      rw [List.length_cons] at growth width
      have wide := width.resolve_left (Nat.succ_ne_zero _)
      have stored : memory.write base value = (.ok (), memory.set base value) := by
        have long : memory.room.growthFault? (base + 1 - memory.size) = none :=
          growthFault?_of_le growth (by omega)
        rw [write, address, if_neg (Int.not_lt.mpr (Int.natCast_nonneg base)), Int.toNat_natCast]
        simp only [store, long, wide, Except.mapError]
      have others : (memory.set base value).blockFault? (base + 1) values.length = none := by
        refine blockFault?_eq_none_iff.mpr ⟨growthFault?_of_le growth ?_, Or.inr wide⟩
        rw [size_set]
        omega
      rw [writeEach, stored]
      exact ih others

theorem writeBlock_of_nonneg (memory : Memory) (base : Nat) (values : List Int) :
    memory.writeBlock base values =
      ((memory.storeBlock base values).1.mapError .storage,
        (memory.storeBlock base values).2) := by
  rw [writeBlock, address, if_neg (Int.not_lt.mpr (Int.natCast_nonneg base)), Int.toNat_natCast]

/-- A block is written if there is room for it, and then it is its values one after the other in a
buffer that reaches up to its base. -/
theorem writeBlock_of_fits (fits : memory.blockFault? base values.length = none) :
    memory.writeBlock base values =
      (.ok values.length, (memory.setEach base values).grow base) := by
  rw [writeBlock_of_nonneg, storeBlock_of_fits fits, setBlock_eq_grow_setEach]
  rfl

/-- A block for which there is no room changes no cell. -/
theorem writeBlock_of_tight {tight : StorageFault}
    (full : memory.blockFault? base values.length = some tight) :
    ∃ after, memory.writeBlock base values = (.error (.storage tight), after) ∧
      after.get = memory.get := by
  obtain ⟨after, stored, same⟩ := storeBlock_of_tight full
  refine ⟨after, ?_, same⟩
  rw [writeBlock_of_nonneg, stored]
  rfl

/-- A buffer that has to reach up to a base shows whether the block is empty. -/
theorem grow_setEach_eq_iff :
    (memory.setEach base values).grow base = memory.setEach base values ↔
      values ≠ [] ∨ base ≤ memory.size := by
  have size := size_setEach memory base values
  constructor
  · intro same
    by_contra short
    rw [not_or, not_not] at short
    have grown := size_grow (memory.setEach base values) base
    rw [same, size, if_pos short.1] at grown
    omega
  · intro long
    apply eq_of_get
    · rfl
    · rfl
    · rw [size_grow, size]
      split
      next empty => exact Nat.max_eq_left (long.resolve_left (not_not.mpr empty))
      next content => omega
    · exact get_grow _ base

/-- A write that does not fail for want of room makes the buffer reach behind its cell. -/
theorem size_write_le_iff {location value : Int}
    (roomy : ∀ tight, (memory.write location value).1 ≠ .error (.storage tight)) (most : Nat) :
    (memory.write location value).2.size ≤ most ↔
      memory.size ≤ most ∧ (0 ≤ location → location < most) := by
  unfold write address at roomy ⊢
  by_cases negative : location < 0
  · rw [if_pos negative]
    simp [Int.not_le.mpr negative]
  · rw [if_neg negative] at roomy ⊢
    have place : memory.store location.toNat value = (.ok (), memory.set location.toNat value) := by
      unfold store at roomy ⊢
      split
      next fault long => simp [long, Except.mapError] at roomy
      next long =>
        split
        next fault wide => simp [long, wide, Except.mapError] at roomy
        next wide => rfl
    simp only [place, size_set]
    omega

/-- A block that does not fail for want of room makes the buffer reach behind its last cell, and up
to its base if it has none. -/
theorem size_writeBlock_le_iff {base : Int} {values : List Int}
    (roomy : ∀ tight, (memory.writeBlock base values).1 ≠ .error (.storage tight)) (most : Nat) :
    (memory.writeBlock base values).2.size ≤ most ↔
      memory.size ≤ most ∧ (0 ≤ base → base + values.length ≤ most) := by
  by_cases negative : base < 0
  · rw [writeBlock, address, if_pos negative]
    simp [Int.not_le.mpr negative]
  · obtain ⟨place, rfl⟩ := Int.eq_ofNat_of_zero_le (Int.not_lt.mp negative)
    cases fits : memory.blockFault? place values.length with
    | some tight =>
        obtain ⟨after, failed, -⟩ := writeBlock_of_tight fits
        exact absurd (congrArg Prod.fst failed) (roomy tight)
    | none =>
        rw [writeBlock_of_fits fits, ← setBlock_eq_grow_setEach, size_setBlock]
        omega

/-! ## Histories of writes -/

/-- A change of a memory. -/
inductive Edit where
  | write (location value : Int)
  | block (base : Int) (values : List Int)
  | clear
  deriving DecidableEq

namespace Edit

def perform (memory : Memory) : Edit → Except WriteFault Unit × Memory
  | write location value => memory.write location value
  | block base values =>
      let (result, memory) := memory.writeBlock base values
      (result.map fun _ => (), memory)
  | clear => (.ok (), memory.clear)

/-- Makes changes one after the other, whether or not they fail. -/
def performAll (edits : List Edit) (memory : Memory) : Memory :=
  edits.foldl (fun memory edit => (edit.perform memory).2) memory

def Writes : Edit → Int → Prop
  | write location _, address => 0 ≤ location ∧ address = location
  | block base values, address => 0 ≤ base ∧ base ≤ address ∧ address < base + values.length
  | clear, _ => False

/-- The changes since the memory was last cleared. -/
def sinceClear (edits : List Edit) : List Edit := edits.rtakeWhile (· ≠ clear)

/-- Whether none of the changes fails for want of room. -/
def FindRoom (edits : List Edit) (memory : Memory) : Prop :=
  ∀ before edit rest, edits = before ++ edit :: rest → ∀ tight,
    (edit.perform (performAll before memory)).1 ≠ .error (.storage tight)

theorem sinceClear_append_clear (edits : List Edit) : sinceClear (edits ++ [clear]) = [] :=
  List.rtakeWhile_concat_neg _ edits clear (by simp)

theorem sinceClear_append {edit : Edit} (keeps : edit ≠ clear) (edits : List Edit) :
    sinceClear (edits ++ [edit]) = sinceClear edits ++ [edit] :=
  List.rtakeWhile_concat_pos _ edits edit (by simpa using keeps)

theorem performAll_append (edits : List Edit) (edit : Edit) (memory : Memory) :
    performAll (edits ++ [edit]) memory = (edit.perform (performAll edits memory)).2 := by
  simp [performAll]

theorem FindRoom.before {edits : List Edit} {edit : Edit}
    (roomy : FindRoom (edits ++ [edit]) memory) : FindRoom edits memory := by
  intro before other rest split tight
  exact roomy before other (rest ++ [edit]) (by rw [split]; simp) tight

theorem FindRoom.last {edits : List Edit} {edit : Edit}
    (roomy : FindRoom (edits ++ [edit]) memory) (tight : StorageFault) :
    (edit.perform (performAll edits memory)).1 ≠ .error (.storage tight) :=
  roomy edits edit [] rfl tight

/-- What one change asks of the buffer: to reach behind every cell that it writes, and up to the
base of an empty block. -/
theorem size_perform_le_iff {edit : Edit} (keeps : edit ≠ clear)
    (roomy : ∀ tight, (edit.perform memory).1 ≠ .error (.storage tight)) (most : Nat) :
    (edit.perform memory).2.size ≤ most ↔
      memory.size ≤ most ∧ (∀ address, edit.Writes address → address < most) ∧
        ∀ base, block base [] = edit → base ≤ most := by
  cases edit with
  | write location value =>
      rw [perform, size_write_le_iff roomy]
      simp [Writes]
  | block base values =>
      have blockRoomy : ∀ tight, (memory.writeBlock base values).1 ≠ .error (.storage tight) := by
        intro tight failed
        exact roomy tight (by simp [perform, failed, Except.map])
      rw [show ((block base values).perform memory).2 = (memory.writeBlock base values).2 from rfl,
        size_writeBlock_le_iff blockRoomy]
      refine and_congr_right fun _ => ⟨?_, ?_⟩
      · intro reaches
        constructor
        · rintro address ⟨nonnegative, -, inside⟩
          have whole := reaches nonnegative
          omega
        · intro other same
          cases same
          rcases Int.lt_or_le base 0 with negative | nonnegative
          · omega
          · simpa using reaches nonnegative
      · rintro ⟨written, empty⟩ nonnegative
        cases values with
        | nil => simpa using empty base rfl
        | cons value values =>
            have last := written (base + values.length)
            simp only [Writes, List.length_cons] at last ⊢
            omega
  | clear => exact absurd rfl keeps

/-- What a history of changes asks of the buffer: as much as the changes since the memory was last
cleared, and as much as there was before if it never was. -/
theorem size_performAll_le_iff {edits : List Edit} (roomy : FindRoom edits memory) (most : Nat) :
    (performAll edits memory).size ≤ most ↔
      (clear ∉ edits → memory.size ≤ most) ∧
        (∀ edit ∈ sinceClear edits, ∀ address, edit.Writes address → address < most) ∧
        ∀ base, block base [] ∈ sinceClear edits → base ≤ most := by
  induction edits using List.reverseRecOn with
  | nil => simp [performAll, sinceClear]
  | append_singleton edits edit ih =>
      rw [performAll_append]
      by_cases clears : edit = clear
      · rw [clears, sinceClear_append_clear]
        simp [perform]
      · rw [size_perform_le_iff clears roomy.last, ih roomy.before, sinceClear_append clears]
        simp only [List.mem_append, List.mem_singleton, not_or, Ne.symm clears, or_imp,
          forall_and, forall_eq, not_false_eq_true, and_true]
        constructor
        · rintro ⟨⟨before, written, reached⟩, writes, reaches⟩
          exact ⟨before, ⟨written, writes⟩, reached, reaches⟩
        · rintro ⟨before, ⟨written, writes⟩, reached, reaches⟩
          exact ⟨⟨before, written, reached⟩, writes, reaches⟩

theorem perform_of_unlimited (unlimited : memory.room = .unlimited) (edit : Edit) :
    (edit.perform memory).2.room = .unlimited ∧
      ∀ tight, (edit.perform memory).1 ≠ .error (.storage tight) := by
  cases edit with
  | write location value =>
      rw [perform, write_of_unlimited unlimited]
      split
      · exact ⟨unlimited, by simp⟩
      · exact ⟨unlimited, by simp⟩
  | block base values =>
      simp only [perform, writeBlock_of_unlimited unlimited]
      split
      · exact ⟨unlimited, by simp [Except.map]⟩
      · exact ⟨unlimited, by simp [Except.map]⟩
  | clear => exact ⟨unlimited, by simp [perform]⟩

/-- In unlimited room no change fails for want of room. -/
theorem findRoom_of_unlimited (unlimited : memory.room = .unlimited) (edits : List Edit) :
    FindRoom edits memory := by
  have stays : ∀ before : List Edit, (performAll before memory).room = .unlimited := by
    intro before
    induction before using List.reverseRecOn with
    | nil => exact unlimited
    | append_singleton before edit ih =>
        rw [performAll_append]
        exact (perform_of_unlimited ih edit).1
  intro before edit rest _
  exact (perform_of_unlimited (stays before) edit).2

end Edit

/-! ## Blocks as single writes -/

/-- A block is its single writes. Whatever the memory is, its width, its cells and its room, the
base and the values: if there is room for the block, then its values can be written one after the
other too, and the block leaves the same cells in a buffer that reaches up to the base; so it leaves
the same buffer unless it is empty and lies behind the end. A block for which there is no room
changes no cell.

Hence after any history of changes that find room, the buffer is as long as it has to be: it reaches
behind every cell that was written since the memory was last cleared, and up to the base of every
empty block, and, if the memory never was cleared, it is at least as long as before. In unlimited
room all changes find room. -/
theorem block_is_single_writes (memory : Memory) :
    (∀ (base : Nat) (values : List Int), memory.blockFault? base values.length = none →
      ∃ each : Memory, memory.writeEach base values = (.ok (), each) ∧
        memory.writeBlock base values = (.ok values.length, each.grow base) ∧
        (each.grow base = each ↔ values ≠ [] ∨ base ≤ memory.size)) ∧
    (∀ (base : Nat) (values : List Int) (tight : StorageFault),
      memory.blockFault? base values.length = some tight →
      ∃ after : Memory, memory.writeBlock base values = (.error (.storage tight), after) ∧
        after.get = memory.get) ∧
    (∀ edits, Edit.FindRoom edits memory → ∀ most : Nat,
      ((Edit.performAll edits memory).size ≤ most ↔
        (Edit.clear ∉ edits → memory.size ≤ most) ∧
          (∀ edit ∈ Edit.sinceClear edits, ∀ address, edit.Writes address → address < most) ∧
          ∀ base, Edit.block base [] ∈ Edit.sinceClear edits → base ≤ most)) ∧
    (memory.room = .unlimited →
      (∀ base count, memory.blockFault? base count = none) ∧
        ∀ edits, Edit.FindRoom edits memory) := by
  refine ⟨?_, fun _ _ _ full => writeBlock_of_tight full,
    fun _ roomy most => Edit.size_performAll_le_iff roomy most, ?_⟩
  · intro base values fits
    exact ⟨memory.setEach base values, writeEach_of_fits fits, writeBlock_of_fits fits,
      grow_setEach_eq_iff⟩
  · intro unlimited
    exact ⟨fun base count => blockFault?_of_unlimited unlimited base count,
      fun edits => Edit.findRoom_of_unlimited unlimited edits⟩

/-- A block over the end of a buffer, and a history that writes before and after the memory is
cleared. -/
theorem block_is_single_writes_overlapping :
    let memory : Memory := { width := 16, cells := #[7, 8] }
    let after : Memory := { width := 16, cells := #[7, 5, 4464] }
    let edits : List Edit := [.write 9 1, .clear, .block 2 [4, 5], .write 0 3]
    memory.room = .unlimited ∧ memory.blockFault? 1 2 = none ∧
      memory.writeEach 1 [5, 70000] = (.ok (), after) ∧
      memory.writeBlock 1 [5, 70000] = (.ok 2, after) ∧
      Edit.FindRoom edits memory ∧ (Edit.performAll edits memory).size = 4 := by
  intro memory after edits
  obtain ⟨blocks, -, sizes, roomy⟩ := block_is_single_writes memory
  obtain ⟨fits, finds⟩ := roomy rfl
  obtain ⟨each, singles, block, same⟩ := blocks 1 [5, 70000] (fits 1 2)
  have written : each = after := by
    rw [← show (memory.writeEach 1 [5, 70000]).2 = each from congrArg Prod.snd singles]
    decide
  rw [same.mpr (Or.inl (by simp)), written] at block
  rw [written] at singles
  have recent : Edit.sinceClear edits = [.block 2 [4, 5], .write 0 3] := by decide
  refine ⟨rfl, fits 1 2, singles, block, finds edits, ?_⟩
  have upper : (Edit.performAll edits memory).size ≤ 4 := by
    refine (sizes edits (finds edits) 4).mpr ⟨by decide, ?_, ?_⟩
    · rw [recent]
      simp only [List.mem_cons, List.not_mem_nil, or_false]
      rintro edit (rfl | rfl) address writes
      · exact writes.2.2
      · exact lt_of_eq_of_lt writes.2 (by decide)
    · rw [recent]
      simp
  have lower : ¬(Edit.performAll edits memory).size ≤ 3 := by
    intro short
    have bounds := ((sizes edits (finds edits) 3).mp short).2.1 (.block 2 [4, 5])
      (by rw [recent]; exact List.mem_cons_self) 3
    exact absurd (bounds ⟨by decide, by decide, by decide⟩) (by decide)
  omega

/-- An empty block behind the end of the buffer makes it longer, single writes do not. -/
theorem empty_block_stretches_buffer :
    ((empty 16).writeEach 5 []).2.size = 0 ∧ ((empty 16).writeBlock 5 []).2.size = 5 ∧
      ∀ address, ¬(Edit.block 5 []).Writes address := by
  refine ⟨by decide, by decide, ?_⟩
  rintro address ⟨-, lower, upper⟩
  simp only [List.length_nil] at upper
  omega

end Subleq.Memory
