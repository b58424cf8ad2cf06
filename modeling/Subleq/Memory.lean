import Subleq.Address
import Subleq.Cell
import Subleq.Storage

/-!
# Memory

A flat memory of cells of one width. A cell that was never written holds zero. The buffer of written
cells grows on demand, filled up with zeros; `get` is the total view of a memory, in which the
length of the buffer cannot be seen. `set` and `setBlock` write without any bound; `store` and
`storeBlock` write where there is room, which a memory in unlimited room always has.
-/

namespace Subleq

/-- A buffer of cells of a width, and the room it lives in. -/
structure Memory where
  width : Nat
  cells : Array Int
  room : Room := .unlimited
  deriving Repr, DecidableEq

namespace Memory

/-- The least width of a cell. -/
def leastWidth : Nat := 2

/-- The memory in unlimited room in which no cell was written. -/
def empty (width : Nat) : Memory := { width, cells := #[] }

/-- The memory in some other room. -/
def within (memory : Memory) (room : Room) : Memory := { memory with room }

def size (memory : Memory) : Nat := memory.cells.size

def get (memory : Memory) (address : Nat) : Int := memory.cells.getD address 0

/-- An array extended with zeros to at least the given size. -/
def extend (cells : Array Int) (size : Nat) : Array Int :=
  if size ≤ cells.size then cells else cells ++ Array.replicate (size - cells.size) 0

/-- The memory whose buffer has at least the given size. -/
def grow (memory : Memory) (size : Nat) : Memory :=
  let { width, cells, room } := memory
  { width, cells := extend cells size, room }

/-- Writes a cell, wrapped to the width; the buffer grows to hold it. -/
def set (memory : Memory) (address : Nat) (value : Int) : Memory :=
  let { width, cells, room } := memory
  { width, cells := (extend cells (address + 1)).setIfInBounds address (wrap width value), room }

/-- Overwrites cells from an address on, inside the bounds of an array. -/
def overwrite (width : Nat) (cells : Array Int) (address : Nat) : List Int → Array Int
  | [] => cells
  | value :: values =>
      overwrite width (cells.setIfInBounds address (wrap width value)) (address + 1) values

/-- Writes consecutive cells; the buffer grows once, to hold the whole block. -/
def setBlock (memory : Memory) (base : Nat) (values : List Int) : Memory :=
  let { width, cells, room } := memory
  { width, cells := overwrite width (extend cells (base + values.length)) base values, room }

/-- The memory of the same width and room in which no cell was written. -/
def clear (memory : Memory) : Memory := { memory with cells := #[] }

/-- Whether there is no room for a cell of the memory's width. -/
def widthFault? (memory : Memory) : Option StorageFault := memory.room.widthFault? memory.width

/-- Writes a cell where there is room: room for a longer buffer is asked for first, room for the
value when the buffer has grown. -/
def store (memory : Memory) (address : Nat) (value : Int) : Except StorageFault Unit × Memory :=
  match memory.room.growthFault? (address + 1 - memory.size) with
  | some fault => (.error fault, memory)
  | none =>
      match memory.widthFault? with
      | some fault => (.error fault, memory.grow (address + 1))
      | none => (.ok (), memory.set address value)

/-- Writes consecutive cells where there is room, and counts them. A block without cells asks for no
room but that of the buffer before it. -/
def storeBlock (memory : Memory) (base : Nat) (values : List Int) :
    Except StorageFault Nat × Memory :=
  match memory.room.growthFault? (base + values.length - memory.size) with
  | some fault => (.error fault, memory)
  | none =>
      match (if values.isEmpty then none else memory.widthFault?) with
      | some fault => (.error fault, memory.grow (base + values.length))
      | none => (.ok values.length, memory.setBlock base values)

/-- The address an integer denotes. -/
def address (value : Int) : Except AddressFault Nat :=
  if value < 0 then .error (.cell value) else .ok value.toNat

/-- How a write fails. -/
inductive WriteFault where
  | address (fault : AddressFault)
  | storage (fault : StorageFault)
  deriving Repr, DecidableEq

def read (memory : Memory) (location : Int) : Except AddressFault Int :=
  (address location).map memory.get

def write (memory : Memory) (location value : Int) : Except WriteFault Unit × Memory :=
  match address location with
  | .error fault => (.error (.address fault), memory)
  | .ok address =>
      let (result, memory) := memory.store address value
      (result.mapError .storage, memory)

/-- Writes consecutive cells from an integer address on, and counts them. -/
def writeBlock (memory : Memory) (base : Int) (values : List Int) :
    Except WriteFault Nat × Memory :=
  match address base with
  | .error fault => (.error (.address fault), memory)
  | .ok base =>
      let (result, memory) := memory.storeBlock base values
      (result.mapError .storage, memory)

/-- The values of `count` cells from an integer address on; a count below one asks for no cell. -/
def dump (memory : Memory) (start count : Int) : Except AddressFault (List Int) :=
  if count ≤ 0 then .ok []
  else (address start).map fun first => (List.range' first count.toNat).map memory.get

@[simp] theorem width_set (memory : Memory) (address : Nat) (value : Int) :
    (memory.set address value).width = memory.width := rfl

@[simp] theorem width_setBlock (memory : Memory) (base : Nat) (values : List Int) :
    (memory.setBlock base values).width = memory.width := rfl

@[simp] theorem room_set (memory : Memory) (address : Nat) (value : Int) :
    (memory.set address value).room = memory.room := rfl

@[simp] theorem room_setBlock (memory : Memory) (base : Nat) (values : List Int) :
    (memory.setBlock base values).room = memory.room := rfl

@[simp] theorem get_empty (width address : Nat) : (empty width).get address = 0 := by
  simp [empty, get]

@[simp] theorem size_empty (width : Nat) : (empty width).size = 0 := rfl

theorem store_of_unlimited {memory : Memory} (unlimited : memory.room = .unlimited) (address : Nat)
    (value : Int) : memory.store address value = (.ok (), memory.set address value) := by
  simp [store, widthFault?, unlimited]

theorem storeBlock_of_unlimited {memory : Memory} (unlimited : memory.room = .unlimited)
    (base : Nat) (values : List Int) :
    memory.storeBlock base values = (.ok values.length, memory.setBlock base values) := by
  simp [storeBlock, widthFault?, unlimited]

end Memory

end Subleq
