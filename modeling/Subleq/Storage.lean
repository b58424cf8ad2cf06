/-!
# Storage

A machine itself sets no bound on the width of its cells or on the size of its memory. The store
that a memory lives in may: `Room` says how wide a cell can be there and by how many cells a buffer
can grow at once, and `StorageFault` is the complaint about a write that asks for more. In unlimited
room, which is the default, no write is refused.
-/

namespace Subleq

/-- Why there is no room for what is written. -/
inductive StorageFault where
  /-- A cell of more bits than any number can have. -/
  | numberTooLong
  /-- More new cells than any index can count. -/
  | indexTooLarge
  /-- More bits or cells than the store has left. -/
  | exhausted
  deriving Repr, DecidableEq

namespace StorageFault

/-- The text of a complaint; an exhausted store has no words left. -/
def message : StorageFault → String
  | numberTooLong => "too many digits in integer"
  | indexTooLarge => "cannot fit 'int' into an index-sized integer"
  | exhausted => ""

/-- The greatest width that a number can have anywhere. -/
def longestNumber : Nat := 69175290276410818321

/-- The greatest number that an index can have anywhere. -/
def greatestIndex : Nat := Nat.pow 2 63 - 1

/-- The complaint about a width for which there is no room. -/
def ofWidth (width : Nat) : StorageFault :=
  if longestNumber < width then numberTooLong else exhausted

/-- The complaint about a number of new cells for which there is no room. -/
def ofGrowth (count : Nat) : StorageFault :=
  if greatestIndex < count then indexTooLarge else exhausted

end StorageFault

/-- What a store can hold: the greatest width of a cell, and the greatest number of cells a buffer
can grow by at once, where there are bounds. -/
structure Room where
  width : Option Nat := none
  growth : Option Nat := none
  deriving Repr, DecidableEq

namespace Room

/-- Room without bounds. -/
def unlimited : Room := {}

/-- The room of an ordinary computer. -/
def ordinary : Room := { width := some (Nat.pow 2 32 - 1), growth := some (Nat.pow 2 30) }

/-- Judges the width of a cell. -/
def widthFault? (room : Room) (width : Nat) : Option StorageFault :=
  match room.width with
  | none => none
  | some most => if width ≤ most then none else some (.ofWidth width)

/-- Judges the number of cells that a buffer grows by. -/
def growthFault? (room : Room) (count : Nat) : Option StorageFault :=
  match room.growth with
  | none => none
  | some most => if count ≤ most then none else some (.ofGrowth count)

@[simp] theorem widthFault?_unlimited (width : Nat) : unlimited.widthFault? width = none := rfl

@[simp] theorem growthFault?_unlimited (count : Nat) : unlimited.growthFault? count = none := rfl

end Room

end Subleq
