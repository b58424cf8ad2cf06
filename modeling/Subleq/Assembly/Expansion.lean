import Subleq.Assembly.Statement

/-!
# Expansions

Every statement expands to instructions of the one kind the machine has, or to plain cells. The
expansions share three scratch cells: one that is zero before and after every statement, and two for
differences. Cells are written as terms, because the addresses of labels, scratch cells and
constants are known only when the whole program was read. Positions count the cells of an image from
zero, so that an expansion does not depend on where the image will be loaded.
-/

namespace Subleq.Assembly

/-- The scratch cells. -/
inductive Scratch where
  | zero
  | difference
  | opposite
  deriving Repr, DecidableEq

namespace Scratch

/-- The scratch cells in the order of their positions. -/
def all : List Scratch := [zero, difference, opposite]

/-- The place of a scratch cell among the scratch cells. -/
def place : Scratch → Nat
  | zero => 0
  | difference => 1
  | opposite => 2

def name : Scratch → String
  | zero => "__Z"
  | difference => "__T"
  | opposite => "__U"

end Scratch

/-- The content of a cell before addresses are known. -/
inductive Term where
  | value (value : Int)
  /-- The address of the cell at a position of the image. -/
  | position (position : Nat)
  | scratch (cell : Scratch)
  /-- The address of the pool cell that holds a constant. -/
  | constant (value : Int)
  | reference (target : Reference)
  deriving Repr, DecidableEq

def Operand.term : Operand → Term
  | literal value => .value value
  | constant value => .constant value
  | reference target => .reference target

/-- An instruction; without a target, control passes to the next one. -/
structure Instruction where
  a : Term
  b : Term
  target : Option Term := none
  deriving Repr, DecidableEq

/-- The cells of instructions from a position on. -/
def layOut (start : Nat) : List Instruction → List Term
  | [] => []
  | instruction :: rest =>
      instruction.a :: instruction.b :: instruction.target.getD (.position (start + 3)) ::
        layOut (start + 3) rest

namespace Expansion

abbrev zero : Term := .scratch .zero

abbrev difference : Term := .scratch .difference

abbrev opposite : Term := .scratch .opposite

def clear (cell : Term) : Instruction := { a := cell, b := cell }

/-- Adds a cell to another by way of the zero cell. -/
def add (destination source : Term) : List Instruction :=
  [{ a := source, b := zero }, { a := zero, b := destination }, clear zero]

def jump (target : Term) : Instruction := { a := zero, b := zero, target := some target }

def jumpUnlessPositive (cell target : Term) : Instruction :=
  { a := zero, b := cell, target := some target }

/-- Leaves `left - right` in the cell for a difference. -/
def subtract (left right : Term) : List Instruction :=
  clear difference :: add difference left ++ [{ a := right, b := difference }]

/-- How many cells stand before the second half of an equality jump. -/
def halfway : Nat := 21

def equalityLength : Nat := 30

/-- Jumps if `left - right` and `right - left` are both not positive. -/
def jumpIfEqual (start : Nat) (left right target : Term) : List Instruction :=
  subtract left right ++
    [jumpUnlessPositive difference (.position (start + halfway)),
      jump (.position (start + equalityLength)),
      clear opposite,
      { a := difference, b := opposite },
      jumpUnlessPositive opposite target]

end Expansion

namespace Statement

open Expansion in
/-- The instructions of a statement at a position; plain data have none. -/
def instructions (start : Nat) : Statement → List Instruction
  | subleq a b target => [{ a := a.term, b := b.term, target := target.map Operand.term }]
  | data _ => []
  | clr cell => [clear cell.term]
  | mov destination source => clear destination.term :: Expansion.add destination.term source.term
  | add destination source => Expansion.add destination.term source.term
  | sub destination source => [{ a := source.term, b := destination.term }]
  | inp cell => [{ a := .value (-1), b := cell.term }]
  | out cell => [{ a := cell.term, b := .value (-1) }]
  | jmp target => [jump target.term]
  | halt => [jump (.value (-1))]
  | jlez cell target => [jumpUnlessPositive cell.term target.term]
  | jle left right target =>
      subtract left.term right.term ++ [jumpUnlessPositive difference target.term]
  | jeq left right target => jumpIfEqual start left.term right.term target.term

/-- The cells of a statement at a position. -/
def terms (start : Nat) (statement : Statement) : List Term :=
  match statement with
  | data values => values.map Operand.term
  | statement => layOut start (statement.instructions start)

def size : Statement → Nat
  | data values => values.length
  | mov _ _ => 12
  | add _ _ => 9
  | jle _ _ _ => 18
  | jeq _ _ _ => 30
  | _ => 3

/-- The positions of the labels inside the expansion of a statement. -/
def innerLabels (start : Nat) : Statement → List Nat
  | jeq _ _ _ => [start + Expansion.halfway, start + Expansion.equalityLength]
  | _ => []

end Statement

@[simp] theorem length_layOut (start : Nat) (instructions : List Instruction) :
    (layOut start instructions).length = 3 * instructions.length := by
  induction instructions generalizing start with
  | nil => rfl
  | cons instruction rest ih => simp [layOut, ih]; omega

/-- The size of a statement is the number of its cells, wherever it stands. -/
@[simp] theorem Statement.length_terms (start : Nat) (statement : Statement) :
    (statement.terms start).length = statement.size := by
  cases statement <;>
    simp [terms, size, instructions, Expansion.add, Expansion.subtract, Expansion.jumpIfEqual]

end Subleq.Assembly
