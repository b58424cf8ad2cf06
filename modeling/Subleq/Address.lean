import Subleq.Text.Numeral

/-!
# Bad addresses

An address is a non-negative integer. The one negative integer with a meaning is the sentinel `-1`:
as an operand it selects input or output, as a program counter it means that the machine has halted.
Every other negative integer in the place of an address is a fault.
-/

namespace Subleq

/-- The operand that selects input or output, and the program counter of a halted machine. -/
def sentinel : Int := -1

/-- The operands of an instruction. -/
inductive Slot where
  | a
  | b
  | c
  deriving Repr, DecidableEq

def Slot.letter : Slot → String
  | .a => "A"
  | .b => "B"
  | .c => "C"

/-- Where an integer that is no address stood. -/
inductive AddressFault where
  /-- The address of a cell that is read or written. -/
  | cell (address : Int)
  /-- The program counter. -/
  | counter (pc : Int)
  /-- An operand of the instruction at `pc`. -/
  | operand (slot : Slot) (value pc : Int)
  /-- The target of an input instruction at `pc`, which is the sentinel. -/
  | inputTarget (pc : Int)
  /-- The base of a load. -/
  | base (address : Int)
  deriving Repr, DecidableEq

namespace AddressFault

def address : AddressFault → Int
  | cell address => address
  | counter pc => pc
  | operand _ value _ => value
  | inputTarget _ => sentinel
  | base address => address

def message : AddressFault → String
  | cell address => "adresse invalide: " ++ Text.decimal address
  | counter pc => "pc invalide: " ++ Text.decimal pc
  | operand slot value pc =>
      slot.letter ++ " invalide " ++ Text.decimal value ++ " en pc=" ++ Text.decimal pc
  | inputTarget pc => "IN vers l'adresse -1 en pc=" ++ Text.decimal pc
  | base address => "base de chargement invalide: " ++ Text.decimal address

/-- The integers that the text of a complaint names. -/
def named : AddressFault → List Int
  | cell address => [address]
  | counter pc => [pc]
  | operand _ value pc => [value, pc]
  | inputTarget pc => [pc]
  | base address => [address]

/-- Whether the text of a complaint can be written. -/
def isWritable (fault : AddressFault) : Bool := fault.named.all Text.isWritable

end AddressFault

end Subleq
