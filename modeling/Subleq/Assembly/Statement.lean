import Subleq.Assembly.Operand
import Subleq.Text.Upper

/-!
# Statements

A statement is a mnemonic with its operands. Reading a statement judges its operands in the order in
which they enter the pool (`operands`), so that the first bad one is reported: a subtraction judges
its source first, an equality jump its target.
-/

namespace Subleq.Assembly

/-- The mnemonics of the language. -/
inductive Mnemonic where
  | subleq
  | data
  | clr
  | mov
  | add
  | sub
  | inp
  | out
  | jmp
  | halt
  | jlez
  | jle
  | jeq
  deriving Repr, DecidableEq

namespace Mnemonic

/-- The mnemonics in the order of their description. -/
def all : List Mnemonic :=
  [subleq, data, clr, mov, add, sub, inp, out, jmp, halt, jlez, jle, jeq]

def word : Mnemonic → String
  | subleq => "SUBLEQ"
  | data => "DATA"
  | clr => "CLR"
  | mov => "MOV"
  | add => "ADD"
  | sub => "SUB"
  | inp => "IN"
  | out => "OUT"
  | jmp => "JMP"
  | halt => "HALT"
  | jlez => "JLEZ"
  | jle => "JLE"
  | jeq => "JEQ"

/-- The mnemonic a token stands for; case does not matter. -/
def ofToken? (token : String) : Option Mnemonic :=
  let spelled := Text.upper token.toList
  all.find? fun mnemonic => mnemonic.word.toList == spelled

end Mnemonic

/-- A statement. Destinations stand before sources. -/
inductive Statement where
  | subleq (a b : Operand) (target : Option Operand)
  | data (values : List Operand)
  | clr (cell : Operand)
  | mov (destination source : Operand)
  | add (destination source : Operand)
  | sub (destination source : Operand)
  | inp (cell : Operand)
  | out (cell : Operand)
  | jmp (target : Operand)
  | halt
  | jlez (cell target : Operand)
  | jle (left right target : Operand)
  | jeq (left right target : Operand)
  deriving Repr, DecidableEq

namespace Statement

/-- The operands of a statement in the order in which they are judged and enter the pool. -/
def operands : Statement → List Operand
  | subleq a b target => a :: b :: target.toList
  | data values => values
  | clr cell => [cell]
  | mov destination source => [destination, source]
  | add destination source => [destination, source]
  | sub destination source => [source, destination]
  | inp cell => [cell]
  | out cell => [cell]
  | jmp target => [target]
  | halt => []
  | jlez cell target => [cell, target]
  | jle left right target => [left, right, target]
  | jeq left right target => [target, left, right]

/-- Reads operands from left to right. -/
def parseOperands : List String → Except Reason (List Operand)
  | [] => .ok []
  | token :: tokens => do
      let operand ← Operand.parse token
      let operands ← parseOperands tokens
      return operand :: operands

/-- Reads the operands of a mnemonic, which was spelled as `token`. -/
def parse (mnemonic : Mnemonic) (token : String) (arguments : List String) :
    Except Reason Statement :=
  match mnemonic, arguments with
  | .subleq, [a, b] => do
      return .subleq (← Operand.parse a) (← Operand.parse b) none
  | .subleq, [a, b, target] => do
      return .subleq (← Operand.parse a) (← Operand.parse b) (some (← Operand.parse target))
  | .data, value :: values => do
      return .data (← parseOperands (value :: values))
  | .clr, [cell] => do
      return .clr (← Operand.parse cell)
  | .mov, [destination, source] => do
      let destinationOperand ← Operand.parse destination
      let sourceOperand ← Operand.parse source
      if destinationOperand = sourceOperand then .error (.sameOperands destination source)
      else return .mov destinationOperand sourceOperand
  | .add, [destination, source] => do
      return .add (← Operand.parse destination) (← Operand.parse source)
  | .sub, [destination, source] => do
      let source ← Operand.parse source
      return .sub (← Operand.parse destination) source
  | .inp, [cell] => do
      return .inp (← Operand.parse cell)
  | .out, [cell] => do
      return .out (← Operand.parse cell)
  | .jmp, [target] => do
      return .jmp (← Operand.parse target)
  | .halt, [] => return .halt
  | .jlez, [cell, target] => do
      return .jlez (← Operand.parse cell) (← Operand.parse target)
  | .jle, [left, right, target] => do
      return .jle (← Operand.parse left) (← Operand.parse right) (← Operand.parse target)
  | .jeq, [left, right, target] => do
      let target ← Operand.parse target
      return .jeq (← Operand.parse left) (← Operand.parse right) target
  | mnemonic, arguments =>
      .error (.operandCount mnemonic.word token arguments.length)

end Statement

end Subleq.Assembly
