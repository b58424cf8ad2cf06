import Subleq.Text.Numeral

/-!
# Operands

An operand of the assembly language is an integer, a constant (`#10`, `#'A'`), which stands for the
address of a pool cell that holds it, or a reference to a label with an optional offset. Names that
start with two underscores are the assembler's own; of these only the end of the image may be
referred to.
-/

namespace Subleq.Assembly

/-- A reference to a label: the text as written, the name in it and the text of its offset, which is
empty or a sign and digits. -/
structure Reference where
  text : String
  name : String
  offset : String
  deriving Repr, DecidableEq

/-- An operand. -/
inductive Operand where
  | literal (value : Int)
  | constant (value : Int)
  | reference (target : Reference)
  deriving Repr, DecidableEq

/-- What is wrong with a line or with a cell it emits. -/
inductive Reason where
  | duplicateLabel (name : String)
  | reservedLabel (name : String)
  | badConstant (token : String)
  | badOperand (token : String)
  | unknownMnemonic (token : String)
  | operandCount (mnemonic token : String) (count : Nat)
  | sameOperands (destination source : String)
  | unknownLabel (name : String)
  /-- A numeral with too many digits. -/
  | tooLong (fault : Text.TooLong)
  deriving Repr, DecidableEq

/-- The name of the address after the last cell of an image. -/
def endName : String := "__END"

/-- Whether a name is one of the assembler's own. -/
def isReserved (name : String) : Bool := ['_', '_'].isPrefixOf name.toList

def isLabelStart (c : Char) : Bool := c.isAlpha || c == '_'

/-- Whether a character may stand inside a label. -/
def isLabelPart (c : Char) : Bool := c.isAlphanum || c == '_' || c == '.'

/-- A text without one line feed at its end. -/
def dropLastLineFeed (text : List Char) : List Char :=
  match text.reverse with
  | '\n' :: rest => rest.reverse
  | _ => text

/-- Whether a text is empty, or a sign and one or more decimal digits of any script. -/
def isOffset : List Char → Bool
  | [] => true
  | sign :: digits =>
      (sign == '+' || sign == '-') && !digits.isEmpty &&
        digits.all fun c => (Text.digitValue? c).isSome

namespace Reference

/-- Reads a label with an optional offset. A line feed at the end is overlooked. -/
def ofText? (text : String) : Option Reference :=
  match dropLastLineFeed text.toList with
  | [] => none
  | first :: rest =>
      let offset := rest.dropWhile isLabelPart
      if isLabelStart first && isOffset offset then
        some { text, name := String.ofList (first :: rest.takeWhile isLabelPart),
               offset := String.ofList offset }
      else none

/-- The number an offset denotes; no offset is zero. -/
def offsetValue (target : Reference) : Except Text.TooLong Int :=
  match Text.Numeral.ofDigits? target.offset.toList with
  | none => .ok 0
  | some numeral => numeral.value

end Reference

/-- The name that a token in the place of a label defines: a label pattern and a colon, the only one
in the token. -/
def labelName? (token : String) : Option String :=
  match token.toList.reverse with
  | ':' :: rest =>
      let name := String.ofList rest.reverse
      if rest.contains ':' then none else (Reference.ofText? name).map fun _ => name
  | _ => none

/-- The value of a numeral that is short enough. -/
def numeralValue (numeral : Text.Numeral) : Except Reason Int :=
  numeral.value.mapError .tooLong

/-- The character between single quotes. -/
def quotedChar? (text : List Char) : Option Char :=
  match dropLastLineFeed text with
  | ['\x27', c, '\x27'] => if c == '\n' then none else some c
  | _ => none

namespace Operand

/-- Reads what follows the mark of a constant. -/
def parseConstant (token : String) (text : List Char) : Except Reason Operand :=
  match quotedChar? text with
  | some c => .ok (.constant c.toNat)
  | none =>
      match Text.Numeral.ofStrict? text with
      | some numeral => (numeralValue numeral).map .constant
      | none => .error (.badConstant token)

def parseReference (token : String) : Except Reason Operand :=
  match Reference.ofText? token with
  | none => .error (.badOperand token)
  | some target =>
      if isReserved target.name && target.name != endName then .error (.badOperand token)
      else .ok (.reference target)

def parse (token : String) : Except Reason Operand :=
  match Text.Numeral.ofStrict? token.toList with
  | some numeral => (numeralValue numeral).map .literal
  | none =>
      match token.toList with
      | '#' :: text => parseConstant token text
      | _ => parseReference token

/-- The value that an operand asks the pool to hold. -/
def constant? : Operand → Option Int
  | constant value => some value
  | _ => none

end Operand

/-- The distinct constants of operands, in the order of their first use, after those of a pool. -/
def poolWith (pool : List Int) (operands : List Operand) : List Int :=
  operands.foldl (fun pool operand =>
    match operand.constant? with
    | some value => if pool.contains value then pool else pool ++ [value]
    | none => pool) pool

/-- The name of the pool cell of a constant. -/
def constantName (value : Int) : String :=
  if value < 0 then "__Kn" ++ toString value.natAbs else "__K" ++ toString value.natAbs

/-- The name of a label inside the expansion of a statement. -/
def localName (number : Nat) : String := "__L" ++ toString number

end Subleq.Assembly
