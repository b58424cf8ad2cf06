import Subleq.Text.Blank
import Subleq.Text.Digit

/-!
# Decimal numerals

A numeral is a sign and a row of decimal digits. Two ways of writing one are read: the strict one of
program texts (`ofStrict?`), an optional sign and the digits `0` to `9`, and the lenient one of
command arguments (`ofLenient?`), which also admits surrounding blanks, digits of any script and
single underscores between digits. A numeral of more than `digitLimit` digits has no value, and an
integer of more digits is not written either.
-/

namespace Subleq.Text

/-- A sign and the values of a row of digits, most significant first. -/
structure Numeral where
  negative : Bool
  digits : List Nat
  deriving Repr, DecidableEq

/-- Why a numeral has no value: it has this many digits. -/
structure TooLong where
  digits : Nat
  deriving Repr, DecidableEq

namespace Numeral

/-- The number of digits a numeral may have. -/
def digitLimit : Nat := 4300

/-- The number a row of digits denotes. -/
def magnitude (numeral : Numeral) : Nat :=
  numeral.digits.foldl (fun total digit => 10 * total + digit) 0

/-- The integer a numeral denotes, whatever its length. -/
def toInt (numeral : Numeral) : Int :=
  if numeral.negative then -(numeral.magnitude : Int) else numeral.magnitude

/-- The integer a numeral denotes, if it is short enough to be read. -/
def value (numeral : Numeral) : Except TooLong Int :=
  if numeral.digits.length ≤ digitLimit then .ok numeral.toInt
  else .error ⟨numeral.digits.length⟩

/-- Cuts an optional sign off the front of a text. -/
def splitSign : List Char → Bool × List Char
  | '-' :: rest => (true, rest)
  | '+' :: rest => (false, rest)
  | text => (false, text)

/-- Reads an optional sign and one or more of the digits `0` to `9`, and nothing else. -/
def ofStrict? (text : List Char) : Option Numeral :=
  let (negative, body) := splitSign text
  if !body.isEmpty && body.all isAsciiDigit then some ⟨negative, body.map asciiDigitValue⟩
  else none

/-- Reads an optional sign and one or more decimal digits of any script, and nothing else. -/
def ofDigits? (text : List Char) : Option Numeral :=
  let (negative, body) := splitSign text
  if body.isEmpty then none
  else (body.mapM digitValue?).map fun digits => ⟨negative, digits⟩

/-- Reads digits with single underscores between them, as far as they go: the digits and what
follows them. An underscore that no digit follows is refused. -/
def lenientDigits : List Char → Option (List Nat × List Char)
  | [] => some ([], [])
  | '_' :: c :: rest =>
      match digitValue? c with
      | some digit => (lenientDigits rest).map fun (digits, left) => (digit :: digits, left)
      | none => none
  | '_' :: [] => none
  | c :: rest =>
      match digitValue? c with
      | some digit => (lenientDigits rest).map fun (digits, left) => (digit :: digits, left)
      | none => some ([], c :: rest)

/-- Blanks that may surround a lenient numeral: of the control characters only tab, line feed,
vertical tab, form feed and carriage return. -/
def isPadding (c : Char) : Bool :=
  isBlank c && !(0x1c ≤ c.toNat && c.toNat ≤ 0x1f)

/-- How a lenient text fails to be a number. -/
inductive LenientFault where
  | malformed
  | tooLong (digits : Nat)
  deriving Repr, DecidableEq

/-- Reads the integer a lenient text denotes. The length of the row of digits is judged before what
follows it. -/
def ofLenient (text : List Char) : Except LenientFault Int :=
  let (negative, body) := splitSign (text.dropWhile isPadding)
  if body.head? == some '_' then .error .malformed
  else match lenientDigits body with
    | none => .error .malformed
    | some ([], _) => .error .malformed
    | some (digits, left) =>
        match (Numeral.mk negative digits).value with
        | .error fault => .error (.tooLong fault.digits)
        | .ok number => if left.all isPadding then .ok number else .error .malformed

end Numeral

/-- The text of a complaint about a numeral that is too long. -/
def TooLong.message (fault : TooLong) : String :=
  "Exceeds the limit (" ++ toString Numeral.digitLimit ++
    " digits) for integer string conversion: value has " ++ toString fault.digits ++
    " digits; use sys.set_int_max_str_digits() to increase the limit"

/-- The decimal text of an integer: a minus sign for a negative one, and no leading zeros. -/
def decimal (number : Int) : String :=
  if number < 0 then "-" ++ toString number.natAbs else toString number.natAbs

/-- Whether an integer has few enough digits to be written. -/
def isWritable (number : Int) : Bool := number.natAbs < Nat.pow 10 Numeral.digitLimit

/-- The decimal text of an integer that has few enough digits to be written. -/
def decimal? (number : Int) : Option String :=
  if isWritable number then some (decimal number) else none

/-- The text of a complaint about an integer that has too many digits to be written. -/
def unwritableMessage : String :=
  "Exceeds the limit (" ++ toString Numeral.digitLimit ++
    " digits) for integer string conversion; use sys.set_int_max_str_digits() to increase the limit"

end Subleq.Text
