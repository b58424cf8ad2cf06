import Subleq.Decimal.Shortest
import Subleq.Text.Numeral
import Subleq.Text.Quoted

/-!
# Untyped data

An image that comes from outside the library is a list of data of any kind. Only integers belong
into cells; truth values do not count as integers. `integers` admits a list in which every datum is
an integer, and otherwise names the first that is not.
-/

namespace Subleq

/-- A datum of any kind. -/
inductive Datum where
  | integer (value : Int)
  | truth (value : Bool)
  | real (value : Float)
  | text (value : String)
  | nothing
  | list (items : List Datum)
  | record (fields : List (String × Datum))
  deriving Inhabited

namespace Datum

/-- A decimal number with a point, and at least one digit on either side of it. -/
def positional (number : Decimal.Digits) : List Char :=
  let { digits, point } := number
  let whole := digits.take point.toNat ++ List.replicate (point.toNat - digits.length) '0'
  let after := List.replicate (-point).toNat '0' ++ digits.drop point.toNat
  (if whole.isEmpty then ['0'] else whole) ++ '.' :: (if after.isEmpty then ['0'] else after)

/-- A decimal number with one digit before the point and an exponent, which has a sign and at least
two digits. A single digit has no point. -/
def scientific (number : Decimal.Digits) : List Char :=
  let fraction := number.digits.drop 1
  let exponent := number.point - 1
  let shown := Nat.toDigits 10 exponent.natAbs
  number.digits.take 1 ++ (if fraction.isEmpty then [] else '.' :: fraction) ++
    'e' :: (if exponent < 0 then '-' else '+') :: List.replicate (2 - shown.length) '0' ++ shown

/-- A decimal number: with a point if it is neither below a ten thousandth nor as large as ten to
the sixteenth, otherwise with an exponent. -/
def showDigits (number : Decimal.Digits) : List Char :=
  if -4 < number.point ∧ number.point ≤ 16 then positional number else scientific number

/-- The text of a real number: the fewest digits that tell it from its neighbours. -/
def showReal (value : Float) : String :=
  let bits := value.toBits
  let sign := if bits >>> 63 == 1 then ['-'] else []
  if value.isNaN then "nan"
  else if value.isInf then String.ofList (sign ++ ['i', 'n', 'f'])
  else String.ofList (sign ++ showDigits (Decimal.shortest (.ofBits bits)))

mutual

def describe : Datum → String
  | integer value => Text.decimal value
  | truth value => if value then "True" else "False"
  | real value => showReal value
  | text value => Text.quoted value
  | nothing => "None"
  | list items => "[" ++ String.intercalate ", " (describeItems items) ++ "]"
  | record fields => "\x7b" ++ String.intercalate ", " (describeFields fields) ++ "\x7d"

def describeItems : List Datum → List String
  | [] => []
  | item :: items => describe item :: describeItems items

def describeFields : List (String × Datum) → List String
  | [] => []
  | (name, value) :: fields => (Text.quoted name ++ ": " ++ describe value) :: describeFields fields

end

mutual

/-- Whether the text of a datum can be written: every integer in it has few enough digits. -/
def isWritable : Datum → Bool
  | integer value => Text.isWritable value
  | list items => areWritable items
  | record fields => haveWritable fields
  | _ => true

/-- Whether the texts of the items of a list can be written. -/
def areWritable : List Datum → Bool
  | [] => true
  | item :: items => isWritable item && areWritable items

/-- Whether the texts of the fields of a record can be written. -/
def haveWritable : List (String × Datum) → Bool
  | [] => true
  | (_, value) :: fields => isWritable value && haveWritable fields

end

def integer? : Datum → Option Int
  | integer value => some value
  | _ => none

/-- A datum in the place of a cell value, with its position counted from zero. -/
structure NotInteger where
  datum : Datum
  position : Nat

def NotInteger.message (fault : NotInteger) : String :=
  "valeur non entière " ++ fault.datum.describe ++ " (cellule " ++ toString fault.position ++ ")"

/-- The integers of a list of data from the given position on. -/
def integersFrom (position : Nat) : List Datum → Except NotInteger (List Int)
  | [] => .ok []
  | datum :: data =>
      match datum.integer? with
      | none => .error ⟨datum, position⟩
      | some value => (integersFrom (position + 1) data).map (value :: ·)

/-- The integers of a list of data that holds nothing else. -/
def integers (data : List Datum) : Except NotInteger (List Int) := integersFrom 0 data

end Datum

end Subleq
