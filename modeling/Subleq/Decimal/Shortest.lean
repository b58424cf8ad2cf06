/-!
# Shortest decimals

A binary floating-point number stands for all reals that are nearer to it than to its neighbours.
`shortest` gives the decimal number with the fewest digits among them, and of several with that many
digits the nearest. All comparisons are of natural numbers and exact.
-/

namespace Subleq.Decimal

/-- The number `mantissa * 2 ^ exponent` among those of its format. `narrow` says that the neighbour
below is half as far away as the neighbour above. -/
structure Binary where
  mantissa : Nat
  exponent : Int
  narrow : Bool := false
  deriving Repr, DecidableEq

/-- The magnitude that the bits of a finite number of double precision hold. -/
def Binary.ofBits (bits : UInt64) : Binary :=
  let field := (bits >>> 52 &&& 0x7ff).toNat
  let fraction := (bits &&& 0xfffffffffffff).toNat
  if field == 0 then { mantissa := fraction, exponent := -1074 }
  else
    { mantissa := Nat.pow 2 52 + fraction
      exponent := (field : Int) - 1075
      narrow := fraction == 0 && 1 < field }

/-- Compares `count * 10 ^ power` with `amount * 2 ^ exponent`. -/
def compareScaled (count : Nat) (power : Int) (amount : Nat) (exponent : Int) : Ordering :=
  compare (count * Nat.pow 10 power.toNat * Nat.pow 2 (-exponent).toNat)
    (amount * Nat.pow 2 exponent.toNat * Nat.pow 10 (-power).toNat)

namespace Binary

/-- Whether `count * 10 ^ power` is one of the reals that a number stands for. The two that lie
halfway to a neighbour belong to the number with the even mantissa. -/
def standsFor (number : Binary) (count : Nat) (power : Int) : Bool :=
  let low := 4 * number.mantissa - (if number.narrow then 1 else 2)
  let high := 4 * number.mantissa + 2
  let closed := number.mantissa % 2 == 0
  let aboveLow := compareScaled count power low (number.exponent - 2)
  let belowHigh := compareScaled count power high (number.exponent - 2)
  (aboveLow == .gt || closed && aboveLow == .eq) && (belowHigh == .lt || closed && belowHigh == .eq)

/-- The greatest multiple of `10 ^ power` that is not above a number, divided by `10 ^ power`. -/
def floorAt (number : Binary) (power : Int) : Nat :=
  (number.mantissa * Nat.pow 2 number.exponent.toNat * Nat.pow 10 (-power).toNat) /
    (Nat.pow 2 (-number.exponent).toNat * Nat.pow 10 power.toNat)

/-- The multiple of `10 ^ power` that a number stands for, divided by `10 ^ power`: one of its two
neighbours among the multiples, the nearer if both will do, the even one if both are as near. -/
def multiple? (number : Binary) (power : Int) : Option Nat :=
  let low := number.floorAt power
  match number.standsFor low power, number.standsFor (low + 1) power with
  | false, false => none
  | true, false => some low
  | false, true => some (low + 1)
  | true, true =>
      match compareScaled (2 * low + 1) power (2 * number.mantissa) number.exponent with
      | .gt => some low
      | .lt => some (low + 1)
      | .eq => some (if low % 2 == 0 then low else low + 1)

/-- The least `power` for which a positive number is below `10 ^ power`. It is guessed from the
binary logarithm, at most two too low. -/
def scale (number : Binary) : Int :=
  let guess := ((number.mantissa.log2 : Int) + number.exponent) * 30103 / 100000
  let isAbove (offset : Nat) : Bool :=
    compareScaled 1 (guess + offset) number.mantissa number.exponent == .gt
  if isAbove 0 then guess else if isAbove 1 then guess + 1 else guess + 2

/-- The exact value of a number as a multiple of a power of ten, with the power. -/
def exact (number : Binary) : Nat × Int :=
  if number.exponent < 0 then
    (number.mantissa * Nat.pow 5 (-number.exponent).toNat, number.exponent)
  else (number.mantissa * Nat.pow 2 number.exponent.toNat, 0)

/-- How many digits are tried before the exact value is taken. -/
def mostDigits : Nat := 17

/-- The multiple of a power of ten with the fewest digits that a positive number stands for, with
the power. -/
def select (number : Binary) : Nat × Int :=
  let scale := number.scale
  let attempt (digits : Nat) : Option (Nat × Int) :=
    let power := scale - (digits + 1 : Nat)
    (number.multiple? power).map (·, power)
  ((List.range mostDigits).findSome? attempt).getD number.exact

end Binary

/-- The digits of a decimal number without zeros at their end, most significant first, and the
position of the point counted from before the first digit. -/
structure Digits where
  digits : List Char
  point : Int
  deriving Repr, DecidableEq

/-- The digits of `count * 10 ^ power`. -/
def Digits.ofMultiple (count : Nat) (power : Int) : Digits :=
  let digits := Nat.toDigits 10 count
  { digits := (digits.reverse.dropWhile (· == '0')).reverse, point := digits.length + power }

/-- The digits of the shortest decimal number that a number stands for. -/
def shortest (number : Binary) : Digits :=
  if number.mantissa == 0 then { digits := ['0'], point := 1 }
  else Digits.ofMultiple number.select.1 number.select.2

end Subleq.Decimal
