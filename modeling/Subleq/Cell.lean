/-!
# Cells

A cell of width `w` holds a signed integer of `w` bits in two's complement. `wrap` brings any
integer into that range.
-/

namespace Subleq

/-- The width of a cell where nothing else is asked for. -/
def defaultWidth : Nat := 16

/-- The signed integer of `width` bits that is congruent to `value` modulo `2 ^ width`. -/
def wrap (width : Nat) (value : Int) : Int := value.bmod (Nat.pow 2 width)

@[simp] theorem wrap_zero (width : Nat) : wrap width 0 = 0 := by
  simp [wrap]

@[simp] theorem wrap_wrap (width : Nat) (value : Int) :
    wrap width (wrap width value) = wrap width value := by
  simp [wrap]

end Subleq
