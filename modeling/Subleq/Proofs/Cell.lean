import Mathlib.Algebra.Order.Ring.Int
import Mathlib.Tactic.Linarith
import Mathlib.Tactic.Ring
import Subleq.Cell

/-!
# Arithmetic of cells

`wrap width` is the signed residue modulo `2 ^ width`. It is the identity on the range of a cell,
and it can be taken off any operand of a difference that is wrapped as a whole.
-/

namespace Subleq

variable {width : Nat}

/-- The least integer above the range of a cell. -/
def cellBound (width : Nat) : Int := 2 ^ (width - 1)

/-- Whether an integer is the value of a cell. -/
def FitsCell (width : Nat) (value : Int) : Prop :=
  -cellBound width ≤ value ∧ value < cellBound width

theorem cellBound_pos (width : Nat) : 0 < cellBound width := by
  unfold cellBound
  positivity

theorem modulus_eq (positive : 0 < width) :
    ((Nat.pow 2 width : Nat) : Int) = 2 * cellBound width := by
  obtain ⟨exponent, rfl⟩ := Nat.exists_eq_succ_of_ne_zero positive.ne'
  change (((2 : Nat) ^ (exponent + 1) : Nat) : Int) = 2 * cellBound (exponent + 1)
  unfold cellBound
  rw [Nat.add_sub_cancel]
  push_cast
  ring

theorem cellBound_le_cellBound {narrow wide : Nat} (le : narrow ≤ wide) :
    cellBound narrow ≤ cellBound wide := by
  unfold cellBound
  exact pow_le_pow_right₀ (by decide) (by omega)

theorem fitsCell_wrap (positive : 0 < width) (value : Int) : FitsCell width (wrap width value) := by
  have modulus := modulus_eq positive
  have modulusPositive : 0 < Nat.pow 2 width := Nat.pow_pos (by decide)
  have lower := Int.le_bmod (x := value) modulusPositive
  have upper := Int.bmod_lt (x := value) modulusPositive
  rw [modulus] at lower upper
  constructor
  · unfold wrap
    omega
  · unfold wrap
    omega

example : wrap 16 32768 = -32768 ∧ wrap 16 (-32769) = 32767 := by decide

theorem wrap_of_fitsCell (positive : 0 < width) {value : Int} (fits : FitsCell width value) :
    wrap width value = value := by
  have modulus := modulus_eq positive
  obtain ⟨lower, upper⟩ := fits
  apply Int.bmod_eq_of_le_mul_two
  · rw [modulus]
    omega
  · rw [modulus]
    omega

@[simp] theorem wrap_sub_wrap (left right : Int) :
    wrap width (left - wrap width right) = wrap width (left - right) := by
  simp [wrap]

@[simp] theorem wrap_add_wrap (left right : Int) :
    wrap width (left + wrap width right) = wrap width (left + right) := by
  simp [wrap]

@[simp] theorem wrap_wrap_sub (left right : Int) :
    wrap width (wrap width left - right) = wrap width (left - right) := by
  simp [wrap]

theorem wrap_add_modulus (positive : 0 < width) (value : Int) :
    wrap width (value + 2 * cellBound width) = wrap width value := by
  rw [← modulus_eq positive]
  exact Int.add_bmod_right value (Nat.pow 2 width)

/-- The opposite of a negative cell is positive, unless it is the least cell, which is its own
opposite. -/
theorem wrap_neg_nonpos_iff (positive : 0 < width) {value : Int} (fits : FitsCell width value)
    (nonpositive : value ≤ 0) :
    wrap width (-value) ≤ 0 ↔ value = 0 ∨ value = -cellBound width := by
  have boundPositive := cellBound_pos width
  by_cases least : value = -cellBound width
  · have wrapped : wrap width (-value) = -cellBound width := by
      have shifted := wrap_add_modulus positive (-cellBound width)
      rw [show -cellBound width + 2 * cellBound width = -value by omega] at shifted
      rw [shifted]
      exact wrap_of_fitsCell positive ⟨le_refl _, by omega⟩
    rw [wrapped]
    constructor
    · intro _
      exact Or.inr least
    · intro _
      omega
  · have wrapped : wrap width (-value) = -value := by
      obtain ⟨lower, upper⟩ := fits
      exact wrap_of_fitsCell positive ⟨by omega, by omega⟩
    rw [wrapped]
    constructor
    · intro _
      exact Or.inl (by omega)
    · rintro (zero | equal)
      · omega
      · exact absurd equal least

/-- The difference of two cells is wrapped by one modulus at most. -/
theorem wrap_sub_of_fitsCell (positive : 0 < width) {left right : Int}
    (leftFits : FitsCell width left) (rightFits : FitsCell width right) :
    wrap width (left - right) =
      if cellBound width ≤ left - right then left - right - 2 * cellBound width
      else if left - right < -cellBound width then left - right + 2 * cellBound width
      else left - right := by
  obtain ⟨leftLower, leftUpper⟩ := leftFits
  obtain ⟨rightLower, rightUpper⟩ := rightFits
  split
  next above =>
    have shifted := wrap_add_modulus positive (left - right - 2 * cellBound width)
    rw [Int.sub_add_cancel] at shifted
    rw [shifted]
    exact wrap_of_fitsCell positive ⟨by omega, by omega⟩
  next =>
    split
    next below =>
      rw [← wrap_add_modulus positive]
      exact wrap_of_fitsCell positive ⟨by omega, by omega⟩
    next => exact wrap_of_fitsCell positive ⟨by omega, by omega⟩

/-- The wrapped difference of two cells has the sign of the difference, unless that overflows. -/
theorem wrap_sub_nonpos_iff (positive : 0 < width) {left right : Int}
    (leftFits : FitsCell width left) (rightFits : FitsCell width right) :
    wrap width (left - right) ≤ 0 ↔
      left ≤ right ∧ right - left ≤ cellBound width ∨ cellBound width ≤ left - right := by
  have bound := cellBound_pos width
  have wrapped := wrap_sub_of_fitsCell positive leftFits rightFits
  obtain ⟨leftLower, leftUpper⟩ := leftFits
  obtain ⟨rightLower, rightUpper⟩ := rightFits
  split at wrapped
  · omega
  · split at wrapped
    · omega
    · omega

/-- Whether the difference of two cells is one that is its own opposite: zero, or the least value of
a cell. -/
def LooksEqual (width : Nat) (left right : Int) : Prop :=
  wrap width (left - right) = 0 ∨ wrap width (left - right) = -cellBound width

instance (width : Nat) (left right : Int) : Decidable (LooksEqual width left right) :=
  inferInstanceAs (Decidable (_ ∨ _))

/-- Two cells that are not negative look equal only if they are. -/
theorem looksEqual_of_nonneg (positive : 0 < width) {left right : Int} (leftNonneg : 0 ≤ left)
    (leftFits : left < cellBound width) (rightNonneg : 0 ≤ right)
    (rightFits : right < cellBound width) : LooksEqual width left right ↔ left = right := by
  rw [LooksEqual, wrap_of_fitsCell positive ⟨by omega, by omega⟩]
  omega

/-- Two cells look equal if they are, or if they are half of the modulus apart. -/
theorem looksEqual_iff_apart (positive : 0 < width) {left right : Int}
    (leftFits : FitsCell width left) (rightFits : FitsCell width right) :
    LooksEqual width left right ↔
      left = right ∨ left - right = cellBound width ∨ right - left = cellBound width := by
  have bound := cellBound_pos width
  have wrapped := wrap_sub_of_fitsCell positive leftFits rightFits
  obtain ⟨leftLower, leftUpper⟩ := leftFits
  obtain ⟨rightLower, rightUpper⟩ := rightFits
  unfold LooksEqual
  split at wrapped
  · omega
  · split at wrapped
    · omega
    · omega

/-- Two cells look equal if neither difference is positive. -/
theorem looksEqual_iff (positive : 0 < width) (left right : Int) :
    LooksEqual width left right ↔
      wrap width (left - right) ≤ 0 ∧ wrap width (-wrap width (left - right)) ≤ 0 := by
  have fits := fitsCell_wrap positive (left - right)
  constructor
  · intro equal
    have nonpositive : wrap width (left - right) ≤ 0 := by
      have boundPositive := cellBound_pos width
      rcases equal with zero | least
      · omega
      · omega
    exact ⟨nonpositive, (wrap_neg_nonpos_iff positive fits nonpositive).mpr equal⟩
  · rintro ⟨nonpositive, opposite⟩
    exact (wrap_neg_nonpos_iff positive fits nonpositive).mp opposite

end Subleq
