import Mathlib.Data.Int.Bitwise
import Mathlib.Data.Int.ModEq
import Subleq.Config
import Subleq.Proofs.Cell

/-!
# The signed residue

`wrap width` gives the one integer in the range of a cell that is congruent to its argument modulo
`2 ^ width`. The same residue is reached through bits: half of the modulus is added, the lowest
`width` bits are kept, and the half is taken off again.
-/

namespace Subleq

variable {width : Nat}

theorem natCast_modulus (width : Nat) : ((Nat.pow 2 width : Nat) : Int) = 2 ^ width :=
  Int.natCast_pow 2 width

/-! ## Congruence -/

/-- Two integers are wrapped to one cell exactly if they are congruent. -/
theorem wrap_eq_wrap_iff {left right : Int} :
    wrap width left = wrap width right ↔ left ≡ right [ZMOD 2 ^ width] := by
  rw [← natCast_modulus, Int.ModEq]
  constructor
  · intro same
    have remainders := congrArg (· % ((Nat.pow 2 width : Nat) : Int)) same
    simpa only [wrap, Int.bmod_emod] using remainders
  · intro same
    rw [wrap, wrap, ← Int.emod_bmod left, same, Int.emod_bmod]

/-- An integer is congruent to the cell it is wrapped to. -/
theorem wrap_modEq (width : Nat) (value : Int) : wrap width value ≡ value [ZMOD 2 ^ width] :=
  wrap_eq_wrap_iff.mp (wrap_wrap width value)

/-- The wrapped value is the only cell that is congruent to the value. -/
theorem wrap_eq_iff (positive : 0 < width) {value result : Int} :
    wrap width value = result ↔ FitsCell width result ∧ result ≡ value [ZMOD 2 ^ width] := by
  constructor
  · rintro rfl
    exact ⟨fitsCell_wrap positive value, wrap_modEq width value⟩
  · rintro ⟨fits, congruent⟩
    rw [← wrap_eq_wrap_iff.mpr congruent]
    exact wrap_of_fitsCell positive fits

/-! ## Bits -/

/-- The low bits that a number lacks are those of the complement of its remainder. -/
theorem ldiff_ones (count number : Nat) :
    Nat.ldiff (2 ^ count - 1) number = 2 ^ count - (number % 2 ^ count + 1) := by
  have below : number % 2 ^ count < 2 ^ count := Nat.mod_lt _ (Nat.two_pow_pos count)
  apply Nat.eq_of_testBit_eq
  intro place
  rw [Nat.testBit_ldiff, Nat.testBit_two_pow_sub_one, Nat.testBit_two_pow_sub_succ below,
    Nat.testBit_mod_two_pow]
  by_cases inside : place < count
  · simp [inside]
  · simp [inside]

/-- The lowest bits of an integer in two's complement are its remainder, also where the integer is
negative and has ones without end. -/
theorem land_ones (value : Int) (count : Nat) :
    Int.land value (2 ^ count - 1) = value % 2 ^ count := by
  have modulus : (2 : Int) ^ count = ((2 ^ count : Nat) : Int) := (natCast_modulus count).symm
  have ones : (2 : Int) ^ count - 1 = ((2 ^ count - 1 : Nat) : Int) := by
    rw [modulus, Int.natCast_sub Nat.one_le_two_pow, Int.natCast_one]
  rw [ones, modulus]
  -- Both operations take a negative integer by its complement, which is a natural number.
  cases value with
  | ofNat number =>
      change ((number &&& (2 ^ count - 1) : Nat) : Int) = ((number % 2 ^ count : Nat) : Int)
      rw [Nat.and_two_pow_sub_one_eq_mod]
  | negSucc number =>
      have below : number % 2 ^ count < 2 ^ count := Nat.mod_lt _ (Nat.two_pow_pos count)
      change ((Nat.ldiff (2 ^ count - 1) number : Nat) : Int) =
        Int.subNatNat (2 ^ count) (number % 2 ^ count + 1)
      rw [ldiff_ones, Int.subNatNat_of_le below]

/-- The residue by its bits: half of the modulus is added, the lowest `width` bits are kept, and the
half is taken off again. -/
def maskedResidue (width : Nat) (value : Int) : Int :=
  let half := (1 : Int) <<< (width - 1)
  Int.land (value + half) ((1 : Int) <<< width - 1) - half

theorem wrap_eq_maskedResidue (positive : 0 < width) (value : Int) :
    wrap width value = maskedResidue width value := by
  have modulus : (2 : Int) ^ width = 2 * cellBound width := by
    rw [← natCast_modulus, modulus_eq positive]
  have masked : maskedResidue width value =
      (value + cellBound width) % 2 ^ width - cellBound width := by
    simp only [maskedResidue, cellBound, Int.shiftLeft_eq, one_mul, land_ones]
  have bound := cellBound_pos width
  have lower := Int.emod_nonneg (value + cellBound width) (b := 2 ^ width) (by omega)
  have upper := Int.emod_lt_of_pos (value + cellBound width) (b := 2 ^ width) (by omega)
  rw [wrap_eq_iff positive, masked]
  refine ⟨⟨by omega, by omega⟩, ?_⟩
  calc (value + cellBound width) % 2 ^ width - cellBound width
      ≡ value + cellBound width - cellBound width [ZMOD 2 ^ width] :=
        (Int.mod_modEq _ _).sub_right _
    _ = value := Int.add_sub_cancel value _

/-! ## The residue -/

/-- A store gives the wrapped value, and nothing else, if it has room for a cell of the width. -/
theorem wrapWithin_eq_ok_iff (positive : 0 < width) {room : Room} {value result : Int} :
    wrapWithin room width value = .ok result ↔
      room.widthFault? width = none ∧ wrap width value = result := by
  have least : ¬(width : Int) < 1 := by omega
  rw [wrapWithin, if_neg least, Int.toNat_natCast]
  cases room.widthFault? width with
  | none => simp
  | some fault => simp

/-- Wrapping is taking the signed residue. Whatever the width, as long as it is not zero, and
whatever the value: the wrapped value is the only integer in the range of a cell that is congruent
to the value modulo `2 ^ width`, and it is the one that masking gives. A store gives this value and
no other, exactly if it has room for a cell of the width, as unlimited room always has.

So wrapping leaves the values of cells as they are, a second time changes nothing, and the operands
of a difference need not be wrapped before the difference is; and a sum of which both steps are
wrapped, the opposite and its subtraction, is the wrapped sum. -/
theorem wrap_is_signed_residue (positive : 0 < width) :
    (∀ value result : Int,
      wrap width value = result ↔
        (-2 ^ (width - 1) ≤ result ∧ result < 2 ^ (width - 1)) ∧
          result ≡ value [ZMOD 2 ^ width]) ∧
    (∀ value : Int, wrap width value = maskedResidue width value) ∧
    (∀ value : Int, wrapWithin .unlimited width value = .ok (wrap width value)) ∧
    (∀ (room : Room) (value result : Int),
      wrapWithin room width value = .ok result ↔
        room.widthFault? width = none ∧ wrap width value = result) ∧
    (∀ value : Int, -2 ^ (width - 1) ≤ value → value < 2 ^ (width - 1) →
      wrap width value = value) ∧
    (∀ value : Int, wrap width (wrap width value) = wrap width value) ∧
    (∀ left right : Int,
      wrap width (wrap width left - wrap width right) = wrap width (left - right)) ∧
    ∀ target source : Int,
      wrap width (target - wrap width (0 - source)) = wrap width (target + source) := by
  refine ⟨fun _ _ => wrap_eq_iff positive, wrap_eq_maskedResidue positive, ?_,
    fun _ _ _ => wrapWithin_eq_ok_iff positive, ?_, wrap_wrap width, ?_, ?_⟩
  · intro value
    exact (wrapWithin_eq_ok_iff positive).mpr ⟨Room.widthFault?_unlimited width, rfl⟩
  · intro value lower upper
    exact wrap_of_fitsCell positive ⟨lower, upper⟩
  · intro left right
    rw [wrap_sub_wrap, wrap_wrap_sub]
  · intro target source
    rw [wrap_sub_wrap, Int.zero_sub, Int.sub_neg]

/-- A value and a sum that no cell of sixteen bits holds, and a value that no cell of one bit
holds. -/
theorem wrap_is_signed_residue_overflowing :
    0 < 16 ∧ wrap 16 98304 = -32768 ∧ maskedResidue 16 98304 = -32768 ∧
      wrapWithin .ordinary 16 98304 = .ok (-32768) ∧
      wrap 16 (-32768 - wrap 16 (0 - -32768)) = 0 ∧
      0 < 1 ∧ wrap 1 1 = -1 ∧ maskedResidue 1 1 = -1 := by
  obtain ⟨residue, masked, -, found, -, -, -, sums⟩ := @wrap_is_signed_residue 16 (by decide)
  obtain ⟨bit, maskedBit, -⟩ := @wrap_is_signed_residue 1 (by decide)
  have wrapped : wrap 16 98304 = -32768 := (residue 98304 (-32768)).mpr (by decide)
  have wrappedBit : wrap 1 1 = -1 := (bit 1 (-1)).mpr (by decide)
  refine ⟨by decide, wrapped, (masked 98304).symm.trans wrapped,
    (found .ordinary 98304 (-32768)).mpr ⟨by decide, wrapped⟩, ?_, by decide, wrappedBit,
    (maskedBit 1).symm.trans wrappedBit⟩
  rw [sums]
  exact (residue (-32768 + -32768) 0).mpr (by decide)

end Subleq
