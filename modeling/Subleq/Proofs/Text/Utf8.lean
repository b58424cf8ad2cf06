import Mathlib.Data.List.Basic
import Subleq.Text.Utf8

/-!
# Decoding what was encoded

A text that is encoded and decoded again is the same text, in whatever blocks its bytes arrive. What
a block cuts off is the front of one character, which is left for the next block: `front` finds a
character where all its bytes are there, and a cut where some are missing.
-/

namespace Subleq.Text.Utf8

/-! ## Bytes -/

theorem lead_two : ∀ lead < 32, 2 ≤ lead →
    ¬UInt8.ofNat (lead + 0xc0) < 0x80 ∧ ¬UInt8.ofNat (lead + 0xc0) < 0xc2 ∧
      UInt8.ofNat (lead + 0xc0) < 0xe0 ∧ (UInt8.ofNat (lead + 0xc0) &&& 0x1f).toNat = lead := by
  decide

theorem lead_three : ∀ lead < 16,
    ¬UInt8.ofNat (lead + 0xe0) < 0x80 ∧ ¬UInt8.ofNat (lead + 0xe0) < 0xc2 ∧
      ¬UInt8.ofNat (lead + 0xe0) < 0xe0 ∧ UInt8.ofNat (lead + 0xe0) < 0xf0 ∧
      (UInt8.ofNat (lead + 0xe0) &&& 0x0f).toNat = lead := by
  decide

theorem lead_four : ∀ lead < 5,
    ¬UInt8.ofNat (lead + 0xf0) < 0x80 ∧ ¬UInt8.ofNat (lead + 0xf0) < 0xc2 ∧
      ¬UInt8.ofNat (lead + 0xf0) < 0xe0 ∧ ¬UInt8.ofNat (lead + 0xf0) < 0xf0 ∧
      UInt8.ofNat (lead + 0xf0) < 0xf5 ∧ (UInt8.ofNat (lead + 0xf0) &&& 0x07).toNat = lead := by
  decide

theorem continuation : ∀ bits < 64, isContinuation (UInt8.ofNat (bits + 0x80)) = true ∧
    payload (UInt8.ofNat (bits + 0x80)) = bits := by
  decide

theorem second_three : ∀ lead < 16, ∀ bits < 64, (lead = 0 → 32 ≤ bits) → (lead = 13 → bits < 32) →
    secondOfThree (UInt8.ofNat (lead + 0xe0)) (UInt8.ofNat (bits + 0x80)) = true := by
  decide

theorem second_four : ∀ lead < 5, ∀ bits < 64, (lead = 0 → 16 ≤ bits) → (lead = 4 → bits < 16) →
    secondOfFour (UInt8.ofNat (lead + 0xf0)) (UInt8.ofNat (bits + 0x80)) = true := by
  decide

/-! ## Fronts -/

/-- Bytes write a character, if it is found in front of them where all of them are there, whatever
follows, and a cut where some of them are missing. -/
structure Writes (first : UInt8) (others : List UInt8) (c : Char) : Prop where
  whole : ∀ rest, front first (others ++ rest) = .char c (others.length + 1)
  part : ∀ count < others.length, front first (others.take count) = .cut

theorem writes_one {code : Nat} (small : code < 0x80) :
    Writes (UInt8.ofNat code) [] (Char.ofNat code) where
  whole := by
    intro rest
    have same : (UInt8.ofNat code).toNat = code := by
      rw [UInt8.toNat_ofNat']
      omega
    have low : UInt8.ofNat code < 0x80 := by
      rw [UInt8.lt_iff_toNat_lt, same]
      exact small
    simp only [front, if_pos low, same]
    rfl
  part := by
    intro count short
    exact absurd short (Nat.not_lt_zero count)

theorem writes_two {lead bits : Nat} (leads : 2 ≤ lead ∧ lead < 32) (fits : bits < 64) :
    Writes (UInt8.ofNat (lead + 0xc0)) [UInt8.ofNat (bits + 0x80)]
      (Char.ofNat (lead * 64 + bits)) := by
  obtain ⟨ascii, start, two, high⟩ := lead_two lead leads.2 leads.1
  obtain ⟨continues, low⟩ := continuation bits fits
  refine ⟨fun rest => ?_, fun count short => ?_⟩
  · simp only [front, if_neg ascii, if_neg start, if_pos two, List.cons_append, continues, high,
      low, if_true]
    rfl
  · obtain rfl : count = 0 := Nat.lt_one_iff.mp short
    simp only [front, if_neg ascii, if_neg start, if_pos two, List.take]

theorem writes_three {lead middle bits : Nat} (leads : lead < 16) (inside : middle < 64)
    (fits : bits < 64) (long : lead = 0 → 32 ≤ middle) (plain : lead = 13 → middle < 32) :
    Writes (UInt8.ofNat (lead + 0xe0)) [UInt8.ofNat (middle + 0x80), UInt8.ofNat (bits + 0x80)]
      (Char.ofNat ((lead * 64 + middle) * 64 + bits)) := by
  obtain ⟨ascii, start, two, three, high⟩ := lead_three lead leads
  have second := second_three lead leads middle inside long plain
  obtain ⟨-, mid⟩ := continuation middle inside
  obtain ⟨continues, low⟩ := continuation bits fits
  refine ⟨fun rest => ?_, fun count short => ?_⟩
  · simp only [front, if_neg ascii, if_neg start, if_neg two, if_pos three, List.cons_append,
      second, continues, high, mid, low, Bool.not_true, Bool.false_eq_true, if_false, if_true]
    rfl
  · obtain rfl | rfl : count = 0 ∨ count = 1 := by
      change count < 2 at short
      omega
    · simp only [front, if_neg ascii, if_neg start, if_neg two, if_pos three, List.take]
    · simp only [front, if_neg ascii, if_neg start, if_neg two, if_pos three, List.take, second,
        Bool.not_true, Bool.false_eq_true, if_false]

theorem writes_four {lead upper middle bits : Nat} (leads : lead < 5) (above : upper < 64)
    (inside : middle < 64) (fits : bits < 64) (long : lead = 0 → 16 ≤ upper)
    (bounded : lead = 4 → upper < 16) :
    Writes (UInt8.ofNat (lead + 0xf0))
      [UInt8.ofNat (upper + 0x80), UInt8.ofNat (middle + 0x80), UInt8.ofNat (bits + 0x80)]
      (Char.ofNat (((lead * 64 + upper) * 64 + middle) * 64 + bits)) := by
  obtain ⟨ascii, start, two, three, four, high⟩ := lead_four lead leads
  have second := second_four lead leads upper above long bounded
  obtain ⟨-, up⟩ := continuation upper above
  obtain ⟨goesOn, mid⟩ := continuation middle inside
  obtain ⟨continues, low⟩ := continuation bits fits
  refine ⟨fun rest => ?_, fun count short => ?_⟩
  · simp only [front, if_neg ascii, if_neg start, if_neg two, if_neg three, if_pos four,
      List.cons_append, second, goesOn, continues, high, up, mid, low, Bool.not_true,
      Bool.false_eq_true, if_false, if_true]
    rfl
  · obtain rfl | rfl | rfl : count = 0 ∨ count = 1 ∨ count = 2 := by
      change count < 3 at short
      omega
    · simp only [front, if_neg ascii, if_neg start, if_neg two, if_neg three, if_pos four,
        List.take]
    · simp only [front, if_neg ascii, if_neg start, if_neg two, if_neg three, if_pos four,
        List.take, second, Bool.not_true, Bool.false_eq_true, if_false]
    · simp only [front, if_neg ascii, if_neg start, if_neg two, if_neg three, if_pos four,
        List.take, second, goesOn, Bool.not_true, Bool.false_eq_true, if_false]

theorem exists_writes (c : Char) :
    ∃ first others, String.utf8EncodeChar c = first :: others ∧ Writes first others c := by
  have valid := c.valid
  simp only [UInt32.isValidChar, Nat.isValidChar] at valid
  unfold String.utf8EncodeChar
  generalize code : c.val.toNat = value at valid
  have same : Char.ofNat value = c := by
    rw [← code]
    exact Char.ofNat_toNat c
  dsimp only
  split
  next one =>
    refine ⟨_, _, rfl, ?_⟩
    have writes := writes_one (show value < 0x80 by omega)
    rwa [same] at writes
  next =>
    split
    next two =>
      refine ⟨_, _, rfl, ?_⟩
      have writes := @writes_two (value / 64 % 0x20) (value % 0x40) (by omega) (by omega)
      rwa [show value / 64 % 0x20 * 64 + value % 0x40 = value by omega, same] at writes
    next =>
      split
      next three =>
        refine ⟨_, _, rfl, ?_⟩
        have writes := @writes_three (value / 4096 % 0x10) (value / 64 % 0x40) (value % 0x40)
          (by omega) (by omega) (by omega) (by omega) (by omega)
        rwa [show (value / 4096 % 0x10 * 64 + value / 64 % 0x40) * 64 + value % 0x40 = value by
          omega, same] at writes
      next =>
        refine ⟨_, _, rfl, ?_⟩
        have writes := @writes_four (value / 262144 % 0x08) (value / 4096 % 0x40)
          (value / 64 % 0x40) (value % 0x40) (by omega) (by omega) (by omega) (by omega) (by omega)
          (by omega)
        rwa [show ((value / 262144 % 0x08 * 64 + value / 4096 % 0x40) * 64 + value / 64 % 0x40) *
          64 + value % 0x40 = value by omega, same] at writes

/-! ## Texts -/

def bytesOf (text : List Char) : List UInt8 := text.flatMap String.utf8EncodeChar

/-- The bytes of an array from an index on are put behind those that were taken before. -/
theorem toList_loop (bytes : ByteArray) (index : Nat) (taken : List UInt8) :
    ByteArray.toList.loop bytes index taken = taken.reverse ++ bytes.data.toList.drop index := by
  induction index, taken using ByteArray.toList.loop.induct bytes with
  | case1 index taken inside ih =>
      have here : index < bytes.data.toList.length := by simpa using inside
      have byte : bytes.get! index = bytes.data.toList[index] := by
        change bytes.data[index]! = _
        rw [getElem!_pos bytes.data index inside, Array.getElem_toList]
      rw [ByteArray.toList.loop, if_pos inside, ih, List.drop_eq_getElem_cons here, byte]
      simp
  | case2 index taken outside =>
      have behind : bytes.data.toList.length ≤ index := by simpa using outside
      rw [ByteArray.toList.loop, if_neg outside, List.drop_eq_nil_of_le behind, List.append_nil]

theorem encode_eq_bytesOf (text : String) : encode text = bytesOf text.toList := by
  have bytes : text.toUTF8 = (bytesOf text.toList).toByteArray := by
    rw [String.toUTF8_eq_toByteArray, bytesOf, ← List.utf8Encode]
    conv => lhs; rw [← @String.ofList_toList text]
    rfl
  rw [encode, ByteArray.toList, toList_loop, bytes, List.toList_data_toByteArray]
  rfl

/-- The bytes that belong to the character just decoded are passed over. -/
theorem decodeFrom_skip (more : Bool) (position : Nat) (done : List Char)
    (others rest : List UInt8) :
    decodeFrom more position others.length done (others ++ rest) =
      decodeFrom more (position + others.length) 0 done rest := by
  induction others generalizing position with
  | nil => rfl
  | cons first others ih =>
      rw [List.length_cons, List.cons_append, decodeFrom, ih]
      congr 1
      omega

/-- A part of a character's bytes that is not all of them. -/
def IsPart (part : List UInt8) : Prop :=
  ∃ c more, String.utf8EncodeChar c = part ++ more ∧ more ≠ []

theorem isPart_nil : IsPart [] :=
  ⟨'a', _, (List.nil_append _).symm, String.utf8EncodeChar_ne_nil⟩

theorem decodeFrom_part {part : List UInt8} (isPart : IsPart part) (more : Bool) (position : Nat)
    (done : List Char) : decodeFrom more position 0 done part = .ok (done, part) := by
  obtain ⟨c, missing, cut, content⟩ := isPart
  cases part with
  | nil => rfl
  | cons first some =>
      obtain ⟨lead, others, bytes, writes⟩ := exists_writes c
      rw [bytes, List.cons_append] at cut
      obtain ⟨rfl, rfl⟩ := List.cons.inj cut
      have short : some.length < (some ++ missing).length := by
        rw [List.length_append]
        have positive := List.length_pos_iff.mpr content
        omega
      have found := writes.part some.length short
      rw [List.take_left] at found
      rw [decodeFrom, found]

/-- Characters are decoded up to the part of one that is cut off. -/
theorem decodeFrom_bytesOf {part : List UInt8} (isPart : IsPart part) (more : Bool)
    (text : List Char) (position : Nat) (done : List Char) :
    decodeFrom more position 0 done (bytesOf text ++ part) =
      .ok (text.reverse ++ done, part) := by
  induction text generalizing position done with
  | nil => exact decodeFrom_part isPart more position done
  | cons c text ih =>
      obtain ⟨first, others, bytes, writes⟩ := exists_writes c
      rw [bytesOf, List.flatMap_cons, bytes, List.append_assoc, List.cons_append, decodeFrom,
        writes.whole]
      simp only [Nat.add_sub_cancel]
      rw [decodeFrom_skip]
      have rest := ih (position + 1 + others.length) (c :: done)
      rw [bytesOf] at rest
      rw [rest]
      simp

/-- Wherever the bytes of a text are cut, there are whole characters before the cut, and then a part
of the next one that is not all of it, or nothing. -/
theorem exists_cut {text : List Char} {before after : List UInt8}
    (split : before ++ after = bytesOf text) :
    ∃ whole rest part, text = whole ++ rest ∧ before = bytesOf whole ++ part ∧
      part ++ after = bytesOf rest ∧ IsPart part := by
  induction text generalizing before with
  | nil =>
      obtain ⟨rfl, rfl⟩ := List.append_eq_nil_iff.mp split
      exact ⟨[], [], [], rfl, rfl, rfl, isPart_nil⟩
  | cons c text ih =>
      rw [bytesOf, List.flatMap_cons] at split
      rcases List.append_eq_append_iff.mp split with ⟨more, bytes, rfl⟩ | ⟨others, rfl, rest⟩
      · cases more with
        | nil =>
            rw [List.append_nil] at bytes
            refine ⟨[c], text, [], rfl, ?_, rfl, isPart_nil⟩
            rw [← bytes, bytesOf, List.flatMap_singleton, List.append_nil]
        | cons next more =>
            refine ⟨[], c :: text, before, rfl, rfl, ?_, c, _, bytes, List.cons_ne_nil next more⟩
            rw [bytesOf, List.flatMap_cons, bytes, List.append_assoc]
      · obtain ⟨whole, left, part, rfl, cut, follows, isPart⟩ := ih rest.symm
        refine ⟨c :: whole, left, part, rfl, ?_, follows, isPart⟩
        rw [cut, bytesOf, bytesOf, List.flatMap_cons, List.append_assoc]

theorem decodeBlocksFrom_bytesOf {text : List Char} {left : List UInt8}
    {blocks : List (List UInt8)} (all : left ++ blocks.flatten = bytesOf text) (done : List Char) :
    decodeBlocksFrom done left blocks = .ok (done.reverse ++ text) := by
  induction blocks generalizing text left done with
  | nil =>
      rw [List.flatten_nil, List.append_nil] at all
      have decoded := decodeFrom_bytesOf isPart_nil false text 0 done
      rw [List.append_nil] at decoded
      rw [decodeBlocksFrom, decodeLast, all, decoded]
      simp [cutFault]
  | cons block blocks ih =>
      rw [List.flatten_cons, ← List.append_assoc] at all
      obtain ⟨whole, rest, part, rfl, cut, follows, isPart⟩ := exists_cut all
      rw [decodeBlocksFrom, cut, decodeFrom_bytesOf isPart]
      dsimp only
      rw [ih follows]
      simp

theorem flatten_blocks {size fuel : Nat} (positive : 0 < size) {bytes : List UInt8}
    (enough : bytes.length ≤ fuel) : (blocks size fuel bytes).flatten = bytes := by
  induction fuel generalizing bytes with
  | zero =>
      rw [List.length_eq_zero_iff.mp (Nat.le_zero.mp enough)]
      rfl
  | succ fuel ih =>
      cases bytes with
      | nil => rfl
      | cons first rest =>
          have shorter : ((first :: rest).drop size).length ≤ fuel := by
            rw [List.length_drop]
            rw [List.length_cons] at enough ⊢
            omega
          rw [blocks, List.flatten_cons, ih shorter, List.take_append_drop]
          simp

/-- A text that is encoded is decoded to its characters, whatever the size of the blocks. -/
theorem decodeBlocks_encode {size : Nat} (positive : 0 < size) (text : String) :
    decodeBlocks size (encode text) = .ok text.toList := by
  have all := flatten_blocks positive (Nat.le_refl (encode text).length)
  rw [decodeBlocks, decodeBlocksFrom_bytesOf (all.trans (encode_eq_bytesOf text))]
  rfl

end Subleq.Text.Utf8
