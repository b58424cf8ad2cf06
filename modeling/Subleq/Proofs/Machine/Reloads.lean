import Subleq.Proofs.Machine.Bounds
import Subleq.Proofs.Machine.Loads

/-!
# Dumps that are loaded again

The cells of a machine can be written down and loaded again. A text lists values if it has a token
for each of them, in order, and blanks between the tokens; how a token is written is left open as
far as it denotes the value. Such a text is read as these values. Every cell of a machine is in the
range of its width, where wrapping changes nothing, so a machine of the same width that loads the
text has the same buffer; and a machine that loads values in range has just these in its buffer.
-/

namespace Subleq

/-! ## Listed values -/

namespace Program

/-- How a value is written: whether with a plus where it has no minus, and with how many leading
zeros. -/
structure Style where
  plus : Bool
  zeros : Nat
  deriving Repr, DecidableEq

namespace Style

def token (style : Style) (value : Int) : List Char :=
  (if value < 0 then ['-'] else if style.plus then ['+'] else []) ++
    (List.replicate style.zeros '0' ++ (toString value.natAbs).toList)

/-- Whether the token of a value has few enough digits to be read. -/
def IsShort (style : Style) (value : Int) : Prop :=
  style.zeros + (toString value.natAbs).length ≤ 4300

variable {style : Style} {value : Int}

instance (style : Style) (value : Int) : Decidable (style.IsShort value) :=
  inferInstanceAs (Decidable (_ ≤ _))

theorem spells_token (short : style.IsShort value) : Spells (style.token value) value := by
  have number : numberOf (List.replicate style.zeros '0' ++ (toString value.natAbs).toList) =
      value.natAbs := by
    rw [numberOf_zeros_append, numberOf_toString]
  refine ⟨_, _, rfl, by simp, ascii_zeros_append _ _, ?_, ?_⟩
  · rw [List.length_append, List.length_replicate]
    exact short
  · rw [number]
    by_cases negative : value < 0
    · right
      exact ⟨if_pos negative, by omega⟩
    · left
      rw [if_neg negative]
      refine ⟨?_, by omega⟩
      cases style.plus with
      | true => exact Or.inr rfl
      | false => exact Or.inl rfl

theorem token_ne_nil : style.token value ≠ [] := by
  simp [token]

theorem solid_token : ∀ c ∈ style.token value, Text.isBlank c = false := by
  intro c member
  rcases List.mem_append.mp member with sign | digit
  · split at sign
    · rw [List.mem_singleton.mp sign]
      decide
    · split at sign
      · rw [List.mem_singleton.mp sign]
        decide
      · cases sign
  · apply Text.isBlank_of_isDigit
    simpa [Char.isDigit, Char.le_def] using ascii_zeros_append _ _ c digit

end Style

/-- A text lists values: it is made of blanks and of the tokens of the values, in order, and where
it goes on behind a token there is a blank. -/
inductive Lists : List Char → List Int → Prop
  | nil : Lists [] []
  | blank {c : Char} {text : List Char} {values : List Int} (blank : Text.isBlank c = true)
      (rest : Lists text values) : Lists (c :: text) values
  | token {style : Style} {value : Int} {text : List Char} {values : List Int}
      (short : style.IsShort value) (parted : ∀ c ∈ text.head?, Text.isBlank c = true)
      (rest : Lists text values) : Lists (style.token value ++ text) (value :: values)

theorem Lists.token_blank {style : Style} {value : Int} {c : Char} {text : List Char}
    {values : List Int} (short : style.IsShort value) (blank : Text.isBlank c = true)
    (rest : Lists text values) : Lists (style.token value ++ c :: text) (value :: values) := by
  refine .token short ?_ (.blank blank rest)
  rintro _ ⟨⟩
  exact blank

theorem Lists.spelled {text : List Char} {values : List Int} (lists : Lists text values) :
    List.Forall₂ Spells (Text.words text) values := by
  induction lists with
  | nil => exact .nil
  | blank blank rest ih => rwa [Text.words_cons_blank blank]
  | token short parted rest ih =>
      rw [Text.words_token_append Style.token_ne_nil Style.solid_token parted]
      exact .cons (Style.spells_token short) ih

theorem exists_lists {values : List Int}
    (short : ∀ value ∈ values, (toString value.natAbs).length ≤ 4300) :
    ∃ text : String, Lists text.toList values := by
  suffices listed : ∃ text, Lists text values by
    obtain ⟨text, lists⟩ := listed
    exact ⟨String.ofList text, by rwa [String.toList_ofList]⟩
  induction values with
  | nil => exact ⟨[], .nil⟩
  | cons value values ih =>
      obtain ⟨text, lists⟩ := ih fun other member => short other (List.mem_cons_of_mem value member)
      have few : Style.IsShort ⟨false, 0⟩ value := by
        have own := short value List.mem_cons_self
        rwa [Style.IsShort, Nat.zero_add]
      have blank : Text.isBlank ' ' = true := by decide
      exact ⟨_, .token_blank few blank lists⟩

end Program

/-! ## Buffers -/

namespace Memory

variable {memory other : Memory} {values : List Int}

/-- Buffers of one length with the same view are the same. -/
theorem cells_eq (size : memory.size = other.size)
    (view : ∀ address, memory.get address = other.get address) : memory.cells = other.cells := by
  apply Array.ext size
  intro address inside otherInside
  have same := view address
  simpa [get, inside, otherInside] using same

/-- The cells of a buffer, one after the other, are what a dump of all of it returns. -/
theorem dump_size (memory : Memory) : memory.dump 0 memory.size = .ok memory.cells.toList := by
  have listed : (List.range' 0 memory.size).map memory.get = memory.cells.toList := by
    apply List.ext_getElem
    · simp [size]
    · intro index inside _
      have within : index < memory.cells.size := by simpa [size] using inside
      simp [get, within]
  rw [dump]
  split
  next nonpositive =>
    have none : memory.cells.size = 0 := Int.ofNat_le.mp nonpositive |> Nat.le_zero.mp
    rw [Array.eq_empty_of_size_eq_zero none]
  · simp [address, Except.map, listed]

/-- A cleared buffer into which values in range are written from zero on is made of these values. -/
theorem cells_setBlock_clear (positive : 0 < memory.width)
    (fits : ∀ value ∈ values, FitsCell memory.width value) :
    (memory.clear.setBlock 0 values).cells = values.toArray := by
  let held : Memory := { memory with cells := values.toArray }
  have size : (memory.clear.setBlock 0 values).size = held.size := by
    rw [size_setBlock, size_clear, Nat.zero_add, Nat.zero_max]
    rfl
  apply cells_eq size
  intro address
  by_cases inside : address < values.length
  · have written : (memory.clear.setBlock 0 values).get (0 + address) =
        wrap memory.width values[address] :=
      get_setBlock_of_lt (List.getElem?_eq_getElem inside)
    rw [Nat.zero_add, wrap_of_fitsCell positive (fits _ (List.getElem_mem inside))] at written
    rw [written]
    simp [held, get, inside]
  · have behind : held.size ≤ address := Nat.le_of_not_lt inside
    rw [get_of_size_le behind, get_of_size_le (size ▸ behind)]

end Memory

/-! ## Reloads -/

namespace Machine

open Program

variable {machine : Machine} {text : String} {values : List Int}

/-- A machine into which a text of values in range is loaded afresh holds these values and nothing
else. -/
theorem loadText_of_fitsCell (positive : 0 < machine.memory.width)
    (spelled : List.Forall₂ Spells (Text.words text.toList) values)
    (fits : ∀ value ∈ values, FitsCell machine.memory.width value)
    (roomy : machine.memory.clear.blockFault? 0 values.length = none) :
    machine.loadText text true 0 = (.ok values.length,
      { machine with memory := { machine.memory with cells := values.toArray }, pc := 0 }) := by
  rw [loadText_of_spelled (Int.le_refl 0) spelled]
  change machine.reset.install 0 values = _
  have cells := Memory.cells_setBlock_clear positive fits
  rw [install, reset, Memory.storeBlock_of_fits roomy, ← cells]
  rfl

namespace Request

/-- What a machine holds can be written down and loaded again. Whatever was asked of a machine
after it was built, in any order and whether or not it failed, a dump of its whole buffer returns
its cells. If none of them has too many digits they can be listed; and any text that lists them,
with whatever signs, leading zeros, blanks and line ends, gives their number and the same buffer
when it is loaded afresh into any machine of the same width in which there is room, which there
always is in unlimited room.

The other way round, the values of any text that is read, if they are in range, are what a dump
returns of a machine into which the text was loaded afresh. -/
theorem reload_restores_buffer {σ : Type} (config : Config σ) (wide : 2 ≤ config.width)
    (room : Room) (requests : List Request) (env : σ) :
    let machine := (performAll config requests (config.machine.within room) env).1
    machine.memory.dump 0 machine.memory.size = .ok machine.memory.cells.toList ∧
    ((∀ value ∈ machine.memory.cells, (toString value.natAbs).length ≤ 4300) →
      ∃ text : String, Lists text.toList machine.memory.cells.toList) ∧
    (∀ (text : String) (target : Machine), Lists text.toList machine.memory.cells.toList →
      target.memory.width = config.width →
      target.memory.clear.blockFault? 0 machine.memory.size = none →
      target.loadText text true 0 = (.ok machine.memory.size,
        { target with
          memory := { target.memory with cells := machine.memory.cells }, pc := 0 })) ∧
    (∀ target : Machine, target.memory.room = .unlimited →
      ∀ count, target.memory.clear.blockFault? 0 count = none) ∧
    ∀ (text : String) (values : List Int) (target : Machine), Program.read text = .ok values →
      target.memory.width = config.width →
      (∀ value ∈ values, FitsCell config.width value) →
      target.memory.clear.blockFault? 0 values.length = none →
      ∃ after, target.loadText text true 0 = (.ok values.length, after) ∧
        after.memory.dump 0 values.length = .ok values ∧ after.pc = 0 := by
  intro machine
  have positive : 0 < config.width := by omega
  have bounds : machine.InBounds config.width :=
    performAll_inBounds config positive requests (InBounds.ofWidth config.width room) env
  refine ⟨machine.memory.dump_size, ?_, ?_, ?_, ?_⟩
  · intro short
    exact exists_lists fun value member => short value (Array.mem_toList_iff.mp member)
  · intro text target lists width roomy
    have fits : ∀ value ∈ machine.memory.cells.toList, FitsCell target.memory.width value := by
      intro value member
      obtain ⟨lower, upper⟩ := bounds.cells (Array.mem_toList_iff.mp member)
      rw [width]
      exact ⟨lower, Int.lt_of_le_sub_one upper⟩
    have loaded := loadText_of_fitsCell (by omega) lists.spelled fits
    rw [Array.length_toList] at loaded
    exact loaded roomy
  · intro target unlimited count
    exact @Memory.blockFault?_of_unlimited target.memory.clear unlimited 0 count
  · intro text values target read width fits roomy
    refine ⟨_, loadText_of_fitsCell (by omega) (read_eq_ok_iff.mp read) (width ▸ fits) roomy, ?_,
      rfl⟩
    exact Memory.dump_size { target.memory with cells := values.toArray }

/-- A program that reads a code is loaded and makes a step; the buffer it leaves is written down in
a careless way and loaded into another machine. -/
theorem reload_restores_buffer_step :
    let config : Config Tape := { ports := Tape.ports, width := 8, terminator := "" }
    let machine := (performAll config [.load [.integer (-1), .integer 5, .integer 300] 0,
      .stage [-7], .step] (config.machine.within .unlimited) {}).1
    let target : Machine := { memory := { width := 8, cells := #[9] }, pc := 4, staged := [1] }
    2 ≤ config.width ∧ machine.memory.cells = #[-1, 5, 44, 0, 0, -7] ∧
      target.loadText "-1\r\n+5 0044\u3000 0 +0\u2028-007\n" true 0 =
        (.ok 6, { target with
          memory := { target.memory with cells := #[-1, 5, 44, 0, 0, -7] }, pc := 0 }) := by
  intro config machine target
  have cells : machine.memory.cells = #[-1, 5, 44, 0, 0, -7] := by decide +kernel
  have size : machine.memory.size = 6 := congrArg Array.size cells
  have lists : Lists "-1\r\n+5 0044\u3000 0 +0\u2028-007\n".toList
      machine.memory.cells.toList := by
    rw [cells]
    have last : Lists (Style.token ⟨false, 2⟩ (-7) ++ ['\n']) [-7] :=
      .token_blank (by decide) (by decide) .nil
    have zeros : Lists (Style.token ⟨false, 0⟩ 0 ++ ' ' :: (Style.token ⟨true, 0⟩ 0 ++
        '\u2028' :: (Style.token ⟨false, 2⟩ (-7) ++ ['\n']))) [0, 0, -7] :=
      .token_blank (by decide) (by decide) (.token_blank (by decide) (by decide) last)
    have four : Lists (Style.token ⟨true, 0⟩ 5 ++ ' ' :: (Style.token ⟨false, 2⟩ 44 ++
        '\u3000' :: ' ' :: "0 +0\u2028-007\n".toList)) [5, 44, 0, 0, -7] :=
      .token_blank (by decide) (by decide)
        (.token_blank (by decide) (by decide) (.blank (by decide) zeros))
    have all : Lists (Style.token ⟨false, 0⟩ (-1) ++ '\r' :: '\n' ::
        "+5 0044\u3000 0 +0\u2028-007\n".toList) [-1, 5, 44, 0, 0, -7] :=
      .token_blank (by decide) (by decide) (.blank (by decide) four)
    exact all
  obtain ⟨-, -, restores, roomy, -⟩ := reload_restores_buffer config (by decide) .unlimited
    [.load [.integer (-1), .integer 5, .integer 300] 0, .stage [-7], .step] {}
  have reached : machine = (performAll config [.load [.integer (-1), .integer 5, .integer 300] 0,
    .stage [-7], .step] (config.machine.within .unlimited) {}).1 := rfl
  rw [← reached] at restores
  have restored := restores _ target lists rfl (roomy target rfl machine.memory.size)
  rw [cells, size] at restored
  exact ⟨by decide, cells, restored⟩

end Request

end Machine

end Subleq
