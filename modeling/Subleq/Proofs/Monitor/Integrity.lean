import Subleq.Proofs.Machine.Confinement
import Subleq.Proofs.Monitor.Evaluation

/-!
# What input cannot break

Any text can be given to the monitor: codes that no letter has, codes that wrap to negative cells,
codes that look like letters or like the end of input because a comparison overflows. Every
evaluation returns all the same, the buffer stays as long as the image, and all cells but the work
cells of the monitor are those of the image.

That the cells stay is read off the image, whose instructions write to the work cells only and
branch to instructions only. That evaluations return, that the zero cell is zero when they do and
what is on the stack is seen by the session that the machine mirrors.
-/

namespace Subleq.Monitor

open Assembly
open Machine (Contained)

/-! ## The stack -/

namespace Session

/-- Whether the stack holds a digit or the address after the image. -/
def Bounded (here : Nat) (session : Session) : Prop := session.tos ≤ 9 ∨ session.tos = here

variable {words : List String} {here width : Nat} {session : Session}

theorem Bounded.act (bounded : session.Bounded here) (letters : List Int) (blank : Int) :
    (session.act words here letters blank).1.Bounded here := by
  have digit : session.tos % 10 ≤ 9 := by omega
  unfold Session.act
  repeat' split
  all_goals first
    | exact bounded
    | exact Or.inl digit
    | exact Or.inr rfl

theorem Bounded.senseText (bounded : session.Bounded here) (heard : Heard) (closing : Int)
    (emitted : List Int) : (session.senseText heard closing emitted).1.Bounded here := by
  unfold Session.senseText
  split
  · exact bounded
  · split
    · exact bounded
    · exact bounded

theorem Bounded.sense (bounded : session.Bounded here) (heard : Heard) :
    (session.sense words here heard).1.Bounded here := by
  unfold Session.sense
  split
  · exact bounded
  · split
    · split
      · exact bounded
      · exact bounded.act _ heard.letter
      · exact bounded
    · exact bounded.senseText heard _ _
    · exact bounded.senseText heard _ _
    · exact bounded.senseText heard _ _

theorem Bounded.senseAll (bounded : session.Bounded here) (codes : List Int) :
    (session.senseAll words here width codes).1.Bounded here := by
  induction codes generalizing session with
  | nil => exact bounded
  | cons code codes ih =>
      unfold Session.senseAll
      split
      · exact bounded
      · exact ih (bounded.sense _)

end Session

/-! ## The image -/

/-- The names of the cells that change: the work cells of the monitor, the operand of the
instruction that emits the word list, and two of the scratch cells. -/
def variableNames : List String :=
  ["ch", "tos", "started", "dig", "dch", "p1", "p2", "p3", "p4", "pm1", "ptr", "wout", "__T", "__U"]

/-- A memory in which the image of the monitor is intact: its length is that of the image, every
cell but those that change has its value, the zero cell is zero, and the stack holds a digit or the
address after the image. -/
structure Intact (memory : Memory) : Prop where
  size : memory.size = image.length
  fixed : ∀ (position : Nat) (value : Int), image[position]? = some value →
    (∀ name ∈ variableNames, layout.position? name ≠ some position) →
    memory.get position = value
  zero : ∃ position, layout.position? "__Z" = some position ∧ memory.get position = 0
  stack : ∃ position, layout.position? "tos" = some position ∧
    (0 ≤ memory.get position ∧ memory.get position ≤ 9 ∨ memory.get position = image.length)

/-- The number of instructions of the monitor. -/
def instructionCount : Nat := 711

/-- The position of the zero cell. -/
def zeroPlace : Nat := 2175

/-- The positions of the cells that change. -/
def variablePlaces : List Nat :=
  [Slot.ch, .tos, .started, .dig, .dch, .p1, .p2, .p3, .p4, .pm1, .ptr].map Slot.place ++
    [emitterPlace, zeroPlace + 1, zeroPlace + 2]

theorem positions_checked :
    (programWith wordNames).size = zeroPlace ∧
      variableNames.map layout.position? = variablePlaces.map some ∧
      layout.position? "__Z" = some zeroPlace ∧ layout.position? "tos" = some Slot.tos.place := by
  decide +kernel

theorem image_checked :
    (∀ encoded ∈ Encoded.all (image.take (3 * instructionCount)),
      encoded.keeps instructionCount (zeroPlace :: variablePlaces) = true) ∧
    (image[3 * 710]? = some (zeroPlace : Int) ∧ image[3 * 710 + 1]? = some (zeroPlace : Int)) ∧
    ∀ value ∈ image, -32768 ≤ value ∧ value < 32768 := by
  decide +kernel

/-- The instructions of the monitor write to the cells that change and to the zero cell only. -/
theorem confined_image : Confined image instructionCount (zeroPlace :: variablePlaces) where
  length := by
    rw [length_image]
    decide
  keeps := image_checked.1
  inside := by
    rw [length_image]
    decide
  operands := by decide
  closed := by
    intro index same
    obtain rfl : index = 710 := by
      unfold instructionCount at same
      omega
    exact ⟨by decide, zeroPlace, image_checked.2.1⟩

theorem wrap_image {width : Nat} (wide : 16 ≤ width) :
    ∀ value ∈ image, wrap width value = value := by
  intro value member
  obtain ⟨lower, upper⟩ := image_checked.2.2 value member
  exact wrap_of_wide wide lower upper

/-! ## Evaluations -/

section Evaluations

variable {σ : Type} {width : Nat} {ports : Ports σ} {small : (image.length : Int) ≤ cellBound width}
  {session : Session} {machine : Machine}

theorem Mirrors.zero_eq
    (mirrors : Mirrors wordNames image.length width image assembled_image small session machine) :
    machine.memory.get zeroPlace = 0 := by
  obtain ⟨store, -, represents⟩ := mirrors.stands
  have place : (built wordNames width image assembled_image small).layout.size = zeroPlace :=
    positions_checked.1
  have zero := represents.isZero
  rw [Expansion.zero, Layout.address_scratch, place, Scratch.place, Nat.add_zero] at zero
  exact zero

/-- A machine that is within the image and mirrors a session has an intact memory. -/
theorem Mirrors.intact
    (mirrors : Mirrors wordNames image.length width image assembled_image small session machine)
    (wide : 16 ≤ width)
    (contained : Contained image instructionCount (zeroPlace :: variablePlaces) machine)
    (bounded : session.Bounded image.length) : Intact machine.memory where
  size := contained.size
  fixed := by
    intro position value found unnamed
    by_cases zero : position = zeroPlace
    · have held := Listing.getElem?_image_scratch assembled_image .zero
      rw [positions_checked.1] at held
      rw [zero] at found ⊢
      rw [mirrors.zero_eq]
      exact Option.some.inj (held.symm.trans found)
    · refine contained.kept position value found ?_
      rw [List.mem_cons, not_or]
      refine ⟨zero, fun member => ?_⟩
      have named : some position ∈ variableNames.map layout.position? := by
        rw [positions_checked.2.1]
        exact List.mem_map_of_mem member
      obtain ⟨name, listed, placed⟩ := List.mem_map.mp named
      exact unnamed name listed placed
  zero := ⟨zeroPlace, positions_checked.2.2.1, mirrors.zero_eq⟩
  stack := by
    have length := length_image
    refine ⟨Slot.tos.place, positions_checked.2.2.2, ?_⟩
    rw [mirrors.tos_eq]
    rcases bounded with digit | here
    · rw [wrap_of_wide wide (by omega) (by omega)]
      omega
    · rw [wrap_of_wide wide (by omega) (by omega)]
      omega

/-- Evaluations of any codes return one after the other, and after each of them the image is
intact. -/
theorem Mirrors.evalAllCodes_intact
    (mirrors : Mirrors wordNames image.length width image assembled_image small session machine)
    (wide : 16 ≤ width) (accepts : Accepts ports)
    (contained : Contained image instructionCount (zeroPlace :: variablePlaces) machine)
    (bounded : session.Bounded image.length) (terminator : List Int) (inputs : List (List Int))
    (env : σ) :
    ∃ bound, ∀ fuel, bound ≤ fuel → ∀ count,
      let progress := machine.evalAllCodes ports fuel terminator (inputs.take count) env
      progress.ending = .stopped ∧ Intact progress.machine.memory := by
  induction inputs generalizing session machine env with
  | nil =>
      refine ⟨0, fun fuel _ count => ?_⟩
      rw [List.take_nil]
      exact ⟨rfl, mirrors.intact wide contained bounded⟩
  | cons codes inputs ih =>
      have setting := setting_image wide accepts
      obtain ⟨first, evaluates⟩ := mirrors.evalCodes setting terminator codes env
      obtain ⟨stopped, -, next⟩ := evaluates first (le_refl first)
      have within := contained.evalCodes confined_image ports first terminator codes env
      obtain ⟨rest, others⟩ := ih next within (bounded.senseAll _)
        (machine.evalCodes ports first terminator codes env).env
      refine ⟨max first rest, fun fuel enough count => ?_⟩
      cases count with
      | zero => exact ⟨rfl, mirrors.intact wide contained bounded⟩
      | succ count =>
          have same := Machine.evalCodes_of_le ports terminator codes
            ((le_max_left first rest).trans enough) machine env
            (by rw [stopped]; exact Machine.Ending.noConfusion)
          have later := others fuel ((le_max_right first rest).trans enough) count
          rw [List.take_succ_cons, Machine.evalAllCodes, same, stopped]
          exact later

/-- No input can crash the monitor or corrupt its image. A machine with cells of at least 16 bits
that is loaded with the monitor and given any lists of codes one after the other, with any
terminator and a sink that accepts every code: every evaluation returns without a fault, and after
each of them the memory is as long as the image, every cell but the work cells and scratch cells
that change and the operand of the emitter is as in the image, the zero cell is zero, and the stack
holds a digit or the address after the image. The codes are any integers, so they may be those of
any text, half of a surrogate pair included. -/
theorem evalAll_load_intact {σ : Type} {width : Nat} (wide : 16 ≤ width) {ports : Ports σ}
    (accepts : Accepts ports) (terminator : List Int) (inputs : List (List Int)) (env : σ) :
    ∃ bound, ∀ fuel, bound ≤ fuel → ∀ count,
      let machine := ((Machine.ofWidth width).load image 0).2
      let progress := machine.evalAllCodes ports fuel terminator (inputs.take count) env
      progress.ending = .stopped ∧ Intact progress.machine.memory := by
  have bound := cellBound_of_wide wide
  have length := length_image
  have small : (image.length : Int) ≤ cellBound width := by omega
  have mirrors := @mirrors_load wordNames width image assembled_image small wide
  exact mirrors.evalAllCodes_intact wide accepts (Contained.load (by decide) (wrap_image wide))
    (Or.inl (Nat.zero_le 9)) terminator inputs env

end Evaluations

/-- Codes that are negative as cells of 16 bits, half of a surrogate pair among them, and such as
look like a letter or like the end of input without being one. -/
theorem evalAll_load_intact_overflowing :
    16 ≤ 16 ∧ Accepts recorder ∧
      ∃ bound, ∀ fuel, bound ≤ fuel → ∀ count,
        let machine := ((Machine.ofWidth 16).load image 0).2
        let inputs := [codesOf "here\u8020u.\uffff" ++ [0xd800], codesOf "w\u806frds \u7fff",
          [0xdfff, 32] ++ codesOf ".( \u8029😀) u. "]
        let progress := machine.evalAllCodes recorder fuel [10] (inputs.take count) []
        progress.ending = .stopped ∧ Intact progress.machine.memory :=
  ⟨le_refl 16, fun _ _ => rfl, evalAll_load_intact (le_refl 16) (fun _ _ => rfl) [10] _ []⟩

end Subleq.Monitor
