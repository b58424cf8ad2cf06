import Mathlib.Logic.Function.Basic
import Subleq.Proofs.Assembly.Layout
import Subleq.Proofs.Machine.Paths

/-!
# What expansions do

A machine that stands at the cells of an expansion, with zero in the zero cell, executes it to its
end and changes nothing but the destination and the cells for differences. Instructions without a
target are a straight line: whatever their results are, control passes from each to the next, and
`effect` is what they do to the cells.
-/

namespace Subleq.Assembly

open Abstract (Lively Reaches)

namespace Layout

/-- Whether terms stand, resolved, in the cells from an address on. -/
def Stands (layout : Layout) (cell : Nat → Int) (start : Nat) : List Term → Prop
  | [] => True
  | term :: terms =>
      layout.resolve 0 term = .ok (cell start) ∧ layout.Stands cell (start + 1) terms

/-- The address that a term denotes. -/
def address (layout : Layout) (term : Term) : Nat :=
  match layout.resolve 0 term with
  | .ok value => value.toNat
  | .error _ => 0

/-- Whether a term denotes an address. -/
def Denotes (layout : Layout) (term : Term) : Prop :=
  layout.resolve 0 term = .ok (layout.address term : Int)

variable {layout : Layout} {cell : Nat → Int} {start : Nat}

theorem address_eq {term : Term} {place : Nat}
    (resolved : layout.resolve 0 term = .ok (place : Int)) : layout.address term = place := by
  simp [address, resolved]

theorem denotes_of_resolve {term : Term} {place : Nat}
    (resolved : layout.resolve 0 term = .ok (place : Int)) : layout.Denotes term := by
  rw [Denotes, address_eq resolved, resolved]

theorem resolve_scratch (layout : Layout) (scratch : Scratch) :
    layout.resolve 0 (.scratch scratch) = .ok ((layout.size + scratch.place : Nat) : Int) := by
  simp [resolve]

theorem resolve_position (layout : Layout) (position : Nat) :
    layout.resolve 0 (.position position) = .ok (position : Int) := by
  simp [resolve]

theorem address_scratch (layout : Layout) (scratch : Scratch) :
    layout.address (.scratch scratch) = layout.size + scratch.place :=
  address_eq (layout.resolve_scratch scratch)

theorem address_zero_ne (layout : Layout) (scratch : Scratch) (other : scratch ≠ .zero) :
    layout.address (.scratch .zero) ≠ layout.address (.scratch scratch) := by
  rw [address_scratch, address_scratch]
  cases scratch with
  | zero => exact absurd rfl other
  | difference => simp [Scratch.place]
  | opposite => simp [Scratch.place]

theorem denotes_scratch (layout : Layout) (scratch : Scratch) :
    layout.Denotes (.scratch scratch) :=
  denotes_of_resolve (layout.resolve_scratch scratch)

theorem stands_append {first second : List Term} :
    layout.Stands cell start (first ++ second) ↔
      layout.Stands cell start first ∧ layout.Stands cell (start + first.length) second := by
  induction first generalizing start with
  | nil => simp [Stands]
  | cons term terms ih =>
      simp only [List.cons_append, Stands, ih, List.length_cons, and_assoc]
      rw [show start + 1 + terms.length = start + (terms.length + 1) by omega]

/-- Terms stand in cells as long as these do not change. -/
theorem Stands.congr {terms : List Term} {other : Nat → Int}
    (stands : layout.Stands cell start terms)
    (agree : ∀ position, start ≤ position → position < start + terms.length →
      other position = cell position) :
    layout.Stands other start terms := by
  induction terms generalizing start with
  | nil => trivial
  | cons term terms ih =>
      obtain ⟨head, tail⟩ := stands
      constructor
      · rw [agree start (by omega) (by simp)]
        exact head
      · apply ih tail
        intro position lower upper
        exact agree position (by omega) (by simp only [List.length_cons]; omega)

end Layout

theorem layOut_append (start : Nat) (first second : List Instruction) :
    layOut start (first ++ second) =
      layOut start first ++ layOut (start + 3 * first.length) second := by
  induction first generalizing start with
  | nil => simp [layOut]
  | cons instruction rest ih =>
      simp only [List.cons_append, layOut, ih, List.length_cons]
      rw [show start + 3 + 3 * rest.length = start + 3 * (rest.length + 1) by omega]

/-! ## Straight lines -/

/-- What instructions do to the cells, one after the other. -/
def effect (layout : Layout) (width : Nat) (instructions : List Instruction) (cell : Nat → Int) :
    Nat → Int :=
  instructions.foldl
    (fun cell instruction =>
      Function.update cell (layout.address instruction.b)
        (wrap width (cell (layout.address instruction.b) - cell (layout.address instruction.a))))
    cell

/-- Whether an address is not among those of a block of cells. -/
def Apart (start length place : Nat) : Prop := place < start ∨ start + length ≤ place

/-- Whether instructions have no targets and denote addresses, none of which they write lies in a
block of cells. -/
structure Straight (layout : Layout) (start length : Nat) (instruction : Instruction) : Prop where
  plain : instruction.target = none
  source : layout.Denotes instruction.a
  destination : layout.Denotes instruction.b
  apart : Apart start length (layout.address instruction.b)

section Straight

variable {σ : Type} {layout : Layout} {ports : Ports σ} {stop : Abstract → Bool}
  {start length : Nat}

theorem step_straight {machine : Abstract} {instruction : Instruction} {place : Nat} (env : σ)
    (pc : machine.pc = place)
    (straight : Straight layout start length instruction)
    (stands : layout.Stands machine.cell place (layOut place [instruction])) :
    machine.step ports env =
      { machine := machine.moved (effect layout machine.width [instruction] machine.cell)
          (place + 3 : Nat),
        env } := by
  obtain ⟨cellA, cellB, cellC, -⟩ := stands
  rw [straight.source, Except.ok.injEq] at cellA
  rw [straight.destination, Except.ok.injEq] at cellB
  rw [straight.plain] at cellC
  simp only [Option.getD_none, Layout.resolve, Except.ok.injEq, Int.zero_add] at cellC
  rw [Abstract.step_subtract ports env pc cellA.symm cellB.symm cellC.symm (by omega), ite_self]
  rfl

/-- Instructions without targets are executed one after the other. -/
theorem reaches_straight (lively : Lively stop) (instructions : List Instruction)
    (machine : Abstract) (place : Nat) (env : σ) (pc : machine.pc = place)
    (straight : ∀ instruction ∈ instructions, Straight layout start length instruction)
    (lower : start ≤ place) (upper : place + 3 * instructions.length ≤ start + length)
    (stands : layout.Stands machine.cell place (layOut place instructions)) :
    Reaches ports stop instructions.length machine env
      (machine.moved (effect layout machine.width instructions machine.cell)
        (place + 3 * instructions.length : Nat))
      env := by
  induction instructions generalizing machine place with
  | nil =>
      rw [effect, List.foldl_nil, List.length_nil, Nat.mul_zero, Nat.add_zero,
        Abstract.moved_self pc]
      exact .refl machine env
  | cons instruction rest ih =>
      have here := straight instruction List.mem_cons_self
      have split := layOut_append place [instruction] rest
      rw [List.singleton_append] at split
      rw [split, Layout.stands_append] at stands
      obtain ⟨first, others⟩ := stands
      simp only [length_layOut, List.length_singleton, Nat.mul_one] at others
      have active : stop machine = false := by
        apply lively
        · omega
        · have cellA := first.1
          rw [here.source, Except.ok.injEq] at cellA
          rw [pc, Int.toNat_natCast, ← cellA]
          omega
      refine .head active (step_straight env pc here first) ?_
      -- The rest of the line is not what this instruction writes.
      have kept : layout.Stands (effect layout machine.width [instruction] machine.cell)
          (place + 3) (layOut (place + 3) rest) := by
        apply others.congr
        intro position above below
        apply Function.update_of_ne
        rintro rfl
        simp only [length_layOut, List.length_cons] at below upper
        rcases here.apart with before | behind
        · omega
        · omega
      have reached := ih (machine.moved (effect layout machine.width [instruction] machine.cell)
          (place + 3 : Nat)) (place + 3) rfl
        (fun other member => straight other (List.mem_cons_of_mem instruction member))
        (by omega) (by simp only [List.length_cons] at upper; omega) kept
      simpa [effect, Nat.mul_add, Nat.add_assoc, Nat.add_comm 3] using reached

end Straight

/-- Instructions leave the cells alone that they do not write. -/
theorem effect_of_apart {layout : Layout} {width start length position : Nat}
    {instructions : List Instruction}
    (straight : ∀ instruction ∈ instructions, Straight layout start length instruction)
    (lower : start ≤ position) (upper : position < start + length) (cell : Nat → Int) :
    effect layout width instructions cell position = cell position := by
  induction instructions generalizing cell with
  | nil => rfl
  | cons instruction rest ih =>
      refine (ih (fun other member => straight other (List.mem_cons_of_mem _ member)) _).trans ?_
      apply Function.update_of_ne
      rintro rfl
      rcases (straight instruction List.mem_cons_self).apart with before | behind
      · omega
      · omega

theorem fitsCell_update {width : Nat} {cell : Nat → Int} {value : Int}
    (fits : ∀ position, FitsCell width (cell position)) (place : Nat)
    (valueFits : FitsCell width value) (position : Nat) :
    FitsCell width (Function.update cell place value position) := by
  rw [Function.update_apply]
  split
  · exact valueFits
  · exact fits position

/-- Instructions leave every cell with a value in range. -/
theorem fitsCell_effect {layout : Layout} {width : Nat} (positive : 0 < width)
    (instructions : List Instruction) {cell : Nat → Int}
    (fits : ∀ position, FitsCell width (cell position)) (position : Nat) :
    FitsCell width (effect layout width instructions cell position) := by
  induction instructions generalizing cell with
  | nil => exact fits position
  | cons instruction rest ih =>
      apply ih
      exact fitsCell_update fits _ (fitsCell_wrap positive _)

/-! ## Effects -/

section Effect

open Expansion

variable {layout : Layout} {width : Nat} {cell : Nat → Int}

theorem effect_append (first second : List Instruction) :
    effect layout width (first ++ second) cell =
      effect layout width second (effect layout width first cell) :=
  List.foldl_append

theorem effect_cons (instruction : Instruction) (rest : List Instruction) :
    effect layout width (instruction :: rest) cell =
      effect layout width rest (effect layout width [instruction] cell) := rfl

theorem effect_clear (term : Term) :
    effect layout width [clear term] cell = Function.update cell (layout.address term) 0 := by
  simp [effect, clear]

theorem effect_add {destination source : Term} (isZero : cell (layout.address zero) = 0)
    (destinationOther : layout.address destination ≠ layout.address zero) :
    effect layout width (add destination source) cell =
      Function.update cell (layout.address destination)
        (wrap width (cell (layout.address destination) + cell (layout.address source))) := by
  funext position
  simp only [effect, add, clear, List.foldl_cons, List.foldl_nil]
  by_cases atZero : position = layout.address zero
  · subst atZero
    simp [Function.update_of_ne destinationOther.symm, isZero]
  · by_cases atDestination : position = layout.address destination
    · subst atDestination
      simp [Function.update_of_ne atZero, isZero]
    · simp [Function.update_of_ne atZero, Function.update_of_ne atDestination]

theorem effect_move {destination source : Term} (positive : 0 < width)
    (isZero : cell (layout.address zero) = 0)
    (destinationOther : layout.address destination ≠ layout.address zero)
    (distinct : layout.address destination ≠ layout.address source)
    (fits : FitsCell width (cell (layout.address source))) :
    effect layout width (clear destination :: add destination source) cell =
      Function.update cell (layout.address destination) (cell (layout.address source)) := by
  rw [effect_cons, effect_clear, effect_add _ destinationOther]
  · simp [Function.update_of_ne distinct.symm, wrap_of_fitsCell positive fits]
  · rw [Function.update_of_ne destinationOther.symm, isZero]

theorem effect_move_self {term : Term} (isZero : cell (layout.address zero) = 0)
    (other : layout.address term ≠ layout.address zero) :
    effect layout width (clear term :: add term term) cell =
      Function.update cell (layout.address term) 0 := by
  rw [effect_cons, effect_clear, effect_add _ other]
  · simp [wrap_zero]
  · rw [Function.update_of_ne other.symm, isZero]

theorem effect_subtract {left right : Term} (isZero : cell (layout.address zero) = 0)
    (leftDistinct : layout.address left ≠ layout.address difference)
    (rightDistinct : layout.address right ≠ layout.address difference) :
    effect layout width (subtract left right) cell =
      Function.update cell (layout.address difference)
        (wrap width (cell (layout.address left) - cell (layout.address right))) := by
  have differenceOther : layout.address difference ≠ layout.address zero :=
    (layout.address_zero_ne .difference (by decide)).symm
  rw [subtract, effect_append, effect_cons (clear difference), effect_clear,
    effect_add _ differenceOther]
  · simp [effect, Function.update_of_ne leftDistinct, Function.update_of_ne rightDistinct]
  · rw [Function.update_of_ne differenceOther.symm, isZero]

end Effect

theorem straight_add {layout : Layout} {start length : Nat} {destination source : Term}
    (writes : layout.Denotes destination) (reads : layout.Denotes source)
    (apart : Apart start length (layout.address destination))
    (zeroApart : Apart start length (layout.address Expansion.zero)) :
    ∀ instruction ∈ Expansion.add destination source, Straight layout start length instruction := by
  have zeroDenotes := layout.denotes_scratch .zero
  intro instruction member
  simp only [Expansion.add, List.mem_cons, List.not_mem_nil, or_false] at member
  rcases member with rfl | rfl | rfl
  · exact ⟨rfl, reads, zeroDenotes, zeroApart⟩
  · exact ⟨rfl, zeroDenotes, writes, apart⟩
  · exact ⟨rfl, zeroDenotes, zeroDenotes, zeroApart⟩

theorem straight_move {layout : Layout} {start length : Nat} {destination source : Term}
    (writes : layout.Denotes destination) (reads : layout.Denotes source)
    (apart : Apart start length (layout.address destination))
    (zeroApart : Apart start length (layout.address Expansion.zero)) :
    ∀ instruction ∈ Expansion.clear destination :: Expansion.add destination source,
      Straight layout start length instruction := by
  intro instruction member
  rcases List.mem_cons.mp member with rfl | member
  · exact ⟨rfl, writes, writes, apart⟩
  · exact straight_add writes reads apart zeroApart instruction member

/-! ## Machines at expansions -/

/-- A machine stands at instructions, which lie before the scratch cells; the zero cell is zero and
every cell has a value in range. -/
structure Poised (layout : Layout) (machine : Abstract) (start : Nat)
    (instructions : List Instruction) : Prop where
  pc : machine.pc = start
  stands : layout.Stands machine.cell start (layOut start instructions)
  below : start + 3 * instructions.length ≤ layout.size
  isZero : machine.cell (layout.address Expansion.zero) = 0
  positive : 0 < machine.width
  fits : ∀ position, FitsCell machine.width (machine.cell position)

namespace Poised

open Expansion

variable {σ : Type} {layout : Layout} (ports : Ports σ) {stop : Abstract → Bool} {start : Nat}
  {machine : Abstract} {first second : List Instruction} (env : σ)

theorem apart_scratch {instructions : List Instruction}
    (poised : Poised layout machine start instructions) (scratch : Scratch) :
    Apart start (3 * instructions.length) (layout.address (.scratch scratch)) := by
  have below := poised.below
  rw [Layout.address_scratch]
  exact Or.inr (by omega)

/-- A machine may go on in the middle of instructions, if the cells of the rest are as before. -/
theorem moved (poised : Poised layout machine start (first ++ second)) {cell : Nat → Int}
    (kept : ∀ position, start ≤ position → position < start + 3 * (first ++ second).length →
      cell position = machine.cell position)
    (isZero : cell (layout.address zero) = 0)
    (fits : ∀ position, FitsCell machine.width (cell position)) :
    Poised layout (machine.moved cell (start + 3 * first.length : Nat))
      (start + 3 * first.length) second := by
  have stands := poised.stands
  have below := poised.below
  rw [layOut_append, Layout.stands_append, length_layOut] at stands
  rw [List.length_append] at below kept
  refine ⟨rfl, stands.2.congr ?_, by omega, isZero, poised.positive, fits⟩
  intro position lower upper
  rw [length_layOut] at upper
  exact kept position (by omega) (by omega)

/-- A straight line is executed up to what stands behind it. -/
theorem reaches_line (poised : Poised layout machine start (first ++ second)) (lively : Lively stop)
    (straight : ∀ instruction ∈ first,
      Straight layout start (3 * (first ++ second).length) instruction)
    {cell : Nat → Int} (does : effect layout machine.width first machine.cell = cell)
    (isZero : cell (layout.address zero) = 0) :
    Reaches ports stop first.length machine env
        (machine.moved cell (start + 3 * first.length : Nat)) env ∧
      Poised layout (machine.moved cell (start + 3 * first.length : Nat))
        (start + 3 * first.length) second := by
  subst does
  constructor
  · have stands := poised.stands
    rw [layOut_append, Layout.stands_append] at stands
    exact reaches_straight lively first machine start env poised.pc straight (le_refl start)
      (by rw [List.length_append]; omega) stands.1
  · apply poised.moved
    · intro position lower upper
      exact effect_of_apart straight lower upper machine.cell
    · exact isZero
    · exact fitsCell_effect poised.positive first poised.fits

theorem reaches_end {instructions : List Instruction}
    (poised : Poised layout machine start instructions) (lively : Lively stop)
    (straight : ∀ instruction ∈ instructions,
      Straight layout start (3 * instructions.length) instruction)
    {cell : Nat → Int} (does : effect layout machine.width instructions machine.cell = cell) :
    Reaches ports stop instructions.length machine env
      (machine.moved cell (start + 3 * instructions.length : Nat)) env := by
  subst does
  exact reaches_straight lively instructions machine start env poised.pc straight (le_refl start)
    (le_refl _) poised.stands

theorem reaches_jump {target : Term} {next : Int}
    (poised : Poised layout machine start (jump target :: second)) (lively : Lively stop)
    (resolved : layout.resolve 0 target = .ok next) (valid : -1 ≤ next) :
    Reaches ports stop 1 machine env (machine.moved machine.cell next) env := by
  obtain ⟨cellA, cellB, cellC, -⟩ := poised.stands
  have isZero := poised.isZero
  rw [Layout.address_scratch] at isZero
  simp only [jump, Layout.resolve_scratch, Except.ok.injEq, Option.getD_some, resolved]
    at cellA cellB cellC
  apply Reaches.single
  · apply lively
    · rw [poised.pc]
      omega
    · rw [poised.pc, Int.toNat_natCast, ← cellA]
      omega
  · rw [Abstract.step_subtract ports env poised.pc cellA.symm cellB.symm cellC.symm valid]
    simp [isZero, Function.update_eq_self_iff.mpr]

/-- A conditional jump goes to its target if the cell is not positive. -/
theorem reaches_jumpUnlessPositive {cell target : Term} {next : Int}
    (poised : Poised layout machine start (jumpUnlessPositive cell target :: second))
    (lively : Lively stop) (denotes : layout.Denotes cell)
    (resolved : layout.resolve 0 target = .ok next) (valid : -1 ≤ next) :
    Reaches ports stop 1 machine env
      (machine.moved machine.cell
        (if machine.cell (layout.address cell) ≤ 0 then next else (start + 3 : Nat))) env := by
  obtain ⟨cellA, cellB, cellC, -⟩ := poised.stands
  have isZero := poised.isZero
  rw [Layout.address_scratch] at isZero
  rw [Layout.Denotes] at denotes
  simp only [jumpUnlessPositive, Layout.resolve_scratch, Except.ok.injEq, Option.getD_some,
    resolved, denotes] at cellA cellB cellC
  apply Reaches.single
  · apply lively
    · rw [poised.pc]
      omega
    · rw [poised.pc, Int.toNat_natCast, ← cellA]
      omega
  · rw [Abstract.step_subtract ports env poised.pc cellA.symm cellB.symm cellC.symm valid]
    simp [isZero, wrap_of_fitsCell poised.positive (poised.fits _)]

theorem reaches_difference {destination source : Term}
    (poised : Poised layout machine start [{ a := source, b := destination }])
    (lively : Lively stop) (writes : layout.Denotes destination) (reads : layout.Denotes source)
    (apart : Apart start 3 (layout.address destination)) :
    Reaches ports stop 1 machine env
      (machine.moved (Function.update machine.cell (layout.address destination)
        (wrap machine.width (machine.cell (layout.address destination) -
          machine.cell (layout.address source)))) (start + 3 : Nat)) env := by
  refine poised.reaches_end ports env lively ?_ rfl
  intro instruction member
  rw [List.mem_singleton] at member
  subst member
  exact ⟨rfl, reads, writes, apart⟩

theorem reaches_add {destination source : Term}
    (poised : Poised layout machine start (add destination source)) (lively : Lively stop)
    (writes : layout.Denotes destination) (reads : layout.Denotes source)
    (apart : Apart start 9 (layout.address destination))
    (other : layout.address destination ≠ layout.address zero) :
    Reaches ports stop 3 machine env
      (machine.moved (Function.update machine.cell (layout.address destination)
        (wrap machine.width (machine.cell (layout.address destination) +
          machine.cell (layout.address source)))) (start + 9 : Nat)) env :=
  poised.reaches_end ports env lively (straight_add writes reads apart (poised.apart_scratch .zero))
    (effect_add poised.isZero other)

theorem reaches_move {destination source : Term}
    (poised : Poised layout machine start (clear destination :: add destination source))
    (lively : Lively stop) (writes : layout.Denotes destination) (reads : layout.Denotes source)
    (apart : Apart start 12 (layout.address destination))
    (other : layout.address destination ≠ layout.address zero)
    (distinct : layout.address destination ≠ layout.address source) :
    Reaches ports stop 4 machine env
      (machine.moved (Function.update machine.cell (layout.address destination)
        (machine.cell (layout.address source))) (start + 12 : Nat)) env :=
  poised.reaches_end ports env lively
    (straight_move writes reads apart (poised.apart_scratch .zero))
    (effect_move poised.positive poised.isZero other distinct (poised.fits _))

theorem reaches_move_self {cell : Term}
    (poised : Poised layout machine start (clear cell :: add cell cell)) (lively : Lively stop)
    (denotes : layout.Denotes cell) (apart : Apart start 12 (layout.address cell))
    (other : layout.address cell ≠ layout.address zero) :
    Reaches ports stop 4 machine env
      (machine.moved (Function.update machine.cell (layout.address cell) 0) (start + 12 : Nat))
      env :=
  poised.reaches_end ports env lively
    (straight_move denotes denotes apart (poised.apart_scratch .zero))
    (effect_move_self poised.isZero other)

/-- A subtraction into the cell for a difference, with instructions behind it. -/
theorem reaches_subtract {left right : Term}
    (poised : Poised layout machine start (subtract left right ++ second)) (lively : Lively stop)
    (leftReads : layout.Denotes left) (rightReads : layout.Denotes right)
    (leftDistinct : layout.address left ≠ layout.address difference)
    (rightDistinct : layout.address right ≠ layout.address difference) {cell : Nat → Int}
    (does : cell = Function.update machine.cell (layout.address difference)
      (wrap machine.width (machine.cell (layout.address left) -
        machine.cell (layout.address right)))) :
    Reaches ports stop 5 machine env (machine.moved cell (start + 15 : Nat)) env ∧
      Poised layout (machine.moved cell (start + 15 : Nat)) (start + 15) second := by
  subst does
  apply poised.reaches_line ports env lively
  · intro instruction member
    have zeroApart := poised.apart_scratch .zero
    have differenceApart := poised.apart_scratch .difference
    rw [subtract, List.mem_append, List.mem_cons, List.mem_singleton] at member
    rcases member with (rfl | added) | rfl
    · exact ⟨rfl, layout.denotes_scratch _, layout.denotes_scratch _, differenceApart⟩
    · exact straight_add (layout.denotes_scratch _) leftReads differenceApart zeroApart instruction
        added
    · exact ⟨rfl, rightReads, layout.denotes_scratch _, differenceApart⟩
  · exact effect_subtract poised.isZero leftDistinct rightDistinct
  · rw [Function.update_of_ne (layout.address_zero_ne .difference (by decide)), poised.isZero]

/-- A comparison jumps if the difference is not positive. -/
theorem reaches_jumpUnlessGreater {left right target : Term} {next : Int}
    (poised : Poised layout machine start
      (subtract left right ++ [jumpUnlessPositive difference target]))
    (lively : Lively stop) (leftReads : layout.Denotes left) (rightReads : layout.Denotes right)
    (leftDistinct : layout.address left ≠ layout.address difference)
    (rightDistinct : layout.address right ≠ layout.address difference)
    (resolved : layout.resolve 0 target = .ok next) (valid : -1 ≤ next) :
    Reaches ports stop 6 machine env
      (machine.moved
        (Function.update machine.cell (layout.address difference)
          (wrap machine.width (machine.cell (layout.address left) -
            machine.cell (layout.address right))))
        (if wrap machine.width (machine.cell (layout.address left) -
            machine.cell (layout.address right)) ≤ 0 then next else (start + 18 : Nat))) env := by
  obtain ⟨subtracted, branching⟩ := poised.reaches_subtract ports env lively leftReads rightReads
    leftDistinct rightDistinct rfl
  have jumped := branching.reaches_jumpUnlessPositive ports env lively (layout.denotes_scratch _)
    resolved valid
  rw [Abstract.cell_moved, Function.update_self] at jumped
  exact subtracted.trans jumped

/-- The second half of an equality jump: it jumps if the opposite of the difference is not
positive. -/
theorem reaches_opposite {target : Term} {next : Int}
    (poised : Poised layout machine start
      ([clear opposite, { a := difference, b := opposite }] ++
        [jumpUnlessPositive opposite target]))
    (lively : Lively stop) (resolved : layout.resolve 0 target = .ok next) (valid : -1 ≤ next)
    {result : Int} (holds : machine.cell (layout.address difference) = result) :
    Reaches ports stop 3 machine env
      (machine.moved
        (Function.update machine.cell (layout.address opposite) (wrap machine.width (-result)))
        (if wrap machine.width (-result) ≤ 0 then next else (start + 9 : Nat))) env := by
  have distinct : layout.address difference ≠ layout.address opposite := by
    simp [Layout.address_scratch, Scratch.place]
  have straight : ∀ instruction ∈ [clear opposite, { a := difference, b := opposite }],
      Straight layout start 9 instruction := by
    intro instruction member
    have apart := poised.apart_scratch .opposite
    simp only [List.mem_cons, List.not_mem_nil, or_false] at member
    rcases member with rfl | rfl
    · exact ⟨rfl, layout.denotes_scratch _, layout.denotes_scratch _, apart⟩
    · exact ⟨rfl, layout.denotes_scratch _, layout.denotes_scratch _, apart⟩
  have does : effect layout machine.width [clear opposite, { a := difference, b := opposite }]
      machine.cell =
        Function.update machine.cell (layout.address opposite) (wrap machine.width (-result)) := by
    rw [effect_cons, effect_clear]
    simp [effect, Function.update_of_ne distinct, holds]
  have isZero : Function.update machine.cell (layout.address opposite)
      (wrap machine.width (-result)) (layout.address zero) = 0 := by
    rw [Function.update_of_ne (layout.address_zero_ne .opposite (by decide)), poised.isZero]
  obtain ⟨negated, branching⟩ := poised.reaches_line ports env lively straight does isZero
  have jumped := branching.reaches_jumpUnlessPositive ports env lively (layout.denotes_scratch _)
    resolved valid
  rw [Abstract.cell_moved, Function.update_self] at jumped
  exact negated.trans jumped

/-- An equality jump jumps if neither difference is positive. It writes the cells for differences
only. -/
theorem reaches_jumpIfEqual {left right target : Term} {next : Int}
    (poised : Poised layout machine start (jumpIfEqual start left right target))
    (lively : Lively stop) (leftReads : layout.Denotes left) (rightReads : layout.Denotes right)
    (leftDistinct : layout.address left ≠ layout.address difference)
    (rightDistinct : layout.address right ≠ layout.address difference)
    (resolved : layout.resolve 0 target = .ok next) (valid : -1 ≤ next) :
    ∃ count cell, 0 < count ∧
      Reaches ports stop count machine env
        (machine.moved cell
          (if LooksEqual machine.width (machine.cell (layout.address left))
            (machine.cell (layout.address right)) then next else (start + 30 : Nat))) env ∧
      (∀ position, position ≠ layout.address difference → position ≠ layout.address opposite →
        cell position = machine.cell position) ∧
      ∀ position, FitsCell machine.width (cell position) := by
  have positive := poised.positive
  have equalIff := looksEqual_iff positive (machine.cell (layout.address left))
    (machine.cell (layout.address right))
  have resultFits := fitsCell_wrap positive (machine.cell (layout.address left) -
    machine.cell (layout.address right))
  obtain ⟨subtracted, branching⟩ := poised.reaches_subtract ports env lively leftReads rightReads
    leftDistinct rightDistinct rfl
  generalize wrap machine.width (machine.cell (layout.address left) -
    machine.cell (layout.address right)) = result at subtracted branching equalIff resultFits
  have fits := fitsCell_update poised.fits (layout.address difference) resultFits
  have branched := branching.reaches_jumpUnlessPositive ports env lively (layout.denotes_scratch _)
    (layout.resolve_position _) (by omega)
  rw [Abstract.cell_moved, Function.update_self] at branched
  by_cases nonpositive : result ≤ 0
  · -- The first difference is not positive: the opposite one decides.
    rw [if_pos nonpositive] at branched
    have negating := @moved layout _ _ [_, _] _ branching _ (fun position _ _ => rfl)
      branching.isZero branching.fits
    have jumped := negating.reaches_opposite ports env lively resolved valid
      (Function.update_self ..)
    refine ⟨9, Function.update (Function.update machine.cell (layout.address difference) result)
      (layout.address opposite) (wrap machine.width (-result)), by omega, ?_, ?_,
      fitsCell_update fits _ (fitsCell_wrap positive (-result))⟩
    · rw [if_congr (equalIff.trans (and_iff_right nonpositive)) rfl rfl]
      exact (subtracted.trans branched).trans jumped
    · intro position notDifference notOpposite
      rw [Function.update_of_ne notOpposite, Function.update_of_ne notDifference]
  · rw [if_neg nonpositive] at branched
    have jumping := @moved layout _ _ [_] _ branching _ (fun position _ _ => rfl) branching.isZero
      branching.fits
    have jumped := jumping.reaches_jump ports env lively (layout.resolve_position _) (by omega)
    refine ⟨7, Function.update machine.cell (layout.address difference) result, by omega, ?_, ?_,
      fits⟩
    · rw [if_neg (fun equal => nonpositive (equalIff.mp equal).1)]
      exact (subtracted.trans branched).trans jumped
    · intro position notDifference _
      exact Function.update_of_ne notDifference ..

end Poised

end Subleq.Assembly
