import Subleq.Proofs.Assembly.Correctness
import Subleq.Proofs.Machine.Bounds

/-!
# What comparisons compare

A comparison subtracts one cell from another and looks at the sign of the result. The result is
wrapped, so the sign is that of the difference only if the difference is itself the value of a cell.
`JLE` is the signed order for such pairs of cells and the opposite of it for all others; `JEQ` takes
cells for equal that are half of the modulus apart.

This holds of every statement of every assembled program, at any origin, and asks nothing of the
rest of the memory: only the cells of the statement are as the assembler left them, and the zero
cell is zero.
-/

namespace Subleq.Assembly

open Expansion

/-! ## Terms in place -/

/-- Whether an operand leaves a value in the cells of an image: what it resolves to for the origin,
wrapped to the width of a cell. -/
def Listing.Leaves (listing : Listing) (origin width : Nat) (operand : Operand) (value : Int) :
    Prop :=
  ∃ number, (Layout.ofListing listing).resolve origin operand.term = .ok number ∧
    wrap width number = value

/-- The address of a scratch cell. -/
def Listing.scratchAddress (listing : Listing) (origin : Nat) (scratch : Scratch) : Nat :=
  origin + listing.size + scratch.place

/-- A layout that says nothing but where the scratch cells are. -/
def Layout.bare (size : Nat) : Layout := { size, pool := [], names := [] }

/-- A term as it stands in an image: positions count from the origin, scratch cells stay what they
are, and everything else is what it leaves in a cell. -/
def Term.placed (layout : Layout) (origin width : Nat) : Term → Term
  | .scratch cell => .scratch cell
  | .position place => .position (origin + place)
  | term =>
      match layout.resolve origin term with
      | .ok number => .value (wrap width number)
      | .error _ => term

/-- An instruction as it stands in an image. -/
def Instruction.placed (layout : Layout) (origin width : Nat) (instruction : Instruction) :
    Instruction where
  a := instruction.a.placed layout origin width
  b := instruction.b.placed layout origin width
  target := instruction.target.map (·.placed layout origin width)

section Placed

variable {layout : Layout} {origin width : Nat}

theorem Term.placed_of_leaves {listing : Listing} {operand : Operand} {value : Int}
    (leaves : listing.Leaves origin width operand value) :
    operand.term.placed (.ofListing listing) origin width = .value value := by
  obtain ⟨number, resolved, wrapped⟩ := leaves
  cases operand with
  | literal literal => simp only [Operand.term, placed] at resolved ⊢; rw [resolved, ← wrapped]
  | constant constant => simp only [Operand.term, placed] at resolved ⊢; rw [resolved, ← wrapped]
  | reference target => simp only [Operand.term, placed] at resolved ⊢; rw [resolved, ← wrapped]

/-- A term stands in place for what it resolves to, wrapped to the width of a cell. -/
theorem resolve_placed (positive : 0 < width) {term : Term} {number : Int}
    (resolved : layout.resolve origin term = .ok number)
    (fits : (∃ cell, term = .scratch cell) ∨ (∃ position, term = .position position) →
      FitsCell width number) :
    (Layout.bare (origin + layout.size)).resolve 0 (term.placed layout origin width) =
      .ok (wrap width number) := by
  cases term with
  | value value => simp only [Term.placed, resolved]; rfl
  | constant value => simp only [Term.placed, resolved]; rfl
  | reference target => simp only [Term.placed, resolved]; rfl
  | scratch cell =>
      rw [wrap_of_fitsCell positive (fits (Or.inl ⟨cell, rfl⟩)), ← resolved]
      simp [Term.placed, Layout.resolve, Layout.bare]
  | position position =>
      rw [wrap_of_fitsCell positive (fits (Or.inr ⟨position, rfl⟩)), ← resolved]
      simp [Term.placed, Layout.resolve]

theorem layOut_placed (start : Nat) (instructions : List Instruction) :
    layOut (origin + start) (instructions.map (·.placed layout origin width)) =
      (layOut start instructions).map (·.placed layout origin width) := by
  induction instructions generalizing start with
  | nil => rfl
  | cons instruction rest ih =>
      have next := ih (start + 3)
      rw [← Nat.add_assoc] at next
      simp only [List.map_cons, layOut, next]
      cases target : instruction.target with
      | none => simp [Instruction.placed, target, Term.placed, Nat.add_assoc]
      | some term => simp [Instruction.placed, target]

theorem map_placed_jumpUnlessGreater (left right target : Term) :
    (subtract left right ++ [jumpUnlessPositive difference target]).map
        (·.placed layout origin width) =
      subtract (left.placed layout origin width) (right.placed layout origin width) ++
        [jumpUnlessPositive difference (target.placed layout origin width)] := rfl

theorem map_placed_jumpIfEqual (start : Nat) (left right target : Term) :
    (jumpIfEqual start left right target).map (·.placed layout origin width) =
      jumpIfEqual (origin + start) (left.placed layout origin width)
        (right.placed layout origin width) (target.placed layout origin width) := by
  simp only [jumpIfEqual, Nat.add_assoc]
  rfl

end Placed

/-! ## Machines at statements -/

/-- A statement of an assembled program whose addresses are values of cells. -/
structure Placed (listing : Listing) (origin width : Nat) (cells : List Int) (before : Listing)
    (statement : Statement) : Prop where
  assembled : listing.image (.ofListing listing) origin = .ok cells
  small : (origin + cells.length : Int) ≤ cellBound width
  split : ∃ line rest, listing = before ++ line :: rest ∧ line.statement = some statement

/-- A machine is about to execute a statement of an assembled program. It stands at the first cell
of the statement, all cells of the statement are as the assembler left them, the zero cell is zero,
and every cell of the memory has a value in range. -/
structure Facing (listing : Listing) (origin width : Nat) (cells : List Int) (before : Listing)
    (statement : Statement) (machine : Machine) : Prop where
  sameWidth : machine.memory.width = width
  room : machine.memory.room = .unlimited
  fits : machine.memory.Fits
  pc : machine.pc = (origin + before.size : Nat)
  isZero : machine.memory.get (listing.scratchAddress origin .zero) = 0
  intact : ∀ index value, index < statement.size → cells[before.size + index]? = some value →
    machine.memory.get (origin + before.size + index) = wrap width value

theorem Operand.term_ne_position (operand : Operand) (position : Nat) :
    operand.term ≠ .position position := by
  cases operand <;> simp [Operand.term]

namespace Placed

variable {listing before : Listing} {origin width : Nat} {cells : List Int}
  {statement : Statement}

theorem length_cells (placed : Placed listing origin width cells before statement) :
    before.size + statement.size ≤ listing.size ∧ listing.size + 3 ≤ cells.length := by
  have length := Listing.length_image placed.assembled
  obtain ⟨line, rest, rfl, has⟩ := placed.split
  rw [Listing.size_append, Listing.size, Line.size, has] at length ⊢
  exact ⟨by simp only; omega, by omega⟩

theorem width_positive (placed : Placed listing origin width cells before statement) :
    0 < width := by
  rcases Nat.eq_zero_or_pos width with zero | positive
  · have small := placed.small
    have length := placed.length_cells
    rw [zero, cellBound] at small
    omega
  · exact positive

/-- Scratch cells and positions up to the end of the statement are values of cells. -/
theorem fitsCell_own (placed : Placed listing origin width cells before statement)
    (isMacro : statement.isMacro = true) {term : Term} (member : term ∈ statement.terms before.size)
    {number : Int} (resolved : (Layout.ofListing listing).resolve origin term = .ok number)
    (own : (∃ cell, term = .scratch cell) ∨ (∃ position, term = .position position)) :
    FitsCell width number := by
  have small := placed.small
  have length := placed.length_cells
  have positive := cellBound_pos width
  have sized : (Layout.ofListing listing).size = listing.size := rfl
  rcases own with ⟨cell, rfl⟩ | ⟨position, rfl⟩
  · rw [Layout.resolve, Except.ok.injEq, sized] at resolved
    cases cell <;> simp only [Scratch.place] at resolved <;> exact ⟨by omega, by omega⟩
  · have near : position ≤ before.size + statement.size := by
      rcases Statement.mem_terms isMacro member with
        ⟨operand, -, equal⟩ | ⟨scratch, equal⟩ | ⟨other, upper, equal⟩ | equal
      · exact absurd equal.symm (operand.term_ne_position position)
      · cases equal
      · cases equal
        exact upper
      · cases equal
    rw [Layout.resolve, Except.ok.injEq] at resolved
    exact ⟨by omega, by omega⟩

/-- The machine stands at the instructions of the statement, as they are in the image. -/
theorem poised (placed : Placed listing origin width cells before statement)
    (isMacro : statement.isMacro = true) {machine : Machine}
    (facing : Facing listing origin width cells before statement machine) :
    Poised (.bare (origin + listing.size)) machine.view (origin + before.size)
      ((statement.instructions before.size).map (·.placed (.ofListing listing) origin width)) := by
  have positive := placed.width_positive
  have length := placed.length_cells
  have terms := statement.terms_of_isMacro isMacro before.size
  have count : 3 * (statement.instructions before.size).length = statement.size := by
    rw [← length_layOut before.size, ← terms, Statement.length_terms]
  refine ⟨facing.pc, ?_, ?_, ?_, ?_, facing.fits⟩
  · rw [layOut_placed, ← terms]
    apply Layout.stands_of_getElem?
    intro index inPlace found
    rw [List.getElem?_map, Option.map_eq_some_iff] at found
    obtain ⟨term, expanded, rfl⟩ := found
    obtain ⟨line, rest, split, has⟩ := placed.split
    have assembled : (before ++ line :: rest).image (.ofListing listing) origin = .ok cells := by
      rw [← split]
      exact placed.assembled
    obtain ⟨number, resolved, held⟩ :=
      Listing.getElem?_image_statement assembled has expanded
    have inside : index < statement.size := by
      rw [← Statement.length_terms before.size statement]
      exact (List.getElem?_eq_some_iff.mp expanded).1
    rw [show machine.view.cell = machine.memory.get from rfl,
      facing.intact index number inside held]
    exact resolve_placed positive resolved
      (placed.fitsCell_own isMacro (List.mem_of_getElem? expanded) resolved)
  · rw [List.length_map, count]
    simp only [Layout.bare]
    omega
  · rw [Layout.address_scratch]
    exact facing.isZero
  · change 0 < machine.memory.width
    rw [facing.sameWidth]
    exact positive

end Placed

/-- Execution takes a machine to a program counter, in some steps that neither fail nor touch the
staged codes or the environment, and the cells at some addresses are all that changes. -/
def GoesTo {σ : Type} (ports : Ports σ) (machine : Machine) (env : σ) (next : Int)
    (written : List Nat) : Prop :=
  ∃ count, 0 < count ∧
    let progress := machine.run ports count env
    progress.steps = count ∧ progress.env = env ∧ (∀ fault, progress.ending ≠ .failed fault) ∧
      progress.machine.pc = next ∧ progress.machine.staged = machine.staged ∧
      ∀ address, address ∉ written →
        progress.machine.memory.get address = machine.memory.get address

theorem goesTo_of_reaches {σ : Type} {ports : Ports σ} {machine : Machine} {env : σ} {next : Int}
    {written : List Nat} (unlimited : machine.memory.room = .unlimited) {count : Nat}
    (some : 0 < count) {cell : Nat → Int}
    (path : Abstract.Reaches ports Abstract.halted count machine.view env
      (machine.view.moved cell next) env)
    (kept : ∀ address, address ∉ written → cell address = machine.memory.get address) :
    GoesTo ports machine env next written := by
  obtain ⟨arrived, sameEnv, steps, unfailing⟩ := Machine.run_along unlimited path
  refine ⟨count, some, steps, sameEnv, unfailing, congrArg Abstract.pc arrived,
    congrArg Abstract.staged arrived, ?_⟩
  intro address unwritten
  have held := congrFun (congrArg Abstract.cell arrived) address
  exact held.trans (kept address unwritten)

namespace Placed

variable {σ : Type} {listing before : Listing} {origin width : Nat} {cells : List Int}
  {left right target : Operand} {machine : Machine} {x y : Nat} {next : Int}

theorem denotes_value (layout : Layout) (place : Nat) : layout.Denotes (.value place) :=
  Layout.denotes_of_resolve rfl

theorem address_value (layout : Layout) (place : Nat) : layout.address (.value place) = place :=
  Layout.address_eq rfl

/-- An order jump goes by the sign of the wrapped difference and writes one scratch cell. -/
theorem goesTo_jle
    (placed : Placed listing origin width cells before (.jle left right target))
    (facing : Facing listing origin width cells before (.jle left right target) machine)
    (leftAt : listing.Leaves origin width left x) (rightAt : listing.Leaves origin width right y)
    (targetAt : listing.Leaves origin width target next) (valid : -1 ≤ next)
    (leftApart : x ≠ listing.scratchAddress origin .difference)
    (rightApart : y ≠ listing.scratchAddress origin .difference) (ports : Ports σ) (env : σ) :
    GoesTo ports machine env
      (if wrap width (machine.memory.get x - machine.memory.get y) ≤ 0 then next
        else (origin + before.size + 18 : Nat))
      [listing.scratchAddress origin .difference] := by
  have poised := placed.poised rfl facing
  simp only [Statement.instructions, map_placed_jumpUnlessGreater, Term.placed_of_leaves leftAt,
    Term.placed_of_leaves rightAt, Term.placed_of_leaves targetAt] at poised
  have scratch := Layout.address_scratch (.bare (origin + listing.size)) .difference
  have path := poised.reaches_jumpUnlessGreater ports env Abstract.lively_halted
    (denotes_value _ x) (denotes_value _ y) (by rw [address_value, scratch]; exact leftApart)
    (by rw [address_value, scratch]; exact rightApart) rfl valid
  simp only [address_value] at path
  rw [show machine.view.width = width from facing.sameWidth] at path
  refine goesTo_of_reaches facing.room (by decide : 0 < 6) path ?_
  intro address unwritten
  rw [List.mem_singleton] at unwritten
  exact Function.update_of_ne (by rw [scratch]; exact unwritten) ..

/-- An equality jump goes by the signs of the wrapped difference and of its opposite, and writes two
scratch cells. -/
theorem goesTo_jeq
    (placed : Placed listing origin width cells before (.jeq left right target))
    (facing : Facing listing origin width cells before (.jeq left right target) machine)
    (leftAt : listing.Leaves origin width left x) (rightAt : listing.Leaves origin width right y)
    (targetAt : listing.Leaves origin width target next) (valid : -1 ≤ next)
    (leftApart : x ≠ listing.scratchAddress origin .difference)
    (rightApart : y ≠ listing.scratchAddress origin .difference) (ports : Ports σ) (env : σ) :
    GoesTo ports machine env
      (if LooksEqual width (machine.memory.get x) (machine.memory.get y) then next
        else (origin + before.size + 30 : Nat))
      [listing.scratchAddress origin .difference, listing.scratchAddress origin .opposite] := by
  have poised := placed.poised rfl facing
  simp only [Statement.instructions, map_placed_jumpIfEqual, Term.placed_of_leaves leftAt,
    Term.placed_of_leaves rightAt, Term.placed_of_leaves targetAt] at poised
  have scratch := Layout.address_scratch (.bare (origin + listing.size))
  obtain ⟨count, cell, some, path, kept, -⟩ := poised.reaches_jumpIfEqual ports env
    Abstract.lively_halted (denotes_value _ x) (denotes_value _ y)
    (by rw [address_value, scratch]; exact leftApart)
    (by rw [address_value, scratch]; exact rightApart) rfl valid
  simp only [address_value] at path
  rw [show machine.view.width = width from facing.sameWidth] at path
  refine goesTo_of_reaches facing.room some path ?_
  intro address unwritten
  simp only [List.mem_cons, List.not_mem_nil, or_false, not_or] at unwritten
  exact kept address (by rw [scratch]; exact unwritten.1) (by rw [scratch]; exact unwritten.2)

end Placed

/-! ## Comparisons of programs -/

section Programs

variable {σ : Type} {source : String} {listing before rest : Listing} {line : Line}
  {origin width : Nat} {cells : List Int} {sizes : Measure} {left right target : Operand}
  {machine : Machine} {x y : Nat} {next : Int}

theorem placed_of_assemble {statement : Statement} (accepted : Listing.read source = .ok listing)
    (assembled : assemble source origin = .ok (cells, sizes))
    (small : origin + cells.length ≤ 2 ^ (width - 1)) (split : listing = before ++ line :: rest)
    (has : line.statement = some statement) :
    Placed listing origin width cells before statement where
  assembled := image_of_assemble accepted assembled
  small := by
    rw [cellBound]
    exact_mod_cast small
  split := ⟨line, rest, split, has⟩

/-- What `JLE` decides. Take an order jump of an accepted program whose image lies in the address
range, and a machine that stands at it, whatever is in the rest of the memory: the jump writes
nothing but its scratch cell, and it is taken if the first cell is less than or equal to the second
and their difference is the value of a cell, or if neither is the case. So it is the signed order of
all pairs of cells whose difference does not overflow, and of no other pair. -/
theorem jle_goes_by_difference (accepted : Listing.read source = .ok listing)
    (assembled : assemble source origin = .ok (cells, sizes))
    (small : origin + cells.length ≤ 2 ^ (width - 1)) (split : listing = before ++ line :: rest)
    (has : line.statement = some (.jle left right target))
    (leftAt : listing.Leaves origin width left x) (rightAt : listing.Leaves origin width right y)
    (targetAt : listing.Leaves origin width target next) (valid : -1 ≤ next)
    (leftApart : x ≠ listing.scratchAddress origin .difference)
    (rightApart : y ≠ listing.scratchAddress origin .difference)
    (facing : Facing listing origin width cells before (.jle left right target) machine)
    (ports : Ports σ) (env : σ) :
    let a := machine.memory.get x
    let b := machine.memory.get y
    GoesTo ports machine env
      (if a ≤ b ↔ -2 ^ (width - 1) ≤ a - b ∧ a - b < 2 ^ (width - 1) then next
        else (origin + before.size + 18 : Nat))
      [listing.scratchAddress origin .difference] := by
  intro a b
  have placed := placed_of_assemble accepted assembled small split has
  have went := placed.goesTo_jle facing leftAt rightAt targetAt valid leftApart rightApart ports env
  have decides := wrap_sub_nonpos_iff placed.width_positive (facing.sameWidth ▸ facing.fits x)
    (facing.sameWidth ▸ facing.fits y)
  have same : wrap width (a - b) ≤ 0 ↔
      (a ≤ b ↔ -2 ^ (width - 1) ≤ a - b ∧ a - b < 2 ^ (width - 1)) := by
    rw [decides]
    change _ ↔ (a ≤ b ↔ -cellBound width ≤ a - b ∧ a - b < cellBound width)
    have bound := cellBound_pos width
    omega
  rwa [if_congr same rfl rfl] at went

/-- What `JEQ` decides. Take an equality jump of an accepted program whose image lies in the address
range, and a machine that stands at it, whatever is in the rest of the memory: the jump writes
nothing but its two scratch cells, and it is taken if the cells are equal or half of the modulus
apart. -/
theorem jeq_goes_by_difference (accepted : Listing.read source = .ok listing)
    (assembled : assemble source origin = .ok (cells, sizes))
    (small : origin + cells.length ≤ 2 ^ (width - 1)) (split : listing = before ++ line :: rest)
    (has : line.statement = some (.jeq left right target))
    (leftAt : listing.Leaves origin width left x) (rightAt : listing.Leaves origin width right y)
    (targetAt : listing.Leaves origin width target next) (valid : -1 ≤ next)
    (leftApart : x ≠ listing.scratchAddress origin .difference)
    (rightApart : y ≠ listing.scratchAddress origin .difference)
    (facing : Facing listing origin width cells before (.jeq left right target) machine)
    (ports : Ports σ) (env : σ) :
    let a := machine.memory.get x
    let b := machine.memory.get y
    GoesTo ports machine env
      (if a = b ∨ a - b = 2 ^ (width - 1) ∨ b - a = 2 ^ (width - 1) then next
        else (origin + before.size + 30 : Nat))
      [listing.scratchAddress origin .difference, listing.scratchAddress origin .opposite] := by
  intro a b
  have placed := placed_of_assemble accepted assembled small split has
  have went := placed.goesTo_jeq facing leftAt rightAt targetAt valid leftApart rightApart ports env
  have decides := looksEqual_iff_apart placed.width_positive (facing.sameWidth ▸ facing.fits x)
    (facing.sameWidth ▸ facing.fits y)
  rwa [if_congr decides rfl rfl] at went

end Programs

/-! ## Comparisons that are deceived -/

/-- A machine that is loaded with an image and started at a statement faces it. -/
theorem Placed.facing_load {listing before : Listing} {origin width : Nat} {cells : List Int}
    {statement : Statement} (placed : Placed listing origin width cells before statement)
    {machine : Machine} (sameWidth : machine.memory.width = width)
    (unlimited : machine.memory.room = .unlimited) :
    Facing listing origin width cells before statement
      { (machine.load cells origin).2 with pc := (origin + before.size : Nat) } := by
  have shown := Machine.view_load unlimited cells origin
  have holds : (machine.load cells origin).2.memory.get =
      overlay width origin cells fun _ => 0 := by
    rw [← sameWidth]
    exact Machine.get_load unlimited cells origin
  have loaded : ∀ position value, cells[position]? = some value →
      (machine.load cells origin).2.memory.get (origin + position) = wrap width value := by
    intro position value held
    rw [holds, overlay, if_pos (Nat.le_add_right ..), Nat.add_sub_cancel_left, held]
  have wide : (machine.load cells origin).2.memory.width = width :=
    (congrArg Abstract.width shown).trans sameWidth
  have zeroFits : FitsCell width 0 := by
    rw [← wrap_zero width]
    exact fitsCell_wrap placed.width_positive 0
  refine ⟨wide, Machine.room_load unlimited cells origin, ?_, rfl, ?_, ?_⟩
  · intro address
    change FitsCell (machine.load cells origin).2.memory.width
      ((machine.load cells origin).2.memory.get address)
    rw [wide, holds, overlay]
    split
    · split
      · exact fitsCell_wrap placed.width_positive _
      · exact zeroFits
    · exact zeroFits
  · have zero := loaded _ 0 (Listing.getElem?_image_scratch placed.assembled .zero)
    rw [wrap_zero, ← Nat.add_assoc] at zero
    exact zero
  · intro index value _ held
    rw [Nat.add_assoc]
    exact loaded _ value held

/-- A source that compares the greatest value of a cell of sixteen bits with a negative one. -/
def overflowSource : String :=
  "JLE a b low\nJEQ a b same\nHALT\nlow: HALT\nsame: HALT\na: DATA 32767\nb: DATA -1"

/-- A name as an operand. -/
def overflowName (name : String) : Operand := .reference { text := name, name, offset := "" }

/-- The listing of `overflowSource`. -/
def overflowListing : Listing :=
  [{ statement := some (.jle (overflowName "a") (overflowName "b") (overflowName "low")) },
    { statement := some (.jeq (overflowName "a") (overflowName "b") (overflowName "same")) },
    { statement := some .halt },
    { label := some "low", statement := some .halt },
    { label := some "same", statement := some .halt },
    { label := some "a", statement := some (.data [.literal 32767]) },
    { label := some "b", statement := some (.data [.literal (-1)]) }]

/-- The image of `overflowSource` for origin 100: the order jump from 100 on, the equality jump from
118 on, their targets at 151 and 154, the two data at 157 and 158, and the scratch cells. -/
def overflowImage : List Int :=
  [160, 160, 103, 157, 159, 106, 159, 160, 109, 159, 159, 112, 158, 160, 115, 159, 160, 151,
    160, 160, 121, 157, 159, 124, 159, 160, 127, 159, 159, 130, 158, 160, 133, 159, 160, 139,
    159, 159, 148, 161, 161, 142, 160, 161, 145, 159, 161, 154, 159, 159, -1, 159, 159, -1,
    159, 159, -1, 32767, -1, 0, 0, 0]

/-- A machine that was loaded with `overflowImage` and stands at some address. -/
def overflowMachine (pc : Int) : Machine :=
  { ((Machine.ofWidth 16).load overflowImage 100).2 with pc }

theorem read_overflowSource : Listing.read overflowSource = .ok overflowListing := by
  decide +kernel

theorem assemble_overflowSource :
    assemble overflowSource 100 = .ok (overflowImage, ⟨62, 10, 0⟩) := by
  decide +kernel

theorem leaves_overflowName :
    overflowListing.Leaves 100 16 (overflowName "a") (157 : Nat) ∧
      overflowListing.Leaves 100 16 (overflowName "b") (158 : Nat) ∧
      overflowListing.Leaves 100 16 (overflowName "low") 151 ∧
      overflowListing.Leaves 100 16 (overflowName "same") 154 :=
  ⟨⟨157, by decide +kernel⟩, ⟨158, by decide +kernel⟩, ⟨151, by decide +kernel⟩,
    ⟨154, by decide +kernel⟩⟩

theorem get_overflowMachine (pc : Int) :
    (overflowMachine pc).memory.get 157 = 32767 ∧ (overflowMachine pc).memory.get 158 = -1 := by
  change (overflowMachine 0).memory.get 157 = 32767 ∧ (overflowMachine 0).memory.get 158 = -1
  decide +kernel

/-- A machine at a statement of `overflowSource` faces it. -/
theorem facing_overflowMachine {before rest : Listing} {line : Line} {statement : Statement}
    {pc : Int} (split : overflowListing = before ++ line :: rest)
    (has : line.statement = some statement) (stands : pc = (100 + before.size : Nat)) :
    Facing overflowListing 100 16 overflowImage before statement (overflowMachine pc) := by
  subst stands
  exact (placed_of_assemble read_overflowSource assemble_overflowSource (by decide) split
    has).facing_load rfl rfl

/-- The order jump goes to its target, although the first cell is the greater one. -/
theorem jle_goes_by_difference_overflowing :
    (overflowMachine 100).memory.get 157 = 32767 ∧ (overflowMachine 100).memory.get 158 = -1 ∧
      GoesTo Tape.ports (overflowMachine 100) {} 151 [160] := by
  obtain ⟨first, second⟩ := get_overflowMachine 100
  obtain ⟨leftAt, rightAt, targetAt, -⟩ := leaves_overflowName
  have split : overflowListing = [] ++ overflowListing := rfl
  have goes := jle_goes_by_difference read_overflowSource assemble_overflowSource (by decide) split
    rfl leftAt rightAt targetAt (by decide) (by decide +kernel) (by decide +kernel)
    (facing_overflowMachine split rfl (rfl : (100 : Int) = _)) Tape.ports {}
  simp only [first, second] at goes
  rw [if_pos (by decide)] at goes
  exact ⟨first, second, goes⟩

/-- A machine at an order jump whose first cell is the greater one gets to its target and never to
the statement behind it. -/
theorem jle_takes_greater_cell :
    let machine := overflowMachine 100
    let passed := (machine.trace Tape.ports 100 [] {}).1
    machine.memory.get 158 < machine.memory.get 157 ∧ 151 ∈ passed ∧ 118 ∉ passed := by
  decide +kernel

/-- The equality jump goes to its target, although the cells differ. -/
theorem jeq_goes_by_difference_overflowing :
    (overflowMachine 118).memory.get 157 = 32767 ∧ (overflowMachine 118).memory.get 158 = -1 ∧
      GoesTo Tape.ports (overflowMachine 118) {} 154 [160, 161] := by
  obtain ⟨first, second⟩ := get_overflowMachine 118
  obtain ⟨leftAt, rightAt, -, targetAt⟩ := leaves_overflowName
  have split : overflowListing = overflowListing.take 1 ++ overflowListing.drop 1 := rfl
  have goes := jeq_goes_by_difference read_overflowSource assemble_overflowSource (by decide) split
    rfl leftAt rightAt targetAt (by decide) (by decide +kernel) (by decide +kernel)
    (facing_overflowMachine split rfl (rfl : (118 : Int) = _)) Tape.ports {}
  simp only [first, second] at goes
  rw [if_pos (by decide)] at goes
  exact ⟨first, second, goes⟩

/-- A machine at an equality jump whose cells differ gets to its target and never to the statement
behind it. -/
theorem jeq_takes_unequal_cells :
    let machine := overflowMachine 118
    let passed := (machine.trace Tape.ports 100 [] {}).1
    machine.memory.get 157 ≠ machine.memory.get 158 ∧ 154 ∈ passed ∧ 148 ∉ passed := by
  decide +kernel

end Subleq.Assembly
