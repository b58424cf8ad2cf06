import Subleq.Proofs.Assembly.Comparison
import Subleq.Proofs.Assembly.Placement

/-!
# Moves of a cell to itself

A move clears its destination before it reads its source, so that a move of a cell to itself leaves
zero in it. The assembler refuses a move whose operands are the same, but it compares them as they
were read: no address is known then, and a cell can be written in many ways. Two labels may stand
for it, a label with another offset, a number, the end of the image with an offset. Such a move is
accepted, and loses the value that it should keep.

What is sure of an accepted move is that its operands are not the same address if both are numbers,
if both are constants, or if they are one label with two offsets.
-/

namespace Subleq.Assembly

open Expansion

/-! ## What is compared -/

/-- Whether operands that are not the same may yet be the same address. Two numbers may not, nor two
constants, nor two references to one label unless their offsets are the same number. -/
def Operand.MayCoincide : Operand → Operand → Prop
  | literal _, literal _ => False
  | constant _, constant _ => False
  | reference first, reference second =>
      first.name = second.name → first.offsetValue = second.offsetValue
  | _, _ => True

/-- An accepted move was read from two operands that are not the same. -/
theorem Statement.exists_arguments_of_parse_mov {mnemonic : Mnemonic} {token : String}
    {arguments : List String} {destination source : Operand}
    (parsed : parse mnemonic token arguments = .ok (.mov destination source)) :
    ∃ first second, mnemonic = .mov ∧ arguments = [first, second] ∧
      Operand.parse first = .ok destination ∧ Operand.parse second = .ok source ∧
      destination ≠ source := by
  unfold parse at parsed
  split at parsed
  case h_5 first second =>
    obtain ⟨_, readFirst, parsed⟩ := exists_of_bind_eq_ok parsed
    obtain ⟨_, readSecond, parsed⟩ := exists_of_bind_eq_ok parsed
    split at parsed
    next => cases parsed
    next differ =>
      cases parsed
      exact ⟨first, second, rfl, rfl, readFirst, readSecond, differ⟩
  -- The other mnemonics make other statements of what they read.
  all_goals
    repeat obtain ⟨_, _, parsed⟩ := exists_of_bind_eq_ok parsed
    cases parsed

/-- The operands of the moves of a source are not the same. -/
theorem Listing.operands_ne_of_read {text : String} {listing : Listing}
    (accepted : read text = .ok listing) :
    ∀ line ∈ listing, ∀ destination source, line.statement = some (.mov destination source) →
      destination ≠ source := by
  refine forall_of_readFrom ?_ accepted
  intro defined line read judged destination source has
  obtain ⟨spelled, -, statement⟩ := (Line.read_eq_ok judged).2
  rw [has] at statement
  unfold Line.readStatement at statement
  split at statement
  · cases statement
  · split at statement
    · cases statement
    · obtain ⟨_, parsed, same⟩ := exists_of_map_eq_ok statement
      cases same
      obtain ⟨_, _, -, -, -, -, differ⟩ := Statement.exists_arguments_of_parse_mov parsed
      exact differ

/-! ## What is not compared -/

/-- References to one name that resolve alike have the same offset. -/
theorem Layout.offsetValue_eq_of_resolve {layout : Layout} {origin value : Int}
    {first second : Reference} (sameName : first.name = second.name)
    (firstAt : layout.resolveReference origin first = .ok value)
    (secondAt : layout.resolveReference origin second = .ok value) :
    first.offsetValue = second.offsetValue := by
  unfold resolveReference at firstAt secondAt
  rw [← sameName] at secondAt
  cases place : layout.position? first.name with
  | none => simp [place] at firstAt
  | some position =>
      cases firstOffset : first.offsetValue with
      | error fault => simp [place, firstOffset] at firstAt
      | ok offset =>
          cases secondOffset : second.offsetValue with
          | error fault => simp [place, secondOffset] at secondAt
          | ok other =>
              simp only [place, firstOffset, Except.ok.injEq] at firstAt
              simp only [place, secondOffset, Except.ok.injEq] at secondAt
              rw [show offset = other by omega]

/-- Operands that are not the same but resolve to one address are such that this may be. -/
theorem Operand.mayCoincide_of_resolve {layout : Layout} {origin value : Int}
    {first second : Operand} (differ : first ≠ second)
    (pooled : ∀ number, first = .constant number → number ∈ layout.pool)
    (firstAt : layout.resolve origin first.term = .ok value)
    (secondAt : layout.resolve origin second.term = .ok value) : first.MayCoincide second := by
  cases first with
  | literal number =>
      cases second with
      | literal other =>
          cases firstAt
          cases secondAt
          exact differ rfl
      | constant other => trivial
      | reference target => trivial
  | constant number =>
      cases second with
      | literal other => trivial
      | constant other =>
          simp only [Operand.term, Layout.resolve, Except.ok.injEq] at firstAt secondAt
          have same : layout.pool.idxOf number = layout.pool.idxOf other := by omega
          exact differ (congrArg constant ((List.idxOf_inj (pooled number rfl)).mp same))
      | reference target => trivial
  | reference target =>
      cases second with
      | literal other => trivial
      | constant other => trivial
      | reference other =>
          exact fun sameName => Layout.offsetValue_eq_of_resolve sameName firstAt secondAt

/-- The operands of a statement of an assembled program have addresses. -/
theorem Listing.exists_resolve_of_image {before rest : Listing} {line : Line}
    {statement : Statement} {layout : Layout} {origin : Int} {cells : List Int}
    (assembled : (before ++ line :: rest).image layout origin = .ok cells)
    (has : line.statement = some statement) {operand : Operand}
    (own : operand ∈ statement.operands) :
    ∃ value, layout.resolve origin operand.term = .ok value := by
  obtain ⟨index, expanded⟩ :=
    List.mem_iff_getElem?.mp (Statement.term_mem_terms own before.size)
  obtain ⟨value, resolved, -⟩ := getElem?_image_statement assembled has expanded
  exact ⟨value, resolved⟩

/-! ## What a move does -/

/-- Execution takes a machine in four steps to a program counter. The steps neither fail nor touch
the staged codes or the environment, and a value in one cell is all that they leave behind. -/
def Moves {σ : Type} (ports : Ports σ) (machine : Machine) (env : σ) (next : Int) (address : Nat)
    (value : Int) : Prop :=
  let progress := machine.run ports 4 env
  progress.steps = 4 ∧ progress.env = env ∧ (∀ fault, progress.ending ≠ .failed fault) ∧
    progress.machine.pc = next ∧ progress.machine.staged = machine.staged ∧
    progress.machine.memory.get = Function.update machine.memory.get address value

theorem moves_of_reaches {σ : Type} {ports : Ports σ} {machine : Machine} {env : σ} {next : Int}
    {address : Nat} {value : Int} (unlimited : machine.memory.room = .unlimited)
    (path : Abstract.Reaches ports Abstract.halted 4 machine.view env
      (machine.view.moved (Function.update machine.view.cell address value) next) env) :
    Moves ports machine env next address value := by
  obtain ⟨arrived, sameEnv, steps, unfailing⟩ := Machine.run_along unlimited path
  exact ⟨steps, sameEnv, unfailing, congrArg Abstract.pc arrived, congrArg Abstract.staged arrived,
    congrArg Abstract.cell arrived⟩

theorem map_placed_move {layout : Layout} {origin width : Nat} (destination source : Term) :
    (clear destination :: add destination source).map (·.placed layout origin width) =
      clear (destination.placed layout origin width) ::
        add (destination.placed layout origin width) (source.placed layout origin width) := rfl

/-- A move copies the value of another cell, and leaves zero in a cell that it should copy to
itself. -/
theorem Placed.moves {σ : Type} {listing before : Listing} {origin width : Nat} {cells : List Int}
    {destination source : Operand} {machine : Machine} {x y : Nat}
    (placed : Placed listing origin width cells before (.mov destination source))
    (facing : Facing listing origin width cells before (.mov destination source) machine)
    (destinationAt : listing.Leaves origin width destination x)
    (sourceAt : listing.Leaves origin width source y) (apart : Apart (origin + before.size) 12 x)
    (other : x ≠ listing.scratchAddress origin .zero) (ports : Ports σ) (env : σ) :
    Moves ports machine env (origin + before.size + 12 : Nat) x
      (if x = y then 0 else machine.memory.get y) := by
  have poised := placed.poised rfl facing
  simp only [Statement.instructions, map_placed_move, Term.placed_of_leaves destinationAt,
    Term.placed_of_leaves sourceAt] at poised
  have scratch := Layout.address_scratch (.bare (origin + listing.size)) .zero
  rw [Listing.scratchAddress] at other
  apply moves_of_reaches facing.room
  by_cases same : x = y
  · subst same
    have path := poised.reaches_move_self ports env Abstract.lively_halted (denotes_value _ x)
      (by rw [address_value]; exact apart) (by rw [address_value, scratch]; exact other)
    rw [address_value] at path
    rw [if_pos rfl]
    exact path
  · have path := poised.reaches_move ports env Abstract.lively_halted (denotes_value _ x)
      (denotes_value _ y) (by rw [address_value]; exact apart)
      (by rw [address_value, scratch]; exact other)
      (by rw [address_value, address_value]; exact same)
    rw [address_value, address_value] at path
    rw [if_neg same]
    exact path

/-! ## Moves of programs -/

/-- What is sure of the moves of a program. The operands of an accepted move are not the same as
they are read, and both have addresses in the image. These may be the same address, except for two
numbers, two constants and two different offsets from one label. A machine that stands at the move,
whatever is in the rest of the memory, executes it in four steps that write nothing but the
destination: this gets the value of the source if it is another cell, and is left at zero if it is
the same, so that the value is lost. -/
theorem mov_loses_value_of_same_cell {text : String} {listing before rest : Listing} {line : Line}
    {origin : Nat} {cells : List Int} {sizes : Measure} {destination source : Operand}
    (accepted : Listing.read text = .ok listing)
    (assembled : assemble text origin = .ok (cells, sizes))
    (split : listing = before ++ line :: rest)
    (has : line.statement = some (.mov destination source)) :
    destination ≠ source ∧
      ∃ writes reads : Int,
        (Layout.ofListing listing).resolve origin destination.term = .ok writes ∧
        (Layout.ofListing listing).resolve origin source.term = .ok reads ∧
        (writes = reads → destination.MayCoincide source) ∧
        ∀ (width x y : Nat) (machine : Machine), origin + cells.length ≤ 2 ^ (width - 1) →
          wrap width writes = x → wrap width reads = y → Apart (origin + before.size) 12 x →
          x ≠ listing.scratchAddress origin .zero →
          Facing listing origin width cells before (.mov destination source) machine →
          ∀ {σ : Type} (ports : Ports σ) (env : σ),
            Moves ports machine env (origin + before.size + 12 : Nat) x
              (if x = y then 0 else machine.memory.get y) := by
  have image := image_of_assemble accepted assembled
  have differ := Listing.operands_ne_of_read accepted line (by simp [split]) destination source has
  have resolves : ∀ operand ∈ [destination, source],
      ∃ value, (Layout.ofListing listing).resolve origin operand.term = .ok value := by
    intro operand own
    rw [split] at image ⊢
    exact Listing.exists_resolve_of_image image has own
  obtain ⟨writes, destinationAt⟩ := resolves destination (by simp)
  obtain ⟨reads, sourceAt⟩ := resolves source (by simp)
  refine ⟨differ, writes, reads, destinationAt, sourceAt, ?_, ?_⟩
  · rintro rfl
    refine Operand.mayCoincide_of_resolve differ ?_ destinationAt sourceAt
    rintro number rfl
    refine Listing.mem_poolFrom.mpr (Or.inr ⟨line, by simp [split], ?_⟩)
    simp [Line.operands, has, Statement.operands]
  · intro width x y machine small writesAt readsAt apart other facing σ ports env
    exact (placed_of_assemble accepted assembled small split has).moves facing
      ⟨writes, destinationAt, writesAt⟩ ⟨reads, sourceAt, readsAt⟩ apart other ports env

/-- A source that moves a cell to itself by two labels that stand for it. -/
def aliasedSource : String := "MOV a b\nHALT\na:\nb: DATA 65"

/-- The listing of `aliasedSource`. -/
def aliasedListing : Listing :=
  [{ statement := some (.mov (overflowName "a") (overflowName "b")) },
    { statement := some .halt },
    { label := some "a" },
    { label := some "b", statement := some (.data [.literal 65]) }]

/-- The image of `aliasedSource` for origin 100. -/
def aliasedImage : List Int :=
  [115, 115, 103, 115, 116, 106, 116, 115, 109, 116, 116, 112, 116, 116, -1, 65, 0, 0, 0]

/-- A machine that was loaded with `aliasedImage` and stands at its move. -/
def aliasedMachine : Machine :=
  { ((Machine.ofWidth 16).load aliasedImage (100 : Nat)).2 with pc := 100 }

/-- The move is accepted, and leaves zero in the cell that held 65. -/
theorem mov_loses_value_of_same_cell_aliased :
    Listing.read aliasedSource = .ok aliasedListing ∧
      assemble aliasedSource 100 = .ok (aliasedImage, ⟨19, 6, 0⟩) ∧
      aliasedMachine.memory.get 115 = 65 ∧
      Moves Tape.ports aliasedMachine {} 112 115 0 := by
  have accepted : Listing.read aliasedSource = .ok aliasedListing := by decide
  have assembled : assemble aliasedSource 100 = .ok (aliasedImage, ⟨19, 6, 0⟩) := by decide
  have split : aliasedListing = [] ++ aliasedListing := rfl
  obtain ⟨-, writes, reads, destinationAt, sourceAt, -, moves⟩ :=
    mov_loses_value_of_same_cell accepted assembled split rfl
  have destination : (Layout.ofListing aliasedListing).resolve 100 (overflowName "a").term =
      .ok 115 := by decide
  have source : (Layout.ofListing aliasedListing).resolve 100 (overflowName "b").term =
      .ok 115 := by decide
  cases destinationAt.symm.trans destination
  cases sourceAt.symm.trans source
  have facing : Facing aliasedListing 100 16 aliasedImage [] _ aliasedMachine :=
    (placed_of_assemble accepted assembled (by decide) split rfl).facing_load rfl rfl
  have held := @Machine.get_load (Machine.ofWidth 16) rfl aliasedImage 100
  exact ⟨accepted, assembled, by rw [aliasedMachine, held]; decide,
    moves 16 115 115 aliasedMachine (by decide) (by decide) (by decide) (Or.inr (by decide))
      (by decide) facing Tape.ports {}⟩

/-- Sources that move the cell at an address to itself: by two labels, by a label and its offset of
zero, by a label and a number, by a constant and the end of the image, and by a number and a
constant. -/
def aliasedSources : List (String × Nat) :=
  [(aliasedSource, 115), ("MOV a a+0\nHALT\na: DATA 65", 115),
    ("MOV a 115\nHALT\na: DATA 65", 115), ("MOV #65 __END-1\nHALT", 118),
    ("MOV 118 #65\nHALT", 118)]

/-- The addresses of a move that a source starts with. -/
def firstMove? (source : String) (origin : Int) :
    Option (Except Reason Int × Except Reason Int) :=
  match Listing.read source with
  | .error _ => none
  | .ok listing =>
      match listing.head?.bind Line.statement with
      | some (.mov destination operand) =>
          let layout := Layout.ofListing listing
          some (layout.resolve origin destination.term, layout.resolve origin operand.term)
      | _ => none

/-- However the two operands are written, a move of a cell to itself is accepted. -/
theorem mov_of_same_cell_is_accepted :
    aliasedSources.map (fun entry => (assemble entry.1 100).isOk) =
        [true, true, true, true, true] ∧
      aliasedSources.map (fun entry => firstMove? entry.1 100) =
        aliasedSources.map fun entry => some (.ok entry.2, .ok entry.2) := by
  decide

end Subleq.Assembly
