import Subleq.Proofs.Assembly.Expansion
import Subleq.Proofs.Assembly.Meaning

/-!
# Expansions do what statements mean

`Represents` relates a machine that runs an image to an execution of its listing: the code and the
pool are intact, the zero cell is zero, and the writable cells have the values the execution gives
them. The cells for differences may hold anything. Every statement that is confined to writable
cells keeps the relation: the machine gets, in some steps, to where the execution goes in one.
-/

namespace Subleq.Assembly

open Abstract (Lively Reaches)

namespace Listing

theorem next?_eq_some {lines rest : Listing} {statement : Statement}
    (next : lines.next? = some (statement, rest)) :
    ∃ labels line, lines = labels ++ line :: rest ∧ line.statement = some statement ∧
      size labels = 0 := by
  induction lines with
  | nil => simp [next?] at next
  | cons line lines ih =>
      rw [next?] at next
      split at next
      next found =>
        cases next
        exact ⟨[], line, rfl, found, rfl⟩
      next empty =>
        obtain ⟨labels, other, rfl, found, none⟩ := ih next
        refine ⟨line :: labels, other, rfl, found, ?_⟩
        simp [size, Line.size, empty, none]

theorem next?_append {lines rest : Listing} {statement : Statement}
    (next : lines.next? = some (statement, rest)) (others : Listing) :
    (lines ++ others).next? = some (statement, rest ++ others) := by
  induction lines with
  | nil => simp [next?] at next
  | cons line lines ih =>
      rw [next?] at next
      rw [List.cons_append, next?]
      cases has : line.statement with
      | some found =>
          simp only [has, Option.some.injEq, Prod.mk.injEq] at next ⊢
          obtain ⟨rfl, rfl⟩ := next
          exact ⟨rfl, rfl⟩
      | none =>
          simp only [has] at next ⊢
          exact ih next

theorem atMacro_append {lines : Listing} (atMacro : lines.atMacro = true) (others : Listing) :
    (lines ++ others).atMacro = true := by
  unfold Listing.atMacro at atMacro ⊢
  split at atMacro
  next statement rest next =>
    rw [next?_append next]
    exact atMacro
  · simp at atMacro

theorem counter_append (before lines : Listing) :
    counter (before ++ lines) (some lines) = (before.size : Int) := by
  simp [counter]

theorem address?_eq_some {listing : Listing} {operand : Operand} {position : Nat}
    (found : listing.address? operand = some position) :
    (Layout.ofListing listing).resolve 0 operand.term = .ok (position : Int) := by
  unfold address? at found
  split at found
  next value resolved =>
    split at found
    · cases found
      rw [resolved, Int.toNat_of_nonneg ‹_›]
    · simp at found
  · simp at found

theorem address?_of_denotes {listing : Listing} {operand : Operand}
    (denotes : (Layout.ofListing listing).Denotes operand.term) :
    listing.address? operand = some ((Layout.ofListing listing).address operand.term) := by
  rw [Layout.Denotes] at denotes
  simp [address?, denotes]

theorem isMacro_of_confines {listing : Listing} {writable : Nat → Prop} {statement : Statement}
    (confined : listing.Confines writable statement) : statement.isMacro = true := by
  cases statement with
  | data values => exact confined.elim
  | subleq a b target => exact confined.elim
  | _ => rfl

/-- Every operand of a confined statement is read, written or jumped to. -/
theorem operand_of_confines {listing : Listing} {writable : Nat → Prop} {statement : Statement}
    (confined : listing.Confines writable statement) {operand : Operand}
    (member : operand ∈ statement.operands) :
    listing.Reads writable operand ∨ listing.JumpsTo operand := by
  cases statement <;>
    simp only [Confines, Statement.operands, List.mem_cons, List.not_mem_nil, or_false]
      at confined member <;>
    grind [Reads]

/-- Operands that are read, written or jumped to resolve. -/
theorem exists_resolve {listing : Listing} (unreserved : listing.Unreserved)
    {writable : Nat → Prop} {operand : Operand}
    (confined : listing.Reads writable operand ∨ listing.JumpsTo operand) :
    ∃ value, (Layout.ofListing listing).resolve 0 operand.term = .ok value := by
  rcases confined with (isConstant | ⟨position, found, -⟩) | jumps
  · cases operand with
    | constant value => exact ⟨_, rfl⟩
    | literal value => simp [Operand.constant?] at isConstant
    | reference target => simp [Operand.constant?] at isConstant
  · exact ⟨position, address?_eq_some found⟩
  · cases operand with
    | literal value => exact jumps.elim
    | constant value => exact jumps.elim
    | reference target =>
        obtain ⟨noOffset, lines, found, -⟩ := jumps
        obtain ⟨before, -, position⟩ := position?_ofListing unreserved found
        exact ⟨_, by simp [Operand.term, Layout.resolve, Layout.resolveReference, position,
          noOffset]; rfl⟩

end Listing

theorem Operand.eq_constant_of_isSome (operand : Operand)
    (isConstant : operand.constant?.isSome = true) : ∃ value, operand = .constant value := by
  cases operand with
  | literal value => simp [constant?] at isConstant
  | constant value => exact ⟨value, rfl⟩
  | reference target => simp [constant?] at isConstant

theorem Layout.stands_of_getElem? {layout : Layout} {cell : Nat → Int} {start : Nat}
    {terms : List Term}
    (each : ∀ index term, terms[index]? = some term →
      layout.resolve 0 term = .ok (cell (start + index))) :
    layout.Stands cell start terms := by
  induction terms generalizing start with
  | nil => trivial
  | cons term terms ih =>
      constructor
      · exact each 0 term rfl
      · apply ih
        intro index other found
        rw [Nat.add_assoc, Nat.add_comm 1]
        exact each (index + 1) other found

namespace Statement

theorem terms_of_isMacro (statement : Statement) (isMacro : statement.isMacro = true)
    (start : Nat) : statement.terms start = layOut start (statement.instructions start) := by
  apply terms_eq_layOut
  rintro values rfl
  simp [Statement.isMacro] at isMacro

/-- The terms of a statement are those of its operands, scratch cells, positions up to its end, and
the mark of input, output and the halt. -/
theorem mem_terms {statement : Statement} (isMacro : statement.isMacro = true) {start : Nat}
    {term : Term} (member : term ∈ statement.terms start) :
    (∃ operand ∈ statement.operands, term = operand.term) ∨ (∃ scratch, term = .scratch scratch) ∨
      (∃ position ≤ start + statement.size, term = .position position) ∨ term = .value (-1) := by
  cases statement <;>
    simp only [Statement.isMacro, Bool.false_eq_true] at isMacro <;>
    simp [terms, instructions, layOut, Expansion.clear, Expansion.add, Expansion.subtract,
      Expansion.jump, Expansion.jumpUnlessPositive, Expansion.jumpIfEqual,
      Expansion.halfway, Expansion.equalityLength] at member <;>
    simp only [operands, size] <;>
    grind

end Statement

/-- An assembled listing, with the positions it may write and a width for which the addresses of its
image are values of cells. -/
structure Assembled where
  listing : Listing
  image : List Int
  width : Nat
  writable : Nat → Prop
  unreserved : listing.Unreserved
  assembled : listing.image (.ofListing listing) 0 = .ok image
  small : (image.length : Int) ≤ cellBound width
  inside : ∀ position, writable position → position < listing.size

namespace Assembled

variable (code : Assembled)

/-- Where the parts of the listing stand. -/
def layout : Layout := .ofListing code.listing

theorem size_layout : code.layout.size = code.listing.size := rfl

theorem length_image : code.image.length = code.listing.size + 3 + code.layout.pool.length :=
  Listing.length_image code.assembled

theorem fitsCell_address {position : Nat} (inside : position < code.image.length) :
    FitsCell code.width position := by
  have small := code.small
  have positive := cellBound_pos code.width
  exact ⟨by omega, by omega⟩

/-- The mark of input, output and the halt is a value of a cell. -/
theorem fitsCell_mark : FitsCell code.width (-1) := by
  have positive := cellBound_pos code.width
  exact ⟨by omega, by omega⟩

theorem width_positive : 0 < code.width := by
  rcases Nat.eq_zero_or_pos code.width with zero | positive
  · have small := code.small
    have length := code.length_image
    rw [zero, cellBound] at small
    omega
  · exact positive

theorem scratch_lt (scratch : Scratch) :
    code.layout.address (.scratch scratch) < code.image.length := by
  have length := code.length_image
  rw [Layout.address_scratch, size_layout]
  cases scratch <;> simp only [Scratch.place] <;> omega

/-! ## Operands -/

theorem writes_spec {operand : Operand} (writes : code.listing.Writes code.writable operand) :
    code.layout.resolve 0 operand.term = .ok (code.listing.address operand : Int) ∧
      code.writable (code.listing.address operand) := by
  obtain ⟨position, found, writable⟩ := writes
  rw [Option.mem_def] at found
  have address : code.listing.address operand = position := by
    simp [Listing.address, found]
  rw [address]
  exact ⟨Listing.address?_eq_some found, writable⟩

/-- A jump target stands for the position of the lines it leads to. -/
theorem jumpsTo_spec {target : Operand} (jumps : code.listing.JumpsTo target) :
    ∃ before lines, code.listing = before ++ lines ∧ code.listing.target? target = some lines ∧
      code.layout.resolve 0 target.term = .ok (before.size : Int) := by
  cases target with
  | literal value => exact jumps.elim
  | constant value => exact jumps.elim
  | reference reference =>
      obtain ⟨noOffset, lines, found, -⟩ := jumps
      obtain ⟨before, split, position⟩ := Listing.position?_ofListing code.unreserved found
      refine ⟨before, lines, split, found, ?_⟩
      simp [layout, Operand.term, Layout.resolve, Layout.resolveReference, position, noOffset]

/-- Whether some line has an operand. -/
def Uses (operand : Operand) : Prop := ∃ line ∈ code.listing, operand ∈ line.operands

theorem constant_spec {value : Int} (used : code.Uses (.constant value)) :
    ∃ place : Nat, code.layout.resolve 0 (.constant value) = .ok (place : Int) ∧
      code.image[place]? = some value ∧ code.listing.size + 3 ≤ place := by
  have pooled : value ∈ code.layout.pool := Listing.mem_poolFrom.mpr (Or.inr used)
  refine ⟨Layout.poolStart code.listing.size + code.layout.pool.idxOf value, ?_,
    Listing.getElem?_image_constant code.assembled pooled, ?_⟩
  · simp [Layout.resolve, size_layout]
  · simp [Layout.poolStart, Scratch.all]

/-- The operands of confined statements stand for values of cells. -/
theorem fitsCell_operand {operand : Operand} (used : code.Uses operand)
    (confined : code.listing.Reads code.writable operand ∨ code.listing.JumpsTo operand)
    {value : Int} (resolved : code.layout.resolve 0 operand.term = .ok value) :
    FitsCell code.width value := by
  have length := code.length_image
  rcases confined with (isConstant | writes) | jumps
  · obtain ⟨number, rfl⟩ := operand.eq_constant_of_isSome isConstant
    obtain ⟨place, denotes, held, -⟩ := code.constant_spec used
    have inside := (List.getElem?_eq_some_iff.mp held).1
    rw [Operand.term, denotes, Except.ok.injEq] at resolved
    exact resolved ▸ code.fitsCell_address inside
  · obtain ⟨denotes, writable⟩ := code.writes_spec writes
    have inside := code.inside _ writable
    rw [denotes, Except.ok.injEq] at resolved
    exact resolved ▸ code.fitsCell_address (by omega)
  · obtain ⟨before, lines, split, -, denotes⟩ := code.jumpsTo_spec jumps
    have inside : code.listing.size = before.size + lines.size := by
      rw [split, Listing.size_append]
    rw [denotes, Except.ok.injEq] at resolved
    exact resolved ▸ code.fitsCell_address (by omega)

end Assembled

/-- The machine runs the image of a listing, and it stands where the execution stands. -/
structure Represents (code : Assembled) (machine : Abstract) (execution : Execution) : Prop where
  width : machine.width = code.width
  staged : machine.staged = execution.staged
  placed : ∀ lines ∈ execution.lines, lines <:+ code.listing
  pc : machine.pc = code.listing.counter execution.lines
  fits : ∀ position, FitsCell code.width (machine.cell position)
  written : ∀ position, code.writable position → machine.cell position = execution.cells position
  intact : ∀ position value, code.image[position]? = some value → ¬code.writable position →
    position ≠ code.layout.address Expansion.difference →
    position ≠ code.layout.address Expansion.opposite →
    machine.cell position = wrap code.width value

namespace Represents

variable {code : Assembled} {machine : Abstract} {execution : Execution}

theorem isZero (represents : Represents code machine execution) :
    machine.cell (code.layout.address Expansion.zero) = 0 := by
  have held := Listing.getElem?_image_scratch code.assembled .zero
  rw [← code.size_layout, ← Layout.address_scratch] at held
  rw [represents.intact _ 0 held, wrap_zero]
  · intro writable
    have inside := code.inside _ writable
    rw [Layout.address_scratch, code.size_layout] at inside
    omega
  · exact code.layout.address_zero_ne .difference (by decide)
  · exact code.layout.address_zero_ne .opposite (by decide)

theorem reads_spec (represents : Represents code machine execution) {operand : Operand}
    (used : code.Uses operand) (reads : code.listing.Reads code.writable operand) :
    code.layout.Denotes operand.term ∧
      (∀ scratch, code.layout.address operand.term ≠ code.layout.address (.scratch scratch)) ∧
      machine.cell (code.layout.address operand.term) =
        code.listing.value code.width execution.cells operand := by
  have scratchPlace : ∀ scratch, code.listing.size ≤ code.layout.address (.scratch scratch) ∧
      code.layout.address (.scratch scratch) < code.listing.size + 3 := by
    intro scratch
    rw [Layout.address_scratch, code.size_layout]
    cases scratch <;> simp [Scratch.place]
  by_cases isConstant : operand.constant?.isSome = true
  · obtain ⟨number, rfl⟩ := operand.eq_constant_of_isSome isConstant
    obtain ⟨place, denotes, held, behind⟩ := code.constant_spec used
    have distinct : ∀ scratch, place ≠ code.layout.address (.scratch scratch) := by
      intro scratch
      have upper := (scratchPlace scratch).2
      omega
    rw [Operand.term, Layout.address_eq denotes]
    refine ⟨Layout.denotes_of_resolve denotes, distinct, ?_⟩
    apply represents.intact place number held
    · intro writable
      have inside := code.inside _ writable
      omega
    · exact distinct .difference
    · exact distinct .opposite
  · obtain ⟨denotes, writable⟩ := code.writes_spec (reads.resolve_left isConstant)
    rw [Layout.address_eq denotes]
    refine ⟨Layout.denotes_of_resolve denotes, ?_, ?_⟩
    · intro scratch
      have inside := code.inside _ writable
      have lower := (scratchPlace scratch).1
      omega
    · rw [represents.written _ writable]
      cases operand with
      | constant value => exact absurd rfl isConstant
      | literal value => rfl
      | reference target => rfl

/-- The machine writes a cell as the execution does, and goes on with it. -/
theorem assign (represents : Represents code machine execution) {position : Nat} {value : Int}
    (writable : code.writable position) (fits : FitsCell code.width value) {lines : Listing}
    (placed : lines <:+ code.listing) {pc : Int} (goes : pc = code.listing.counter (some lines)) :
    Represents code (machine.moved (Function.update machine.cell position value) pc)
      ((execution.write position value).goOn lines) where
  width := represents.width
  staged := represents.staged
  placed := by
    rintro _ ⟨⟩
    exact placed
  pc := goes
  fits := fitsCell_update represents.fits position fits
  written := by
    intro other otherWritable
    simp only [Abstract.cell_moved, Execution.goOn, Execution.write, Function.update_apply,
      represents.written other otherWritable]
  intact := by
    intro other held inImage fixed notDifference notOpposite
    rw [Abstract.cell_moved, Function.update_of_ne]
    · exact represents.intact other held inImage fixed notDifference notOpposite
    · rintro rfl
      exact fixed writable

/-- The machine goes on with the execution and changes at most the cells for differences. -/
theorem goTo (represents : Represents code machine execution) {lines : Option Listing}
    (placed : ∀ following ∈ lines, following <:+ code.listing) {pc : Int}
    (goes : pc = code.listing.counter lines) {cell : Nat → Int}
    (kept : ∀ position, position ≠ code.layout.address Expansion.difference →
      position ≠ code.layout.address Expansion.opposite → cell position = machine.cell position)
    (fits : ∀ position, FitsCell code.width (cell position)) :
    Represents code (machine.moved cell pc) { execution with lines } where
  width := represents.width
  staged := represents.staged
  placed := placed
  pc := goes
  fits := fits
  written := by
    intro position writable
    have apart : ∀ scratch, position ≠ code.layout.address (.scratch scratch) := by
      intro scratch
      have inside := code.inside _ writable
      rw [Layout.address_scratch, code.size_layout]
      omega
    rw [Abstract.cell_moved, kept position (apart .difference) (apart .opposite)]
    exact represents.written position writable
  intact := by
    intro position held inImage fixed notDifference notOpposite
    rw [Abstract.cell_moved, kept position notDifference notOpposite]
    exact represents.intact position held inImage fixed notDifference notOpposite

theorem restage (represents : Represents code machine execution) (staged : List Int) :
    Represents code { machine with staged } { execution with staged } where
  width := represents.width
  staged := rfl
  placed := represents.placed
  pc := represents.pc
  fits := represents.fits
  written := represents.written
  intact := represents.intact

/-- The statement that is executed next stands where the machine stands. -/
theorem facing (represents : Represents code machine execution) {lines rest : Listing}
    {statement : Statement} (here : execution.lines = some lines)
    (next : lines.next? = some (statement, rest)) :
    ∃ before line, code.listing = before ++ line :: rest ∧ line.statement = some statement ∧
      machine.pc = (before.size : Int) := by
  obtain ⟨labels, line, rfl, has, empty⟩ := Listing.next?_eq_some next
  obtain ⟨before, split⟩ := represents.placed _ here
  refine ⟨before ++ labels, line, by rw [← split, List.append_assoc], has, ?_⟩
  rw [represents.pc, here, ← split, Listing.counter_append, Listing.size_append, empty,
    Nat.add_zero]

theorem skip (represents : Represents code machine execution) {line : Line} {rest : Listing}
    (here : execution.lines = some (line :: rest)) (empty : line.statement = none) :
    Represents code machine (execution.goOn rest) where
  width := represents.width
  staged := represents.staged
  placed := by
    rintro _ ⟨⟩
    exact (List.suffix_cons line rest).trans (represents.placed _ here)
  pc := by
    rw [represents.pc, here]
    simp [Execution.goOn, Listing.counter, Listing.size, Line.size, empty]
  fits := represents.fits
  written := represents.written
  intact := represents.intact

end Represents

/-- A statement of a listing that is confined to writable cells, and is not writable itself. -/
structure Sound (code : Assembled) (before : Listing) (line : Line) (rest : Listing)
    (statement : Statement) : Prop where
  split : code.listing = before ++ line :: rest
  has : line.statement = some statement
  confined : code.listing.Confines code.writable statement
  fixed : ∀ index < statement.size, ¬code.writable (before.size + index)

namespace Sound

variable {code : Assembled} {before rest : Listing} {line : Line} {statement : Statement}

theorem isMacro (sound : Sound code before line rest statement) : statement.isMacro = true :=
  Listing.isMacro_of_confines sound.confined

theorem uses (sound : Sound code before line rest statement) {operand : Operand}
    (member : operand ∈ statement.operands) : code.Uses operand := by
  refine ⟨line, ?_, ?_⟩
  · rw [sound.split]
    exact List.mem_append_right before List.mem_cons_self
  · simp [Line.operands, sound.has, member]

/-- Every operand of a confined statement is read, written or jumped to. -/
theorem operand_confined (sound : Sound code before line rest statement) {operand : Operand}
    (member : operand ∈ statement.operands) :
    code.listing.Reads code.writable operand ∨ code.listing.JumpsTo operand :=
  Listing.operand_of_confines sound.confined member

theorem size_listing (sound : Sound code before line rest statement) :
    before.size + statement.size ≤ code.listing.size := by
  rw [sound.split, Listing.size_append, Listing.size, Line.size, sound.has]
  simp

theorem placed (sound : Sound code before line rest statement) : rest <:+ code.listing := by
  rw [sound.split]
  exact ⟨before ++ [line], by simp⟩

/-- The lines behind a statement begin behind its cells. -/
theorem counter_rest (sound : Sound code before line rest statement) :
    code.listing.counter (some rest) = (before.size + statement.size : Nat) := by
  have sizes : (before ++ [line]).size = before.size + statement.size := by
    simp [Listing.size, Line.size, sound.has]
  have split : code.listing = (before ++ [line]) ++ rest := by
    rw [sound.split, List.append_assoc, List.singleton_append]
  rw [split, Listing.counter_append, sizes]

/-- A cell that is written is none of the cells of the statement. -/
theorem apart (sound : Sound code before line rest statement) {operand : Operand}
    (writes : code.listing.Writes code.writable operand) :
    Apart before.size statement.size (code.layout.address operand.term) := by
  obtain ⟨denotes, writable⟩ := code.writes_spec writes
  rw [Layout.address_eq denotes]
  by_contra inside
  rw [Apart, not_or, Nat.not_lt, Nat.not_le] at inside
  apply sound.fixed (code.listing.address operand - before.size) (by omega)
  rw [Nat.add_sub_cancel' inside.1]
  exact writable

end Sound

namespace Represents

variable {code : Assembled} {machine : Abstract} {execution : Execution} {before rest : Listing}
  {line : Line} {statement : Statement}

theorem stands (represents : Represents code machine execution)
    (sound : Sound code before line rest statement) :
    code.layout.Stands machine.cell before.size (statement.terms before.size) := by
  have size := sound.size_listing
  have length := code.length_image
  have assembled : (before ++ line :: rest).image code.layout 0 = .ok code.image := by
    rw [← sound.split]
    exact code.assembled
  apply Layout.stands_of_getElem?
  intro index term found
  obtain ⟨value, resolved, held⟩ := Listing.getElem?_image_statement assembled sound.has found
  have inside : index < statement.size := by
    rw [← Statement.length_terms before.size statement]
    exact (List.getElem?_eq_some_iff.mp found).1
  have notScratch : ∀ scratch,
      before.size + index ≠ code.layout.address (.scratch scratch) := by
    intro scratch
    rw [Layout.address_scratch, code.size_layout]
    omega
  have fits : FitsCell code.width value := by
    rcases Statement.mem_terms sound.isMacro (List.mem_of_getElem? found) with
      ⟨operand, member, rfl⟩ | ⟨scratch, rfl⟩ | ⟨position, upper, rfl⟩ | rfl
    · exact code.fitsCell_operand (sound.uses member) (sound.operand_confined member) resolved
    · rw [code.layout.denotes_scratch, Except.ok.injEq] at resolved
      exact resolved ▸ code.fitsCell_address (code.scratch_lt scratch)
    · rw [code.layout.resolve_position, Except.ok.injEq] at resolved
      exact resolved ▸ code.fitsCell_address (by omega)
    · cases resolved
      exact code.fitsCell_mark
  rw [represents.intact _ value held (sound.fixed index inside) (notScratch .difference)
    (notScratch .opposite), wrap_of_fitsCell code.width_positive fits, resolved]

/-- The machine stands at the instructions of the statement. -/
theorem poised (represents : Represents code machine execution)
    (sound : Sound code before line rest statement) (pc : machine.pc = (before.size : Int)) :
    Poised code.layout machine before.size (statement.instructions before.size) := by
  have stands := represents.stands sound
  have below := sound.size_listing
  have length := Statement.length_terms before.size statement
  rw [statement.terms_of_isMacro sound.isMacro before.size] at stands length
  rw [length_layOut] at length
  refine ⟨pc, stands, by rw [code.size_layout]; omega, represents.isZero, ?_, ?_⟩
  · rw [represents.width]
    exact code.width_positive
  · rw [represents.width]
    exact represents.fits

end Represents

/-- The machine gets to where the execution gets by a statement, or fails with it. -/
def Follows {σ : Type} (code : Assembled) (ports : Ports σ) (stop : Abstract → Bool)
    (machine : Abstract) (env : σ) (executed : Executed σ) : Prop :=
  match executed.fault with
  | none =>
      ∃ count after, 0 < count ∧ Reaches ports stop count machine env after executed.env ∧
        Represents code after executed.execution
  | some fault =>
      stop machine = false ∧
        machine.step ports env =
          { machine, env := executed.env, fault := some (.port fault) } ∧
        Represents code machine executed.execution

namespace Represents

variable {σ : Type} {code : Assembled} {machine : Abstract} {execution : Execution}
  {before rest : Listing} {line : Line} {ports : Ports σ} {stop : Abstract → Bool} {env : σ}

/-- The machine follows an assignment once it has written the cell. -/
theorem follows_assign (represents : Represents code machine execution) {statement : Statement}
    (sound : Sound code before line rest statement) {destination : Operand}
    (writes : code.listing.Writes code.writable destination) {value : Int}
    (fits : FitsCell code.width value) {count : Nat} (some : 0 < count)
    (reached : Reaches ports stop count machine env
      (machine.moved
        (Function.update machine.cell (code.layout.address destination.term) value)
        (before.size + statement.size : Nat)) env) :
    Follows code ports stop machine env
      { execution := (execution.write (code.listing.address destination) value).goOn rest,
        env } := by
  obtain ⟨denotes, writable⟩ := code.writes_spec writes
  rw [Layout.address_eq denotes] at reached
  exact ⟨count, _, some, reached,
    represents.assign writable fits sound.placed sound.counter_rest.symm⟩

theorem follows_clr (represents : Represents code machine execution) {cell : Operand}
    (sound : Sound code before line rest (.clr cell)) (pc : machine.pc = (before.size : Int))
    (lively : Lively stop) :
    Follows code ports stop machine env
      { execution := (execution.write (code.listing.address cell) 0).goOn rest, env } := by
  have writes := sound.confined
  obtain ⟨denotes, -, -⟩ := represents.reads_spec (sound.uses (by simp [Statement.operands]))
    (Or.inr writes)
  have reached := (represents.poised sound pc).reaches_difference ports env lively denotes denotes
    (sound.apart writes)
  have fits := fitsCell_wrap code.width_positive 0
  rw [wrap_zero] at fits
  rw [Int.sub_self, wrap_zero] at reached
  exact represents.follows_assign sound writes fits Nat.one_pos reached

theorem follows_mov (represents : Represents code machine execution) {destination source : Operand}
    (sound : Sound code before line rest (.mov destination source))
    (pc : machine.pc = (before.size : Int)) (lively : Lively stop) :
    Follows code ports stop machine env
      { execution := (execution.write (code.listing.address destination)
          (code.listing.value code.width execution.cells source)).goOn rest, env } := by
  obtain ⟨writes, reads, distinct⟩ := sound.confined
  obtain ⟨denotes, notScratch, -⟩ := represents.reads_spec
    (sound.uses (by simp [Statement.operands])) (Or.inr writes)
  obtain ⟨sourceDenotes, -, held⟩ := represents.reads_spec
    (sound.uses (by simp [Statement.operands])) reads
  have different : code.layout.address destination.term ≠ code.layout.address source.term := by
    intro same
    apply distinct
    rw [Listing.address?_of_denotes denotes, Listing.address?_of_denotes sourceDenotes]
    exact congrArg some same
  have fits := represents.fits (code.layout.address source.term)
  have reached := (represents.poised sound pc).reaches_move ports env lively denotes sourceDenotes
    (sound.apart writes) (notScratch .zero) different
  rw [held] at reached fits
  exact represents.follows_assign sound writes fits (by decide) reached

theorem follows_add (represents : Represents code machine execution) {destination source : Operand}
    (sound : Sound code before line rest (.add destination source))
    (pc : machine.pc = (before.size : Int)) (lively : Lively stop) :
    Follows code ports stop machine env
      { execution := (execution.write (code.listing.address destination)
          (wrap code.width (code.listing.value code.width execution.cells destination +
            code.listing.value code.width execution.cells source))).goOn rest, env } := by
  obtain ⟨writes, reads⟩ := sound.confined
  obtain ⟨denotes, notScratch, old⟩ := represents.reads_spec
    (sound.uses (by simp [Statement.operands])) (Or.inr writes)
  obtain ⟨sourceDenotes, -, held⟩ := represents.reads_spec
    (sound.uses (by simp [Statement.operands])) reads
  have reached := (represents.poised sound pc).reaches_add ports env lively denotes sourceDenotes
    (sound.apart writes) (notScratch .zero)
  rw [old, held, represents.width] at reached
  exact represents.follows_assign sound writes (fitsCell_wrap code.width_positive _) (by decide)
    reached

theorem follows_sub (represents : Represents code machine execution) {destination source : Operand}
    (sound : Sound code before line rest (.sub destination source))
    (pc : machine.pc = (before.size : Int)) (lively : Lively stop) :
    Follows code ports stop machine env
      { execution := (execution.write (code.listing.address destination)
          (wrap code.width (code.listing.value code.width execution.cells destination -
            code.listing.value code.width execution.cells source))).goOn rest, env } := by
  obtain ⟨writes, reads⟩ := sound.confined
  obtain ⟨denotes, -, old⟩ := represents.reads_spec
    (sound.uses (by simp [Statement.operands])) (Or.inr writes)
  obtain ⟨sourceDenotes, -, held⟩ := represents.reads_spec
    (sound.uses (by simp [Statement.operands])) reads
  have reached := (represents.poised sound pc).reaches_difference ports env lively denotes
    sourceDenotes (sound.apart writes)
  rw [old, held, represents.width] at reached
  exact represents.follows_assign sound writes (fitsCell_wrap code.width_positive _) (by decide)
    reached

/-- Only here does it matter whether the machine may start a step: a condition to stop may look at
instructions that read. -/
theorem follows_inp (represents : Represents code machine execution) {cell : Operand}
    (sound : Sound code before line rest (.inp cell)) (pc : machine.pc = (before.size : Int))
    (active : stop machine = false) {executed : Executed σ}
    (does : code.listing.execute code.width ports rest execution env (.inp cell) =
      some executed) :
    Follows code ports stop machine env executed := by
  obtain ⟨denotes, writable⟩ := code.writes_spec sound.confined
  obtain ⟨cellA, cellB, -⟩ := represents.stands sound
  rw [Layout.resolve, Except.ok.injEq] at cellA
  rw [denotes, Except.ok.injEq] at cellB
  have stepped := Abstract.step_input ports env pc cellA.symm cellB.symm
  simp only [Listing.execute, ← represents.staged] at does
  cases read : Machine.nextCode ports machine.staged env with
  | mk result after =>
      cases result with
      | error fault =>
          simp only [read, Option.some.injEq] at does stepped
          subst does
          exact ⟨active, stepped, represents⟩
      | ok next =>
          obtain ⟨number, staged⟩ := next
          simp only [read, Option.some.injEq] at does stepped
          subst does
          refine ⟨1, _, Nat.one_pos, .single active stepped, ?_⟩
          have assigned := represents.assign writable (fitsCell_wrap code.width_positive number)
            sound.placed sound.counter_rest.symm
          rw [represents.width]
          exact ⟨assigned.width, rfl, assigned.placed, assigned.pc, assigned.fits,
            assigned.written, assigned.intact⟩

theorem follows_out (represents : Represents code machine execution) {cell : Operand}
    (sound : Sound code before line rest (.out cell)) (pc : machine.pc = (before.size : Int))
    (active : stop machine = false) {executed : Executed σ}
    (does : code.listing.execute code.width ports rest execution env (.out cell) =
      some executed) :
    Follows code ports stop machine env executed := by
  obtain ⟨denotes, -, held⟩ := represents.reads_spec (sound.uses (by simp [Statement.operands]))
    sound.confined
  obtain ⟨cellA, cellB, -⟩ := represents.stands sound
  rw [denotes, Except.ok.injEq] at cellA
  rw [Layout.resolve, Except.ok.injEq] at cellB
  have stepped := Abstract.step_output ports env pc cellA.symm cellB.symm
  simp only [Listing.execute, ← held] at does
  cases emitted : ports.sink (machine.cell (code.layout.address cell.term)) env with
  | mk result after =>
      cases result with
      | error fault =>
          simp only [emitted, Option.some.injEq] at does stepped
          subst does
          exact ⟨active, stepped, represents⟩
      | ok _ =>
          simp only [emitted, Option.some.injEq] at does stepped
          subst does
          refine ⟨1, _, Nat.one_pos, .single active stepped, ?_⟩
          apply represents.goTo
          · rintro _ ⟨⟩
            exact sound.placed
          · exact sound.counter_rest.symm
          · intro position _ _
            rfl
          · exact represents.fits

/-- The machine follows a branch once it has got to where the branch goes. -/
theorem follows_branch (represents : Represents code machine execution) {statement : Statement}
    (sound : Sound code before line rest statement) {target : Operand}
    (jumps : code.listing.JumpsTo target) {condition : Prop} [Decidable condition]
    {executed : Executed σ}
    (does : code.listing.branch condition target rest execution env = some executed)
    (reached : ∀ next, code.layout.resolve 0 target.term = .ok next → -1 ≤ next →
      ∃ count cell, 0 < count ∧
        Reaches ports stop count machine env
          (machine.moved cell
            (if condition then next else (before.size + statement.size : Nat))) env ∧
        (∀ position, position ≠ code.layout.address Expansion.difference →
          position ≠ code.layout.address Expansion.opposite →
          cell position = machine.cell position) ∧
        ∀ position, FitsCell code.width (cell position)) :
    Follows code ports stop machine env executed := by
  obtain ⟨front, lines, split, found, denotes⟩ := code.jumpsTo_spec jumps
  obtain ⟨count, cell, some, path, kept, fits⟩ := reached front.size denotes (by omega)
  unfold Listing.branch at does
  by_cases taken : condition
  · rw [if_pos taken] at does path
    simp only [found, Option.map_some, Option.some.injEq] at does
    subst does
    refine ⟨count, _, some, path, represents.goTo ?_ ?_ kept fits⟩
    · rintro _ ⟨⟩
      exact ⟨front, split.symm⟩
    · rw [split, Listing.counter_append]
  · rw [if_neg taken] at does path
    cases does
    refine ⟨count, _, some, path, represents.goTo ?_ ?_ kept fits⟩
    · rintro _ ⟨⟩
      exact sound.placed
    · exact sound.counter_rest.symm

theorem follows_jmp (represents : Represents code machine execution) {target : Operand}
    (sound : Sound code before line rest (.jmp target)) (pc : machine.pc = (before.size : Int))
    (lively : Lively stop) {executed : Executed σ}
    (does : code.listing.execute code.width ports rest execution env (.jmp target) =
      some executed) :
    Follows code ports stop machine env executed := by
  apply represents.follows_branch sound sound.confined does
  intro next resolved valid
  have reached := (represents.poised sound pc).reaches_jump ports env lively resolved valid
  refine ⟨1, machine.cell, Nat.one_pos, ?_, fun _ _ _ => rfl, represents.fits⟩
  rw [if_pos trivial]
  exact reached

theorem follows_halt (represents : Represents code machine execution)
    (sound : Sound code before line rest .halt) (pc : machine.pc = (before.size : Int))
    (lively : Lively stop) :
    Follows code ports stop machine env
      { execution := { execution with lines := none }, env } := by
  have reached := (represents.poised sound pc).reaches_jump ports env lively rfl (le_refl (-1))
  refine ⟨1, _, Nat.one_pos, reached, ?_⟩
  apply represents.goTo
  · rintro _ ⟨⟩
  · rfl
  · intro position _ _
    rfl
  · exact represents.fits

theorem follows_jlez (represents : Represents code machine execution) {cell target : Operand}
    (sound : Sound code before line rest (.jlez cell target))
    (pc : machine.pc = (before.size : Int)) (lively : Lively stop) {executed : Executed σ}
    (does : code.listing.execute code.width ports rest execution env (.jlez cell target) =
      some executed) :
    Follows code ports stop machine env executed := by
  obtain ⟨reads, jumps⟩ := sound.confined
  obtain ⟨denotes, -, held⟩ := represents.reads_spec (sound.uses (by simp [Statement.operands]))
    reads
  apply represents.follows_branch sound jumps does
  intro next resolved valid
  have reached := (represents.poised sound pc).reaches_jumpUnlessPositive ports env lively denotes
    resolved valid
  rw [held] at reached
  exact ⟨1, machine.cell, Nat.one_pos, reached, fun _ _ _ => rfl, represents.fits⟩

theorem follows_jle (represents : Represents code machine execution)
    {left right target : Operand} (sound : Sound code before line rest (.jle left right target))
    (pc : machine.pc = (before.size : Int)) (lively : Lively stop) {executed : Executed σ}
    (does : code.listing.execute code.width ports rest execution env (.jle left right target) =
      some executed) :
    Follows code ports stop machine env executed := by
  obtain ⟨leftReads, rightReads, jumps⟩ := sound.confined
  obtain ⟨leftDenotes, leftOther, leftHeld⟩ := represents.reads_spec
    (sound.uses (by simp [Statement.operands])) leftReads
  obtain ⟨rightDenotes, rightOther, rightHeld⟩ := represents.reads_spec
    (sound.uses (by simp [Statement.operands])) rightReads
  apply represents.follows_branch sound jumps does
  intro next resolved valid
  have reached := (represents.poised sound pc).reaches_jumpUnlessGreater ports env lively
    leftDenotes rightDenotes (leftOther .difference) (rightOther .difference) resolved valid
  rw [leftHeld, rightHeld, represents.width] at reached
  refine ⟨6, _, by decide, reached, ?_, ?_⟩
  · intro position notDifference _
    exact Function.update_of_ne notDifference ..
  · exact fitsCell_update represents.fits _ (fitsCell_wrap code.width_positive _)

theorem follows_jeq (represents : Represents code machine execution)
    {left right target : Operand} (sound : Sound code before line rest (.jeq left right target))
    (pc : machine.pc = (before.size : Int)) (lively : Lively stop) {executed : Executed σ}
    (does : code.listing.execute code.width ports rest execution env (.jeq left right target) =
      some executed) :
    Follows code ports stop machine env executed := by
  obtain ⟨leftReads, rightReads, jumps⟩ := sound.confined
  obtain ⟨leftDenotes, leftOther, leftHeld⟩ := represents.reads_spec
    (sound.uses (by simp [Statement.operands])) leftReads
  obtain ⟨rightDenotes, rightOther, rightHeld⟩ := represents.reads_spec
    (sound.uses (by simp [Statement.operands])) rightReads
  apply represents.follows_branch sound jumps does
  intro next resolved valid
  have reached := (represents.poised sound pc).reaches_jumpIfEqual ports env lively
    leftDenotes rightDenotes (leftOther .difference) (rightOther .difference) resolved valid
  rw [leftHeld, rightHeld, represents.width] at reached
  exact reached

/-- A machine at a statement is at rest only if the statement reads and nothing is staged. -/
theorem idle_eq_false (represents : Represents code machine execution) {statement : Statement}
    (sound : Sound code before line rest statement) (pc : machine.pc = (before.size : Int))
    (fed : ∀ cell, statement = .inp cell → execution.staged ≠ []) : machine.idle = false := by
  have first := represents.stands sound
  have denotes : ∀ operand ∈ statement.operands, code.listing.Reads code.writable operand →
      code.layout.resolve 0 operand.term = .ok (machine.cell before.size) →
      machine.cell before.size ≠ -1 := by
    intro operand member reads resolved
    obtain ⟨place, -, -⟩ := represents.reads_spec (sound.uses member) reads
    rw [place, Except.ok.injEq] at resolved
    omega
  have scratch : ∀ scratch,
      code.layout.resolve 0 (.scratch scratch) = .ok (machine.cell before.size) →
      machine.cell before.size ≠ -1 := by
    intro scratch resolved
    rw [code.layout.denotes_scratch, Except.ok.injEq] at resolved
    omega
  have live : machine.cell before.size ≠ -1 → machine.idle = false := by
    intro instruction
    apply Abstract.lively_idle
    · omega
    · rw [pc, Int.toNat_natCast]
      exact instruction
  have confined := sound.confined
  cases statement with
  | clr cell => exact live (denotes cell (by simp [Statement.operands]) (Or.inr confined) first.1)
  | mov destination source =>
      exact live (denotes destination (by simp [Statement.operands]) (Or.inr confined.1) first.1)
  | add destination source =>
      exact live (denotes source (by simp [Statement.operands]) confined.2 first.1)
  | sub destination source =>
      exact live (denotes source (by simp [Statement.operands]) confined.2 first.1)
  | inp cell =>
      have queued := fed cell rfl
      rw [← represents.staged] at queued
      simp [Abstract.idle, Abstract.waiting, queued,
        Abstract.halted_of_nonneg (show 0 ≤ machine.pc by omega)]
  | out cell => exact live (denotes cell (by simp [Statement.operands]) confined first.1)
  | jmp target => exact live (scratch .zero first.1)
  | halt => exact live (scratch .zero first.1)
  | jlez cell target => exact live (scratch .zero first.1)
  | jle left right target => exact live (scratch .difference first.1)
  | jeq left right target => exact live (scratch .difference first.1)
  | data values => exact confined.elim
  | subleq a b target => exact confined.elim

/-- A machine at a statement that reads is at rest if nothing is staged. -/
theorem idle_of_input (represents : Represents code machine execution) {cell : Operand}
    (sound : Sound code before line rest (.inp cell)) (pc : machine.pc = (before.size : Int))
    (empty : execution.staged = []) : machine.idle = true := by
  obtain ⟨mark, -⟩ := represents.stands sound
  have marked : machine.cell before.size = -1 := (Except.ok.inj mark).symm
  have queue : machine.staged = [] := represents.staged.trans empty
  simp [Abstract.idle, Abstract.waiting, pc, marked, queue]

theorem follows (represents : Represents code machine execution) {statement : Statement}
    (sound : Sound code before line rest statement) (pc : machine.pc = (before.size : Int))
    (lively : Lively stop) (active : stop machine = false) {executed : Executed σ}
    (does : code.listing.execute code.width ports rest execution env statement = some executed) :
    Follows code ports stop machine env executed := by
  cases statement with
  | clr cell =>
      cases does
      exact represents.follows_clr sound pc lively
  | mov destination source =>
      cases does
      exact represents.follows_mov sound pc lively
  | add destination source =>
      cases does
      exact represents.follows_add sound pc lively
  | sub destination source =>
      cases does
      exact represents.follows_sub sound pc lively
  | inp cell => exact represents.follows_inp sound pc active does
  | out cell => exact represents.follows_out sound pc active does
  | jmp target => exact represents.follows_jmp sound pc lively does
  | halt =>
      cases does
      exact represents.follows_halt sound pc lively
  | jlez cell target => exact represents.follows_jlez sound pc lively does
  | jle left right target => exact represents.follows_jle sound pc lively does
  | jeq left right target => exact represents.follows_jeq sound pc lively does
  | data values => exact sound.confined.elim
  | subleq a b target => exact sound.confined.elim

/-- The machine follows the next statement, if it is confined. -/
theorem follows_step (represents : Represents code machine execution) {lines : Listing}
    {statement : Statement} (here : execution.lines = some lines)
    (next : lines.next? = some (statement, rest))
    (sound : ∀ before line, code.listing = before ++ line :: rest →
      line.statement = some statement → Sound code before line rest statement)
    (lively : Lively stop) (active : stop machine = false) {executed : Executed σ}
    (does : code.listing.step code.width ports execution env = some executed) :
    Follows code ports stop machine env executed := by
  obtain ⟨before, line, split, has, pc⟩ := represents.facing here next
  simp only [Listing.step, here, next] at does
  exact represents.follows (sound before line split has) pc lively active does

end Represents

end Subleq.Assembly
