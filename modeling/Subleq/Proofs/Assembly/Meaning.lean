import Subleq.Machine.Step
import Subleq.Proofs.Assembly.Layout
import Subleq.Proofs.Cell

/-!
# What a listing means

The statements of a listing, executed one by one on the cells of its plain data. Nothing here knows
how a statement expands: a move is an assignment, a jump goes on at the lines behind a label. Cells
are named by their positions in the image, because an operand may be a number or a label with an
offset; the value of a constant operand is the constant.

Execution goes astray behind the last line, at plain data and at a bare instruction; then it has no
result. `Disciplined` is what a listing has to keep to for its expansion to do what it means: it
reads and writes plain data only, and jumps to labels of statements only.
-/

namespace Subleq.Assembly

/-- Where the execution of a listing stands: the lines still to come, none after the halt, the
values of the cells by position, and the staged input. -/
structure Execution where
  lines : Option Listing
  cells : Nat → Int
  staged : List Int

/-- The execution and the environment after a statement, and the fault of a port that failed. -/
structure Executed (σ : Type) where
  execution : Execution
  env : σ
  fault : Option PortFault := none

namespace Execution

def halted (execution : Execution) : Bool := execution.lines.isNone

/-- Goes on at the given lines. -/
def goOn (execution : Execution) (lines : Listing) : Execution :=
  { execution with lines := some lines }

def write (execution : Execution) (position : Nat) (value : Int) : Execution :=
  { execution with cells := Function.update execution.cells position value }

end Execution

namespace Listing

/-- The first statement, and the lines behind it. -/
def next? : Listing → Option (Statement × Listing)
  | [] => none
  | line :: lines =>
      match line.statement with
      | some statement => some (statement, lines)
      | none => next? lines

/-- The operand that plain data puts at a position. -/
def datum? : Listing → Nat → Option Operand
  | [], _ => none
  | line :: lines, position =>
      if position < line.size then
        match line.statement with
        | some (.data values) => values[position]?
        | _ => none
      else datum? lines (position - line.size)

/-- Whether a position is that of plain data. -/
def IsDatum (listing : Listing) (position : Nat) : Prop := (listing.datum? position).isSome = true

instance (listing : Listing) : DecidablePred listing.IsDatum :=
  fun position => inferInstanceAs (Decidable ((listing.datum? position).isSome = true))

/-- The address of an operand, for an origin of zero. -/
def address? (listing : Listing) (operand : Operand) : Option Nat :=
  match (Layout.ofListing listing).resolve 0 operand.term with
  | .ok value => if 0 ≤ value then some value.toNat else none
  | .error _ => none

/-- The address of an operand that has one. -/
def address (listing : Listing) (operand : Operand) : Nat := (listing.address? operand).getD 0

/-- The value of an operand: a constant, or else the value of a cell. -/
def value (listing : Listing) (width : Nat) (cells : Nat → Int) : Operand → Int
  | .constant value => wrap width value
  | operand => cells (listing.address operand)

/-- The lines from a jump target on. -/
def target? (listing : Listing) : Operand → Option Listing
  | .reference target => listing.labelled? target.name
  | _ => none

/-- What plain data puts into the cells at first. -/
def initialCells (listing : Listing) (width position : Nat) : Int :=
  match listing.datum? position with
  | none => 0
  | some operand =>
      match (Layout.ofListing listing).resolve 0 operand.term with
      | .ok value => wrap width value
      | .error _ => 0

/-- The execution of a listing at its start. -/
def start (listing : Listing) (width : Nat) (staged : List Int) : Execution :=
  { lines := some listing, cells := listing.initialCells width, staged }

section Execute

variable {σ : Type} (listing : Listing) (width : Nat) (ports : Ports σ)

/-- Jumps if a condition holds, and goes on behind the statement otherwise. -/
def branch (condition : Prop) [Decidable condition] (target : Operand) (rest : Listing)
    (execution : Execution) (env : σ) : Option (Executed σ) :=
  if condition then
    (listing.target? target).map fun lines => { execution := execution.goOn lines, env }
  else some { execution := execution.goOn rest, env }

/-- Executes a statement, behind which stand the lines `rest`. -/
def execute (rest : Listing) (execution : Execution) (env : σ) :
    Statement → Option (Executed σ)
  | .clr cell =>
      some { execution := (execution.write (listing.address cell) 0).goOn rest, env }
  | .mov destination source =>
      let result := listing.value width execution.cells source
      some { execution := (execution.write (listing.address destination) result).goOn rest, env }
  | .add destination source =>
      let result := wrap width (listing.value width execution.cells destination +
        listing.value width execution.cells source)
      some { execution := (execution.write (listing.address destination) result).goOn rest, env }
  | .sub destination source =>
      let result := wrap width (listing.value width execution.cells destination -
        listing.value width execution.cells source)
      some { execution := (execution.write (listing.address destination) result).goOn rest, env }
  | .inp cell =>
      match Machine.nextCode ports execution.staged env with
      | (.ok (code, staged), env) =>
          let written := execution.write (listing.address cell) (wrap width code)
          some { execution := { written.goOn rest with staged }, env }
      | (.error fault, env) => some { execution, env, fault := some fault }
  | .out cell =>
      match ports.sink (listing.value width execution.cells cell) env with
      | (.ok (), env) => some { execution := execution.goOn rest, env }
      | (.error fault, env) => some { execution, env, fault := some fault }
  | .jmp target => listing.branch True target rest execution env
  | .halt => some { execution := { execution with lines := none }, env }
  | .jlez cell target =>
      listing.branch (listing.value width execution.cells cell ≤ 0) target rest execution env
  | .jle left right target =>
      listing.branch (wrap width (listing.value width execution.cells left -
        listing.value width execution.cells right) ≤ 0) target rest execution env
  | .jeq left right target =>
      listing.branch (LooksEqual width (listing.value width execution.cells left)
        (listing.value width execution.cells right)) target rest execution env
  | .data _ => none
  | .subleq _ _ _ => none

/-- Executes the next statement. After the halt nothing happens any more. -/
def step (execution : Execution) (env : σ) : Option (Executed σ) :=
  match execution.lines with
  | none => some { execution, env }
  | some lines =>
      match lines.next? with
      | none => none
      | some (statement, rest) => listing.execute width ports rest execution env statement

/-- Executes a number of statements; a port that fails ends the execution. -/
def run : Nat → Execution → σ → Option (Executed σ)
  | 0, execution, env => some { execution, env }
  | count + 1, execution, env =>
      match listing.step width ports execution env with
      | some { execution, env, fault := none } => run count execution env
      | ended => ended

end Execute

/-- The program counter at a point of a listing. -/
def counter (listing : Listing) : Option Listing → Int
  | none => -1
  | some lines => listing.size - lines.size

end Listing

/-! ## Discipline -/

namespace Statement

def isData : Statement → Bool
  | data _ => true
  | _ => false

/-- Whether a statement is neither plain data nor a bare instruction. -/
def isMacro : Statement → Bool
  | data _ => false
  | subleq _ _ _ => false
  | _ => true

end Statement

namespace Listing

/-- Whether an operand is the address of a cell that may be written. -/
def Writes (listing : Listing) (writable : Nat → Prop) (operand : Operand) : Prop :=
  ∃ position ∈ listing.address? operand, writable position

/-- Whether an operand is a constant or the address of a cell that may be written. -/
def Reads (listing : Listing) (writable : Nat → Prop) (operand : Operand) : Prop :=
  operand.constant?.isSome = true ∨ listing.Writes writable operand

/-- Whether a statement follows a point of a listing, and it is neither plain data nor a bare
instruction. -/
def atMacro (lines : Listing) : Bool :=
  match lines.next? with
  | some (statement, _) => statement.isMacro
  | none => false

/-- Whether an operand is a label in front of a statement that can be executed. -/
def JumpsTo (listing : Listing) : Operand → Prop
  | .reference target =>
      target.offsetValue = .ok 0 ∧ ∃ lines ∈ listing.labelled? target.name, lines.atMacro = true
  | _ => False

/-- Whether a statement writes to writable cells only, reads only these and constants, and jumps to
labels of statements only. -/
def Confines (listing : Listing) (writable : Nat → Prop) : Statement → Prop
  | .clr cell => listing.Writes writable cell
  | .mov destination source =>
      listing.Writes writable destination ∧ listing.Reads writable source ∧
        listing.address? destination ≠ listing.address? source
  | .add destination source => listing.Writes writable destination ∧ listing.Reads writable source
  | .sub destination source => listing.Writes writable destination ∧ listing.Reads writable source
  | .inp cell => listing.Writes writable cell
  | .out cell => listing.Reads writable cell
  | .jmp target => listing.JumpsTo target
  | .halt => True
  | .jlez cell target => listing.Reads writable cell ∧ listing.JumpsTo target
  | .jle left right target =>
      listing.Reads writable left ∧ listing.Reads writable right ∧ listing.JumpsTo target
  | .jeq left right target =>
      listing.Reads writable left ∧ listing.Reads writable right ∧ listing.JumpsTo target
  | .data _ => False
  | .subleq _ _ _ => False

/-- Whether a listing is plain data and statements that keep to it. -/
def Disciplined (listing : Listing) : Prop :=
  ∀ line ∈ listing, ∀ statement ∈ line.statement,
    statement.isData = true ∨ listing.Confines listing.IsDatum statement

section Decide

variable (listing : Listing) (writable : Nat → Prop) [DecidablePred writable]

instance (operand : Operand) : Decidable (listing.Writes writable operand) :=
  inferInstanceAs (Decidable (∃ position ∈ listing.address? operand, writable position))

instance (operand : Operand) : Decidable (listing.Reads writable operand) :=
  inferInstanceAs (Decidable (_ ∨ _))

instance (operand : Operand) : Decidable (listing.JumpsTo operand) :=
  match operand with
  | .reference target =>
      inferInstanceAs (Decidable (target.offsetValue = .ok 0 ∧
        ∃ lines ∈ listing.labelled? target.name, lines.atMacro = true))
  | .literal _ => inferInstanceAs (Decidable False)
  | .constant _ => inferInstanceAs (Decidable False)

instance (statement : Statement) : Decidable (listing.Confines writable statement) :=
  match statement with
  | .clr _ => inferInstanceAs (Decidable (listing.Writes writable _))
  | .mov _ _ => inferInstanceAs (Decidable (_ ∧ _ ∧ _))
  | .add _ _ => inferInstanceAs (Decidable (_ ∧ _))
  | .sub _ _ => inferInstanceAs (Decidable (_ ∧ _))
  | .inp _ => inferInstanceAs (Decidable (listing.Writes writable _))
  | .out _ => inferInstanceAs (Decidable (listing.Reads writable _))
  | .jmp _ => inferInstanceAs (Decidable (listing.JumpsTo _))
  | .halt => inferInstanceAs (Decidable True)
  | .jlez _ _ => inferInstanceAs (Decidable (_ ∧ _))
  | .jle _ _ _ => inferInstanceAs (Decidable (_ ∧ _ ∧ _))
  | .jeq _ _ _ => inferInstanceAs (Decidable (_ ∧ _ ∧ _))
  | .data _ => inferInstanceAs (Decidable False)
  | .subleq _ _ _ => inferInstanceAs (Decidable False)

instance : Decidable listing.Disciplined :=
  inferInstanceAs (Decidable (∀ line ∈ listing, ∀ statement ∈ line.statement,
    statement.isData = true ∨ listing.Confines listing.IsDatum statement))

end Decide

end Listing

end Subleq.Assembly
