import Subleq.Assembly.Expansion
import Subleq.Assembly.Listing

/-!
# Layout

Where the parts of a listing stand in its image: first the cells of the statements, one after the
other, then the scratch cells, then the pool of constants. A layout does not depend on the origin of
the image; addresses come in when terms are resolved.
-/

namespace Subleq.Assembly

/-- How an assembly fails. -/
inductive Fault where
  | origin (origin : Int)
  | line (fault : LineFault)
  deriving Repr, DecidableEq

namespace Line

def size (line : Line) : Nat :=
  match line.statement with
  | none => 0
  | some statement => statement.size

/-- The cells of a line at a position. -/
def terms (start : Nat) (line : Line) : List Term :=
  match line.statement with
  | none => []
  | some statement => statement.terms start

@[simp] theorem length_terms (start : Nat) (line : Line) :
    (line.terms start).length = line.size := by
  cases statement : line.statement <;> simp [terms, size, statement]

/-- The positions of the labels inside the expansion of a line. -/
def innerLabels (start : Nat) (line : Line) : List Nat :=
  match line.statement with
  | none => []
  | some statement => statement.innerLabels start

def operands (line : Line) : List Operand :=
  match line.statement with
  | none => []
  | some statement => statement.operands

end Line

namespace Listing

def size : Listing → Nat
  | [] => 0
  | line :: lines => line.size + size lines

/-- The cells of the statements from a position on, with the numbers of their lines, the first of
which is `number`. -/
def cellsFrom (start number : Nat) : Listing → List (Term × Nat)
  | [] => []
  | line :: lines =>
      (line.terms start).map (·, number) ++ cellsFrom (start + line.size) (number + 1) lines

@[simp] theorem length_cellsFrom (start number : Nat) (listing : Listing) :
    (listing.cellsFrom start number).length = listing.size := by
  induction listing generalizing start number with
  | nil => rfl
  | cons line lines ih => simp [cellsFrom, size, ih]

/-- The labels from a position on with their positions; labels inside expansions are numbered on
from `locals`. -/
def labelsFrom (start locals : Nat) : Listing → List (String × Nat)
  | [] => []
  | line :: lines =>
      let inner := line.innerLabels start
      line.label.toList.map (·, start) ++
        (inner.zipIdx (locals + 1)).map (fun (position, number) => (localName number, position)) ++
        labelsFrom (start + line.size) (locals + inner.length) lines

/-- The distinct constants in the order of their first use, after those of a pool. -/
def poolFrom (pool : List Int) : Listing → List Int
  | [] => pool
  | line :: lines => poolFrom (poolWith pool line.operands) lines

end Listing

/-- The place of everything that has a name: `size` is the number of cells of the statements, and
`names` are all names with their positions, in the order of definition. -/
structure Layout where
  size : Nat
  pool : List Int
  names : List (String × Nat)
  deriving Repr, DecidableEq

namespace Layout

/-- The position of the first pool cell behind cells of statements. -/
def poolStart (size : Nat) : Nat := size + Scratch.all.length

/-- The names behind the labels of a program: scratch cells, pool cells and the end. -/
def hiddenNames (size : Nat) (pool : List Int) : List (String × Nat) :=
  Scratch.all.map (fun cell => (cell.name, size + cell.place)) ++
    (pool.zipIdx (poolStart size)).map (fun (value, position) => (constantName value, position)) ++
    [(endName, poolStart size + pool.length)]

def ofListing (listing : Listing) : Layout :=
  let size := listing.size
  let pool := listing.poolFrom []
  { size, pool, names := listing.labelsFrom 0 0 ++ hiddenNames size pool }

def position? (layout : Layout) (name : String) : Option Nat := layout.names.lookup name

def resolveReference (layout : Layout) (origin : Int) (target : Reference) : Except Reason Int :=
  match layout.position? target.name with
  | none => .error (.unknownLabel target.name)
  | some position =>
      match target.offsetValue with
      | .error fault => .error (.tooLong fault)
      | .ok offset => .ok (origin + position + offset)

/-- The address that the text of a reference denotes. -/
def resolveText (layout : Layout) (origin : Int) (text : String) : Except Reason Int :=
  match Reference.ofText? text with
  | none => .error (.badOperand text)
  | some target => layout.resolveReference origin target

/-- The value of a term when the image is loaded at an origin. -/
def resolve (layout : Layout) (origin : Int) : Term → Except Reason Int
  | .value value => .ok value
  | .position position => .ok (origin + position)
  | .scratch cell => .ok (origin + layout.size + cell.place)
  | .constant value => .ok (origin + poolStart layout.size + layout.pool.idxOf value)
  | .reference target => layout.resolveReference origin target

/-- The values of cells; a cell that has none is reported with its line. -/
def resolveCells (layout : Layout) (origin : Int) :
    List (Term × Nat) → Except LineFault (List Int)
  | [] => .ok []
  | (term, line) :: cells =>
      match layout.resolve origin term with
      | .error reason => .error ⟨line, reason⟩
      | .ok value => (layout.resolveCells origin cells).map (value :: ·)

/-- The labels of the program with their addresses, in the order of definition. -/
def labels (layout : Layout) (origin : Int) : List (String × Int) :=
  (layout.names.filter fun (name, _) => !isReserved name).map fun (name, position) =>
    (name, origin + position)

end Layout

namespace Listing

/-- The image of a listing for an origin: statements, scratch cells, pool. -/
def image (listing : Listing) (layout : Layout) (origin : Int) : Except LineFault (List Int) :=
  (layout.resolveCells origin (listing.cellsFrom 0 1)).map fun cells =>
    cells ++ Scratch.all.map (fun _ => 0) ++ layout.pool

end Listing

/-- Sizes of an assembled program: cells, names and constants. -/
structure Measure where
  cells : Nat
  names : Nat
  constants : Nat
  deriving Repr, DecidableEq

def assemble (source : String) (origin : Int) : Except Fault (List Int × Measure) :=
  if origin < 0 then .error (.origin origin)
  else match Listing.read source with
    | .error fault => .error (.line fault)
    | .ok listing =>
        let layout := Layout.ofListing listing
        match listing.image layout origin with
        | .error fault => .error (.line fault)
        | .ok cells => .ok (cells, ⟨cells.length, layout.names.length, layout.pool.length⟩)

/-- The labels that a source defines, with their addresses for an origin. -/
def labels (source : String) (origin : Int) : Except LineFault (List (String × Int)) :=
  (Listing.read source).map fun listing => (Layout.ofListing listing).labels origin

def Fault.message : Fault → String
  | .origin address => "origine invalide: " ++ Text.decimal address
  | .line fault => fault.message

end Subleq.Assembly
