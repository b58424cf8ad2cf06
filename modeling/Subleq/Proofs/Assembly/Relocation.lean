import Subleq.Proofs.Assembly.Provenance

/-!
# Relocation

A source is assembled for one origin as for any other, or refused for the same reason on the same
line. Every cell of the two images comes from the same place of the source, and the cells that are
addresses differ by the distance of the origins: those of labels, of scratch cells, of the pool, of
the end, of labels inside expansions and of targets that are left out. Integers that were written,
the mark of input, output and the halt, scratch cells and pool cells are the same in both.
-/

namespace Subleq.Assembly

/-- By how much a term moves with the origin of its image. Addresses do, values do not. -/
def Term.shift (origin : Int) : Term → Int
  | .value _ => 0
  | _ => origin

namespace Layout

/-- A term resolves for an origin as it does for the origin zero, and is moved. -/
theorem resolve_eq_map (layout : Layout) (origin : Int) (term : Term) :
    layout.resolve origin term = (layout.resolve 0 term).map (· + term.shift origin) := by
  cases term with
  | value value => simp [resolve, Except.map, Term.shift]
  | position position => simp [resolve, Except.map, Term.shift, Int.add_comm]
  | scratch cell =>
      simp only [resolve, Except.map, Term.shift, Except.ok.injEq]
      omega
  | constant value =>
      simp only [resolve, Except.map, Term.shift, Except.ok.injEq]
      omega
  | reference target =>
      rw [resolve, resolve, resolveReference, resolveReference]
      cases layout.position? target.name with
      | none => rfl
      | some position =>
          cases target.offsetValue with
          | error fault => rfl
          | ok offset =>
              simp only [Except.map, Term.shift, Except.ok.injEq]
              omega

/-- Cells resolve for an origin as they do for the origin zero, and are moved. -/
theorem resolveCells_eq_map (layout : Layout) (origin : Int) (cells : List (Term × Nat)) :
    layout.resolveCells origin cells =
      (layout.resolveCells 0 cells).map
        (List.zipWith (fun cell value => value + cell.1.shift origin) cells) := by
  induction cells with
  | nil => rfl
  | cons cell cells ih =>
      obtain ⟨term, line⟩ := cell
      rw [resolveCells, resolveCells, layout.resolve_eq_map origin term, ih]
      cases layout.resolve 0 term with
      | error reason => rfl
      | ok value => cases layout.resolveCells 0 cells <;> rfl

end Layout

namespace Listing

/-! ## Where cells come from -/

/-- By how much the cell at a position of an image moves with the origin: a cell of a statement as
the term does that it was made from, a scratch cell or a cell of the pool not at all. -/
inductive Moves (listing : Listing) (origin : Int) : Nat → Int → Prop
  | statement {before rest : Listing} {line : Line} {statement : Statement} {place : Nat}
      {term : Term} (split : listing = before ++ line :: rest)
      (has : line.statement = some statement)
      (found : (statement.terms before.size)[place]? = some term)
      (made : statement.Makes before.size place term) :
      Moves listing origin (before.size + place) (term.shift origin)
  | behind {index : Nat} (past : listing.size ≤ index) : Moves listing origin index 0

/-- Every position before the scratch cells is one of a statement. -/
theorem exists_statement_of_lt {listing : Listing} {index : Nat} (inside : index < listing.size) :
    ∃ (before : Listing) (line : Line) (rest : Listing) (statement : Statement) (place : Nat),
      listing = before ++ line :: rest ∧ line.statement = some statement ∧
        place < statement.size ∧ index = before.size + place := by
  induction listing generalizing index with
  | nil => simp [size] at inside
  | cons line lines ih =>
      by_cases here : index < line.size
      · cases has : line.statement with
        | none => simp [Line.size, has] at here
        | some statement =>
            refine ⟨[], line, lines, statement, index, rfl, has, ?_, by simp [size]⟩
            simpa [Line.size, has] using here
      · rw [size] at inside
        obtain ⟨before, other, rest, statement, place, rfl, has, bound, equal⟩ :=
          ih (show index - line.size < size lines by omega)
        refine ⟨line :: before, other, rest, statement, place, rfl, has, bound, ?_⟩
        rw [size]
        omega

theorem exists_moves (listing : Listing) (origin : Int) (index : Nat) :
    ∃ shift, listing.Moves origin index shift := by
  by_cases inside : index < listing.size
  · obtain ⟨before, line, rest, statement, place, split, has, bound, rfl⟩ :=
      exists_statement_of_lt inside
    obtain ⟨term, found⟩ : ∃ term, (statement.terms before.size)[place]? = some term :=
      ⟨_, List.getElem?_eq_getElem (by simpa using bound)⟩
    exact ⟨_, .statement split has found (Statement.makes_of_getElem? found)⟩
  · exact ⟨0, .behind (Nat.not_lt.mp inside)⟩

/-! ## Images -/

/-- Two images of a listing, for the origin zero and for another one, that differ as the cells
move. -/
structure Relocated (listing : Listing) (origin : Int) (cells moved : List Int) : Prop where
  length : moved.length = cells.length
  covered : ∀ index < cells.length, ∃ shift, listing.Moves origin index shift
  moved : ∀ index shift, listing.Moves origin index shift →
    moved[index]? = cells[index]?.map (· + shift)

theorem relocated_of_image {listing : Listing} {layout : Layout} {origin : Int}
    {cells moved : List Int} (assembled : listing.image layout 0 = .ok cells)
    (elsewhere : listing.image layout origin = .ok moved) :
    listing.Relocated origin cells moved where
  length := by rw [length_image assembled, length_image elsewhere]
  covered index _ := listing.exists_moves origin index
  moved := by
    intro index shift moves
    cases moves with
    | @statement before rest line statement place term split has found made =>
        subst split
        obtain ⟨value, resolved, here⟩ := getElem?_image_statement assembled has found
        obtain ⟨other, resolvedElsewhere, there⟩ := getElem?_image_statement elsewhere has found
        rw [layout.resolve_eq_map, resolved] at resolvedElsewhere
        cases resolvedElsewhere
        rw [here, there]
        rfl
    | behind past =>
        obtain ⟨place, rfl⟩ := Nat.exists_eq_add_of_le past
        rw [← List.getElem?_drop, ← List.getElem?_drop, drop_image assembled, drop_image elsewhere]
        simp

end Listing

/-! ## Sources -/

/-- The names of a layout are placed without regard to the origin. -/
theorem Layout.labels_eq_map (layout : Layout) (origin : Int) :
    layout.labels origin =
      (layout.labels 0).map fun (name, address) => (name, address + origin) := by
  rw [labels, labels, List.map_map]
  apply List.map_congr_left
  intro entry _
  simp [Int.add_comm]

/-- A source is refused for any origin as for the origin zero. -/
theorem assemble_eq_error_iff (source : String) {origin : Int} (nonnegative : 0 ≤ origin)
    (fault : Fault) :
    assemble source origin = .error fault ↔ assemble source 0 = .error fault := by
  rw [assemble, assemble, if_neg (Int.not_lt.mpr nonnegative), if_neg (by decide)]
  cases Listing.read source with
  | error fault => rfl
  | ok listing =>
      dsimp only
      rw [Listing.image, Listing.image, Layout.resolveCells_eq_map]
      cases (Layout.ofListing listing).resolveCells 0 (listing.cellsFrom 0 1) with
      | error reason => rfl
      | ok values => simp [Except.map]

/-- Assembling commutes with moving the origin. A source is refused for all origins or for none, for
the same reason on the same line; if it is accepted, its images have the same sizes and differ, cell
by cell, as what the cells come from moves; and its labels are moved by the distance of the
origins. -/
theorem assemble_relocates (source : String) {origin : Int} (nonnegative : 0 ≤ origin) :
    (∀ fault, assemble source origin = .error fault ↔ assemble source 0 = .error fault) ∧
      (∀ cells sizes, assemble source 0 = .ok (cells, sizes) →
        ∃ listing moved, Listing.read source = .ok listing ∧
          assemble source origin = .ok (moved, sizes) ∧ listing.Relocated origin cells moved) ∧
      labels source origin = (labels source 0).map
        (List.map fun (name, address) => (name, address + origin)) := by
  refine ⟨assemble_eq_error_iff source nonnegative, ?_, ?_⟩
  · intro cells sizes assembled
    obtain ⟨-, listing, accepted, image, rfl⟩ := assemble_eq_ok_iff.mp assembled
    cases elsewhere : assemble source origin with
    | error fault =>
        have refused := (assemble_eq_error_iff source nonnegative fault).mp elsewhere
        cases assembled.symm.trans refused
    | ok result =>
        obtain ⟨moved, sizes⟩ := result
        obtain ⟨-, other, acceptedElsewhere, imageElsewhere, rfl⟩ :=
          assemble_eq_ok_iff.mp elsewhere
        cases accepted.symm.trans acceptedElsewhere
        have relocated := Listing.relocated_of_image image imageElsewhere
        exact ⟨listing, moved, accepted, by rw [relocated.length], relocated⟩
  · rw [labels, labels]
    cases Listing.read source with
    | error fault => rfl
    | ok listing => exact congrArg Except.ok (Layout.labels_eq_map _ origin)

/-- A source with operands of all kinds and a target that is left out. -/
def digitSource : String :=
  "loop: IN c\n JLE c #'0' __END-1\n SUBLEQ c -1\nc: DATA 5 loop+2 #-4"

/-- Its image for the origin zero. -/
def digitImage : List Int :=
  [-1, 24, 3, 28, 28, 6, 24, 27, 9, 27, 28, 12, 27, 27, 15, 30, 28, 18, 27, 28, 31, 24, -1, 24, 5,
    2, 31, 0, 0, 0, 48, -4]

/-- The source at the origin 1000: its image is moved cell by cell, and its labels with it. -/
theorem assemble_relocates_digit :
    (0 : Int) ≤ 1000 ∧ assemble digitSource 0 = .ok (digitImage, ⟨32, 8, 2⟩) ∧
      (∃ listing moved, Listing.read digitSource = .ok listing ∧
        assemble digitSource 1000 = .ok (moved, ⟨32, 8, 2⟩) ∧
        listing.Relocated 1000 digitImage moved) ∧
      labels digitSource 1000 = .ok [("loop", 1000), ("c", 1024)] := by
  have nonnegative : (0 : Int) ≤ 1000 := by decide
  have assembled : assemble digitSource 0 = .ok (digitImage, ⟨32, 8, 2⟩) := by decide +kernel
  have named : labels digitSource 0 = .ok [("loop", 0), ("c", 24)] := by decide +kernel
  obtain ⟨-, moves, labelled⟩ := assemble_relocates digitSource nonnegative
  refine ⟨nonnegative, assembled, moves digitImage ⟨32, 8, 2⟩ assembled, ?_⟩
  rw [labelled, named]
  rfl

end Subleq.Assembly
