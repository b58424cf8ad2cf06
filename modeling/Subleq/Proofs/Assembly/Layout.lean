import Subleq.Assembly.Layout
import Subleq.Proofs.Basic

/-!
# Where things stand in an image

The image of a listing holds, at the position of every line, the resolved terms of its statement;
behind the statements come the scratch cells, which are zero, and the pool. A label that is not one
of the assembler's own resolves to the position of the line that defines it first, and the constant
of every operand is in the pool.
-/

namespace Subleq.Assembly

/-- The cells of a statement that is not plain data are those of its instructions. -/
theorem Statement.terms_eq_layOut {statement : Statement}
    (expands : ∀ values, statement ≠ .data values) (start : Nat) :
    statement.terms start = layOut start (statement.instructions start) := by
  cases statement with
  | data values => exact absurd rfl (expands values)
  | _ => rfl

namespace Listing

/-- The lines from the first one on that defines a label. -/
def labelled? (name : String) : Listing → Option Listing
  | [] => none
  | line :: lines => if line.label = some name then some (line :: lines) else labelled? name lines

@[simp] theorem size_append (first second : Listing) :
    size (first ++ second) = size first + size second := by
  induction first with
  | nil => simp [size]
  | cons line lines ih =>
      rw [List.cons_append, size, size, ih]
      omega

theorem cellsFrom_append (start number : Nat) (first second : Listing) :
    cellsFrom start number (first ++ second) =
      cellsFrom start number first ++
        cellsFrom (start + first.size) (number + first.length) second := by
  induction first generalizing start number with
  | nil => simp [cellsFrom, size]
  | cons line lines ih =>
      rw [List.cons_append, cellsFrom, cellsFrom, ih, List.append_assoc, size, List.length_cons,
        Nat.add_assoc start, show number + (lines.length + 1) = number + 1 + lines.length by omega]

end Listing

/-! ## Cells -/

namespace Layout

variable {layout : Layout} {origin : Int}

theorem forall₂_of_resolveCells {cells : List (Term × Nat)} {values : List Int}
    (resolved : layout.resolveCells origin cells = .ok values) :
    List.Forall₂ (fun cell value => layout.resolve origin cell.1 = .ok value) cells values := by
  induction cells generalizing values with
  | nil =>
      cases resolved
      exact .nil
  | cons cell cells ih =>
      obtain ⟨term, line⟩ := cell
      rw [resolveCells] at resolved
      cases head : layout.resolve origin term with
      | error reason => simp [head] at resolved
      | ok value =>
          simp only [head] at resolved
          obtain ⟨rest, tail, rfl⟩ := exists_of_map_eq_ok resolved
          exact .cons head (ih tail)

end Layout

namespace Listing

variable {listing : Listing} {layout : Layout} {origin : Int} {cells : List Int}

/-- An image is the cells of the statements, three zeros and the pool. -/
theorem image_eq (assembled : listing.image layout origin = .ok cells) :
    ∃ code, List.Forall₂ (fun cell value => layout.resolve origin cell.1 = .ok value)
        (listing.cellsFrom 0 1) code ∧
      cells = code ++ [0, 0, 0] ++ layout.pool := by
  obtain ⟨code, resolved, rfl⟩ := exists_of_map_eq_ok assembled
  exact ⟨code, Layout.forall₂_of_resolveCells resolved, rfl⟩

theorem length_image (assembled : listing.image layout origin = .ok cells) :
    cells.length = listing.size + 3 + layout.pool.length := by
  obtain ⟨code, resolved, rfl⟩ := image_eq assembled
  have length := resolved.length_eq
  rw [length_cellsFrom] at length
  simp [length]
  omega

/-- Behind the cells of the statements come three zeros and the pool. -/
theorem drop_image (assembled : listing.image layout origin = .ok cells) :
    cells.drop listing.size = [0, 0, 0] ++ layout.pool := by
  obtain ⟨code, resolved, rfl⟩ := image_eq assembled
  have length : code.length = listing.size := by
    rw [← resolved.length_eq, length_cellsFrom]
  rw [List.append_assoc, ← length, List.drop_left]

/-- A term of a statement stands in the image, resolved, as far behind the statement's position as
it stands in the expansion. -/
theorem getElem?_image_statement {before after : Listing} {line : Line} {statement : Statement}
    (assembled : (before ++ line :: after).image layout origin = .ok cells)
    (has : line.statement = some statement) {index : Nat} {term : Term}
    (expanded : (statement.terms before.size)[index]? = some term) :
    ∃ value, layout.resolve origin term = .ok value ∧
      cells[before.size + index]? = some value := by
  obtain ⟨code, resolved, rfl⟩ := image_eq assembled
  rw [cellsFrom_append, cellsFrom] at resolved
  have bound : index < (statement.terms before.size).length :=
    (List.getElem?_eq_some_iff.mp expanded).1
  have place : (cellsFrom 0 1 before ++
      ((line.terms (0 + before.size)).map (·, 1 + before.length) ++
        cellsFrom (0 + before.size + line.size) (1 + before.length + 1) after))[
          before.size + index]? = some (term, 1 + before.length) := by
    rw [List.getElem?_append_right (by simp), length_cellsFrom, Nat.add_sub_cancel_left,
      Nat.zero_add]
    have terms : line.terms before.size = statement.terms before.size := by
      simp [Line.terms, has]
    rw [List.getElem?_append_left (by simpa [terms] using bound), List.getElem?_map, terms,
      expanded]
    rfl
  obtain ⟨inside, element⟩ := List.getElem?_eq_some_iff.mp place
  have valueInside : before.size + index < code.length := by
    rw [← resolved.length_eq]
    exact inside
  refine ⟨code[before.size + index], ?_, ?_⟩
  · have related := resolved.get inside valueInside
    simp only [List.get_eq_getElem, element] at related
    exact related
  · rw [List.append_assoc, List.getElem?_append_left valueInside]
    exact List.getElem?_eq_getElem valueInside

theorem getElem?_image_scratch (assembled : listing.image layout origin = .ok cells)
    (cell : Scratch) : cells[listing.size + cell.place]? = some 0 := by
  rw [← List.getElem?_drop, drop_image assembled]
  cases cell <;> rfl

/-- A constant of the pool stands where it resolves to. -/
theorem getElem?_image_constant (assembled : listing.image layout origin = .ok cells) {value : Int}
    (pooled : value ∈ layout.pool) :
    cells[Layout.poolStart listing.size + layout.pool.idxOf value]? = some value := by
  rw [Layout.poolStart, Nat.add_assoc, ← List.getElem?_drop, drop_image assembled,
    List.getElem?_append_right (by simp [Scratch.all]),
    show ([0, 0, 0] : List Int).length = Scratch.all.length from rfl, Nat.add_sub_cancel_left]
  exact List.getElem?_idxOf pooled

end Listing

/-! ## Terms that resolve -/

theorem Layout.exists_resolveCells {layout : Layout} {origin : Int} {cells : List (Term × Nat)}
    (each : ∀ cell ∈ cells, ∃ value, layout.resolve origin cell.1 = .ok value) :
    ∃ values, layout.resolveCells origin cells = .ok values := by
  induction cells with
  | nil => exact ⟨[], rfl⟩
  | cons cell cells ih =>
      obtain ⟨term, line⟩ := cell
      obtain ⟨value, resolved⟩ := each (term, line) List.mem_cons_self
      obtain ⟨values, others⟩ := ih fun other member => each other (List.mem_cons_of_mem _ member)
      exact ⟨value :: values, by simp [resolveCells, resolved, others, Except.map]⟩

namespace Listing

theorem mem_cellsFrom {listing : Listing} {start number : Nat} {cell : Term × Nat}
    (member : cell ∈ listing.cellsFrom start number) :
    ∃ line ∈ listing, ∃ statement ∈ line.statement, ∃ place, cell.1 ∈ statement.terms place := by
  induction listing generalizing start number with
  | nil => simp [cellsFrom] at member
  | cons line lines ih =>
      rw [cellsFrom, List.mem_append] at member
      rcases member with here | later
      · obtain ⟨term, inside, rfl⟩ := List.mem_map.mp here
        cases has : line.statement with
        | none => simp [Line.terms, has] at inside
        | some statement =>
            rw [Line.terms, has] at inside
            exact ⟨line, List.mem_cons_self, statement, has, start, inside⟩
      · obtain ⟨other, inside, statement, has, place, mentions⟩ := ih later
        exact ⟨other, List.mem_cons_of_mem line inside, statement, has, place, mentions⟩

/-- A listing has an image if all terms of its statements resolve. -/
theorem exists_image {listing : Listing} {layout : Layout} {origin : Int}
    (each : ∀ line ∈ listing, ∀ statement ∈ line.statement, ∀ place,
      ∀ term ∈ statement.terms place, ∃ value, layout.resolve origin term = .ok value) :
    ∃ image, listing.image layout origin = .ok image := by
  have resolved : ∃ values, layout.resolveCells origin (listing.cellsFrom 0 1) = .ok values := by
    apply Layout.exists_resolveCells
    intro cell member
    obtain ⟨line, inside, statement, has, place, mentions⟩ := mem_cellsFrom member
    exact each line inside statement has place cell.1 mentions
  obtain ⟨values, found⟩ := resolved
  exact ⟨_, by rw [image, found]; rfl⟩

end Listing

/-! ## Constants -/

theorem mem_poolWith {pool : List Int} {operands : List Operand} {value : Int} :
    value ∈ poolWith pool operands ↔ value ∈ pool ∨ Operand.constant value ∈ operands := by
  unfold poolWith
  induction operands generalizing pool with
  | nil => simp
  | cons operand operands ih =>
      rw [List.foldl_cons, ih, List.mem_cons]
      cases operand with
      | literal number => simp [Operand.constant?]
      | reference target => simp [Operand.constant?]
      | constant number =>
          simp only [Operand.constant?, List.contains_iff_mem, Operand.constant.injEq]
          split
          · constructor
            · rintro (old | new)
              · exact Or.inl old
              · exact Or.inr (Or.inr new)
            · rintro (old | rfl | new)
              · exact Or.inl old
              · exact Or.inl ‹_›
              · exact Or.inr new
          · rw [List.mem_append, List.mem_singleton, or_assoc]

namespace Listing

theorem mem_poolFrom {pool : List Int} {listing : Listing} {value : Int} :
    value ∈ listing.poolFrom pool ↔
      value ∈ pool ∨ ∃ line ∈ listing, Operand.constant value ∈ line.operands := by
  induction listing generalizing pool with
  | nil => simp [poolFrom]
  | cons line lines ih => simp [poolFrom, ih, mem_poolWith, or_assoc]

end Listing

/-! ## Labels -/

/-- The names inside expansions are the assembler's own. -/
theorem isReserved_localName (number : Nat) : isReserved (localName number) = true := by
  simp [isReserved, localName, List.isPrefixOf]

namespace Listing

/-- Whether no line defines one of the assembler's own names. -/
def Unreserved (listing : Listing) : Prop :=
  ∀ line ∈ listing, ∀ name ∈ line.label, isReserved name = false

instance (listing : Listing) : Decidable listing.Unreserved :=
  inferInstanceAs (Decidable (∀ line ∈ listing, ∀ name ∈ line.label, isReserved name = false))

theorem labelled?_eq_some {name : String} {listing lines : Listing}
    (found : listing.labelled? name = some lines) :
    ∃ line rest, lines = line :: rest ∧ line.label = some name ∧ line ∈ listing := by
  induction listing with
  | nil => simp [labelled?] at found
  | cons line rest ih =>
      rw [labelled?] at found
      split at found
      · cases found
        exact ⟨line, rest, rfl, ‹_›, List.mem_cons_self⟩
      · obtain ⟨first, others, equal, named, member⟩ := ih found
        exact ⟨first, others, equal, named, List.mem_cons_of_mem line member⟩

theorem labelled?_append_of_some {name : String} {first second lines : Listing}
    (found : first.labelled? name = some lines) :
    (first ++ second).labelled? name = some (lines ++ second) := by
  induction first with
  | nil => simp [labelled?] at found
  | cons line rest ih =>
      rw [labelled?] at found
      rw [List.cons_append, labelled?]
      split at found
      next named =>
        cases found
        rw [if_pos named]
        rfl
      next other =>
        rw [if_neg other]
        exact ih found

theorem labelled?_append_of_none {name : String} {first second : Listing}
    (absent : first.labelled? name = none) :
    (first ++ second).labelled? name = second.labelled? name := by
  induction first with
  | nil => rfl
  | cons line rest ih =>
      rw [labelled?] at absent
      rw [List.cons_append, labelled?]
      split at absent
      · simp at absent
      next other =>
        rw [if_neg other]
        exact ih absent

/-- A label that is not one of the assembler's own stands for the position of its line. -/
theorem lookup_labelsFrom {name : String} (own : isReserved name = false) {listing lines : Listing}
    (found : listing.labelled? name = some lines) (start locals : Nat) :
    ∃ before, listing = before ++ lines ∧
      (listing.labelsFrom start locals).lookup name = some (start + before.size) := by
  induction listing generalizing start locals with
  | nil => simp [labelled?] at found
  | cons line rest ih =>
      rw [labelled?] at found
      split at found
      next named =>
        cases found
        exact ⟨[], rfl, by simp [labelsFrom, named, size]⟩
      next other =>
        obtain ⟨before, split, looked⟩ :=
          ih found (start + line.size) (locals + (line.innerLabels start).length)
        refine ⟨line :: before, by rw [split]; rfl, ?_⟩
        have notLabel : (line.label.toList.map (·, start)).lookup name = none := by
          cases label : line.label with
          | none => rfl
          | some defined =>
              have distinct : name ≠ defined := by
                rintro rfl
                exact other label
              simp [List.lookup_cons, beq_false_of_ne distinct]
        rw [labelsFrom, List.lookup_append, List.lookup_append, notLabel, looked, size,
          Option.none_or, List.lookup_eq_none_iff.mpr, Option.none_or, Nat.add_assoc]
        intro entry member
        obtain ⟨⟨position, number⟩, _, rfl⟩ := List.mem_map.mp member
        apply bne_iff_ne.mpr
        rintro rfl
        rw [isReserved_localName] at own
        exact absurd own (by simp)

/-- A label that is not one of the assembler's own stands for the position of its line. -/
theorem position?_ofListing {listing lines : Listing} (unreserved : listing.Unreserved)
    {name : String} (found : listing.labelled? name = some lines) :
    ∃ before, listing = before ++ lines ∧
      (Layout.ofListing listing).position? name = some before.size := by
  obtain ⟨line, rest, _, named, member⟩ := labelled?_eq_some found
  obtain ⟨before, split, looked⟩ := lookup_labelsFrom (unreserved line member name named) found 0 0
  refine ⟨before, split, ?_⟩
  rw [Layout.position?, Layout.ofListing, List.lookup_append, looked]
  simp

/-- The assembler's name for the end is no label and no name inside an expansion. -/
theorem lookup_labelsFrom_endName {listing : Listing} (unreserved : listing.Unreserved)
    (start locals : Nat) : (listing.labelsFrom start locals).lookup endName = none := by
  induction listing generalizing start locals with
  | nil => rfl
  | cons line lines ih =>
      have others := ih (fun other member => unreserved other (List.mem_cons_of_mem line member))
        (start + line.size) (locals + (line.innerLabels start).length)
      rw [labelsFrom, List.lookup_append, List.lookup_append, others, Option.or_none,
        Option.or_eq_none_iff, List.lookup_eq_none_iff, List.lookup_eq_none_iff]
      constructor
      · intro entry member
        obtain ⟨name, inside, rfl⟩ := List.mem_map.mp member
        have own := unreserved line List.mem_cons_self name (Option.mem_toList.mp inside)
        apply bne_iff_ne.mpr
        rintro rfl
        exact absurd own (by decide)
      · intro entry member
        obtain ⟨⟨position, number⟩, _, rfl⟩ := List.mem_map.mp member
        apply bne_iff_ne.mpr
        intro same
        have spelled := congrArg String.toList same
        simp [endName, localName] at spelled

/-- The assembler's name for the end stands for the position behind the pool. -/
theorem position?_endName {listing : Listing} (unreserved : listing.Unreserved) :
    (Layout.ofListing listing).position? endName =
      some (Layout.poolStart listing.size + (listing.poolFrom []).length) := by
  have notScratch : (Scratch.all.map fun cell => (cell.name, listing.size + cell.place)).lookup
      endName = none := rfl
  have last (position : Nat) : [(endName, position)].lookup endName = some position := by simp
  rw [Layout.position?, Layout.ofListing, List.lookup_append,
    lookup_labelsFrom_endName unreserved, Option.none_or, Layout.hiddenNames, List.lookup_append,
    List.lookup_append, notScratch, last, Option.none_or, List.lookup_eq_none_iff.mpr,
    Option.none_or]
  intro entry member
  obtain ⟨⟨value, position⟩, _, rfl⟩ := List.mem_map.mp member
  apply bne_iff_ne.mpr
  intro same
  have spelled := congrArg String.toList same
  simp only [endName, constantName] at spelled
  split at spelled <;> simp at spelled

end Listing

/-! ## Sources -/

/-- What an accepted line is: its label was judged, and its statement is read from the tokens at its
end. -/
theorem Line.read_eq_ok {defined tokens : List String} {line : Line}
    (accepted : Line.read defined tokens = .ok line) :
    (∀ name ∈ line.label, checkLabel defined name = .ok ()) ∧
      ∃ spelled, spelled <:+ tokens ∧ readStatement spelled = .ok line.statement := by
  unfold Line.read at accepted
  split at accepted
  · cases accepted
    exact ⟨by simp, [], List.suffix_rfl, rfl⟩
  next token tokens =>
    split at accepted
    · obtain ⟨statement, spelled, rfl⟩ := exists_of_map_eq_ok accepted
      exact ⟨by simp, token :: tokens, List.suffix_rfl, spelled⟩
    · split at accepted
      · simp at accepted
      next judged =>
        obtain ⟨statement, spelled, rfl⟩ := exists_of_map_eq_ok accepted
        refine ⟨?_, tokens, List.suffix_cons token tokens, spelled⟩
        rintro _ ⟨⟩
        exact judged

theorem Line.checkLabel_eq_ok {defined : List String} {name : String}
    (judged : Line.checkLabel defined name = .ok ()) :
    isReserved name = false ∧ name ∉ defined := by
  cases reserved : isReserved name with
  | true => simp [checkLabel, reserved] at judged
  | false =>
      refine ⟨rfl, fun member => ?_⟩
      simp [checkLabel, reserved, member] at judged

namespace Listing

/-- What holds of every accepted line holds of every line of an accepted source. -/
theorem forall_of_readFrom {property : Line → Prop}
    (each : ∀ defined text line,
      Line.read defined (Line.tokens text) = .ok line → property line)
    {texts : List (List Char)} {defined : List String} {number : Nat} {listing : Listing}
    (accepted : readFrom defined number texts = .ok listing) : ∀ line ∈ listing, property line := by
  induction texts generalizing defined number listing with
  | nil =>
      cases accepted
      simp
  | cons text texts ih =>
      rw [readFrom] at accepted
      split at accepted
      · simp at accepted
      next line first =>
        obtain ⟨lines, rest, rfl⟩ := exists_of_map_eq_ok accepted
        intro other member
        rcases List.mem_cons.mp member with rfl | later
        · exact each defined _ other first
        · exact ih rest other later

/-- No label of a source is one of the assembler's own names. -/
theorem unreserved_of_read {source : String} {listing : Listing}
    (accepted : read source = .ok listing) : listing.Unreserved := by
  refine forall_of_readFrom ?_ accepted
  intro defined text line judged name label
  exact (Line.checkLabel_eq_ok ((Line.read_eq_ok judged).1 name label)).1

end Listing

theorem assemble_eq_ok_iff {source : String} {origin : Int} {cells : List Int} {sizes : Measure} :
    assemble source origin = .ok (cells, sizes) ↔
      0 ≤ origin ∧ ∃ listing, Listing.read source = .ok listing ∧
        listing.image (.ofListing listing) origin = .ok cells ∧
        sizes = ⟨cells.length, (Layout.ofListing listing).names.length,
          (Layout.ofListing listing).pool.length⟩ := by
  unfold assemble
  split
  next negative => simp [Int.not_le.mpr negative]
  next nonnegative =>
    cases accepted : Listing.read source with
    | error fault => simp
    | ok listing =>
        cases resolved : listing.image (.ofListing listing) origin with
        | error fault => simp [resolved]
        | ok image =>
            simp only [Except.ok.injEq, Prod.mk.injEq, Int.not_lt.mp nonnegative, true_and,
              exists_eq_left', resolved]
            constructor
            · rintro ⟨rfl, rfl⟩
              exact ⟨rfl, rfl⟩
            · rintro ⟨rfl, rfl⟩
              exact ⟨rfl, rfl⟩

example : (assemble "a: SUBLEQ a a" 100).map (·.1) = .ok [100, 100, 103, 0, 0, 0] := by rfl

end Subleq.Assembly
