import Mathlib.Data.List.Dedup
import Subleq.Proofs.Assembly.Names
import Subleq.Proofs.Assembly.Provenance

/-!
# Placement

What an assembled image holds, said of the source alone. Behind the cells of the statements stand
three zeros and every constant that is used, once. The cells of the statements hold what their terms
stand for: a constant the address of its pool cell, a label its own address with the offset, the
assembler's name for the end the address behind the image, and an instruction without a target the
address of the next one. The assembler's own names, looked up by their spelling in the table that
they share with the labels, are where the terms for them are.
-/

namespace Subleq.Assembly

namespace Listing

/-! ## Constants -/

/-- The constants of a listing, as often as they are used. -/
def constants (listing : Listing) : List Int :=
  (listing.flatMap Line.operands).filterMap Operand.constant?

theorem mem_constants {listing : Listing} {value : Int} :
    value ∈ listing.constants ↔ ∃ line ∈ listing, Operand.constant value ∈ line.operands := by
  rw [constants, List.mem_filterMap]
  constructor
  · rintro ⟨operand, member, constant⟩
    obtain ⟨line, inside, own⟩ := List.mem_flatMap.mp member
    cases operand with
    | literal number => simp [Operand.constant?] at constant
    | reference target => simp [Operand.constant?] at constant
    | constant number =>
        cases constant
        exact ⟨line, inside, own⟩
  · rintro ⟨line, inside, own⟩
    exact ⟨.constant value, List.mem_flatMap.mpr ⟨line, inside, own⟩, rfl⟩

theorem perm_poolFrom (listing : Listing) :
    (listing.poolFrom []).Perm listing.constants.dedup := by
  refine (List.perm_ext_iff_of_nodup (nodup_poolFrom List.nodup_nil listing)
    (List.nodup_dedup _)).mpr fun value => ?_
  rw [List.mem_dedup, mem_constants, mem_poolFrom]
  simp

theorem mem_poolFrom_of_used {listing : Listing} {value : Int} (used : value ∈ listing.constants) :
    value ∈ listing.poolFrom [] :=
  listing.perm_poolFrom.mem_iff.mpr (List.mem_dedup.mpr used)

/-! ## Labels -/

/-- An entry of the table that is none of the assembler's own names is the label of a line. -/
theorem exists_label_of_mem {listing : Listing} {start locals position : Nat} {name : String}
    (own : isReserved name = false) (member : (name, position) ∈ listing.labelsFrom start locals) :
    ∃ (before : Listing) (line : Line) (rest : Listing), listing = before ++ line :: rest ∧
      line.label = some name ∧ position = start + before.size := by
  induction listing generalizing start locals with
  | nil => simp [labelsFrom] at member
  | cons line lines ih =>
      rw [labelsFrom, List.mem_append, List.mem_append] at member
      rcases member with (here | inner) | later
      · obtain ⟨label, labelled, equal⟩ := List.mem_map.mp here
        cases equal
        exact ⟨[], line, lines, rfl, Option.mem_toList.mp labelled, rfl⟩
      · obtain ⟨⟨place, number⟩, _, equal⟩ := List.mem_map.mp inner
        cases equal
        rw [isReserved_localName] at own
        cases own
      · obtain ⟨before, other, rest, rfl, labelled, equal⟩ := ih later
        refine ⟨line :: before, other, rest, rfl, labelled, ?_⟩
        rw [equal, size, Nat.add_assoc]

/-- A name that has a position and is none of the assembler's own is the label of a line. -/
theorem exists_label_of_position? {listing : Listing} {position : Nat} {name : String}
    (own : isReserved name = false)
    (found : (Layout.ofListing listing).position? name = some position) :
    ∃ (before : Listing) (line : Line) (rest : Listing), listing = before ++ line :: rest ∧
      line.label = some name ∧ position = before.size := by
  -- The names behind the program are reserved, so the name is one of the program.
  rcases List.mem_append.mp (mem_of_lookup found) with program | hidden
  · obtain ⟨before, line, rest, split, labelled, place⟩ := exists_label_of_mem own program
    exact ⟨before, line, rest, split, labelled, by rw [place, Nat.zero_add]⟩
  · have reserved := (Layout.nodup_hiddenNames _ (nodup_poolFrom List.nodup_nil listing)).2
      name (List.mem_map_of_mem hidden)
    rw [reserved.1] at own
    cases own

theorem mem_names_of_label {before rest : Listing} {line : Line} {name : String}
    (labelled : line.label = some name) :
    (name, before.size) ∈ (Layout.ofListing (before ++ line :: rest)).names := by
  simp [Layout.ofListing, labelsFrom_append, labelsFrom, labelled]

theorem mem_names_of_inner {before rest : Listing} {line : Line} {index position : Nat}
    (found : (line.innerLabels before.size)[index]? = some position) :
    (localName (before.localCount + 1 + index), position) ∈
      (Layout.ofListing (before ++ line :: rest)).names := by
  have entry : (position, before.localCount + 1 + index) ∈
      (line.innerLabels before.size).zipIdx (before.localCount + 1) :=
    List.mk_add_mem_zipIdx_iff_getElem?.mpr found
  rw [Layout.ofListing, labelsFrom_append, labelsFrom, Nat.zero_add, Nat.zero_add]
  refine List.mem_append_left _ (List.mem_append_right _ (List.mem_append_left _
    (List.mem_append_right _ ?_)))
  exact List.mem_map.mpr ⟨_, entry, rfl⟩

/-! ## What is emitted -/

/-- What a term is emitted as in an image whose labels have the addresses of a table. -/
def Emits (listing : Listing) (origin : Int) (table : List (String × Int)) (cells : List Int) :
    Term → Int → Prop
  | .value value, emitted => emitted = value
  | .position position, emitted => emitted = origin + position
  | .scratch cell, emitted => emitted = origin + (listing.size + cell.place : Nat)
  | .constant value, emitted =>
      ∃ place : Nat, listing.size + 3 ≤ place ∧ cells[place]? = some value ∧
        emitted = origin + place
  | .reference target, emitted =>
      ∃ offset, target.offsetValue = .ok offset ∧
        if target.name = endName then emitted = origin + cells.length + offset
        else ∃ (before : Listing) (line : Line) (rest : Listing),
          listing = before ++ line :: rest ∧ line.label = some target.name ∧
            table.lookup target.name = some (origin + before.size) ∧
            emitted = origin + before.size + offset

/-- An image in which everything stands in its place. -/
structure LaidOut (listing : Listing) (origin : Int) (table : List (String × Int))
    (cells : List Int) : Prop where
  length : cells.length = listing.size + 3 + listing.constants.dedup.length
  scratch : ∀ cell : Scratch, cells[listing.size + cell.place]? = some 0
  pool : (cells.drop (listing.size + 3)).Perm listing.constants.dedup
  /-- A label is where its line starts. -/
  labels : ∀ {before rest : Listing} {line : Line} {name : String},
    listing = before ++ line :: rest → line.label = some name →
      table.lookup name = some (origin + before.size)
  /-- The cells of a statement hold what its terms are emitted as. -/
  statements : ∀ {before rest : Listing} {line : Line} {statement : Statement},
    listing = before ++ line :: rest → line.statement = some statement →
      ∀ {place : Nat} {term : Term}, (statement.terms before.size)[place]? = some term →
        ∃ emitted, cells[before.size + place]? = some emitted ∧
          listing.Emits origin table cells term emitted
  /-- Every operand is the term of a cell. -/
  operands : ∀ {before rest : Listing} {line : Line} {statement : Statement},
    listing = before ++ line :: rest → line.statement = some statement →
      ∀ operand ∈ statement.operands,
        ∃ place : Nat, (statement.terms before.size)[place]? = some operand.term
  /-- A target that is left out is the address of the next cell. -/
  omitted : ∀ {before rest : Listing} {line : Line} {statement : Statement},
    listing = before ++ line :: rest → line.statement = some statement →
      ∀ {index : Nat} {instruction : Instruction},
        (statement.instructions before.size)[index]? = some instruction →
          instruction.target = none →
            cells[before.size + (3 * index + 2)]? =
              some (origin + (before.size + (3 * index + 3) : Nat))
  /-- No two entries of the table of all names have the same name. -/
  names : ((Layout.ofListing listing).names.map Prod.fst).Nodup
  /-- The name of a scratch cell denotes what the term for it is emitted as. -/
  scratchNames : ∀ cell : Scratch, ∃ address,
    (Layout.ofListing listing).resolveText origin cell.name = .ok address ∧
      listing.Emits origin table cells (.scratch cell) address
  constantNames : ∀ value ∈ listing.constants, ∃ address,
    (Layout.ofListing listing).resolveText origin (constantName value) = .ok address ∧
      listing.Emits origin table cells (.constant value) address
  /-- The labels inside expansions are numbered in the order of the lines. -/
  localNames : ∀ {before rest : Listing} {line : Line}, listing = before ++ line :: rest →
    ∀ {index position : Nat}, (line.innerLabels before.size)[index]? = some position →
      ∃ address, (Layout.ofListing listing).resolveText origin
          (localName (before.localCount + 1 + index)) = .ok address ∧
        listing.Emits origin table cells (.position position) address

end Listing

/-! ## Names -/

namespace Layout

theorem nodup_names_of_read {source : String} {listing : Listing}
    (accepted : Listing.read source = .ok listing) :
    ((ofListing listing).names.map Prod.fst).Nodup :=
  nodup_names (Listing.unreserved_of_read accepted) (Listing.nodup_labels_of_read accepted)

/-- A name of the table, looked up by its spelling, is where the table says. -/
theorem resolveText_of_mem {layout : Layout} (distinct : (layout.names.map Prod.fst).Nodup)
    {name : String} (spelled : Reference.ofText? name = some { text := name, name, offset := "" })
    {position : Nat} (member : (name, position) ∈ layout.names) (origin : Int) :
    layout.resolveText origin name = .ok (origin + position) := by
  have noOffset : Reference.offsetValue { text := name, name, offset := "" } = .ok 0 := rfl
  rw [resolveText, spelled]
  simp only [resolveReference, position?, lookup_of_mem distinct member, noOffset, Int.add_zero]

theorem mem_hiddenNames_scratch (size : Nat) (pool : List Int) (cell : Scratch) :
    (cell.name, size + cell.place) ∈ hiddenNames size pool := by
  cases cell <;> simp [hiddenNames, Scratch.all]

theorem mem_hiddenNames_constant (size : Nat) {pool : List Int} {value : Int}
    (pooled : value ∈ pool) :
    (constantName value, poolStart size + pool.idxOf value) ∈ hiddenNames size pool := by
  have entry : (value, poolStart size + pool.idxOf value) ∈ pool.zipIdx (poolStart size) := by
    rw [List.mk_add_mem_zipIdx_iff_getElem?]
    exact List.getElem?_idxOf pooled
  rw [hiddenNames, List.mem_append, List.mem_append]
  exact Or.inl (Or.inr (List.mem_map_of_mem entry))

/-- The labels of a program have the addresses of their lines. -/
theorem lookup_labels {source : String} {before rest : Listing} {line : Line} {name : String}
    (accepted : Listing.read source = .ok (before ++ line :: rest))
    (labelled : line.label = some name) (origin : Int) :
    ((ofListing (before ++ line :: rest)).labels origin).lookup name =
      some (origin + before.size) := by
  apply lookup_of_mem
  · rw [labels, List.map_map]
    exact (nodup_names_of_read accepted).sublist (List.filter_sublist.map Prod.fst)
  · have own := Listing.unreserved_of_read accepted line (by simp) name labelled
    refine List.mem_map.mpr ⟨(name, before.size), ?_, rfl⟩
    exact List.mem_filter.mpr ⟨Listing.mem_names_of_label labelled, by simp [own]⟩

end Layout

/-! ## Images -/

namespace Listing

variable {source : String} {listing : Listing} {origin : Int} {cells : List Int}

/-- A constant that is used is emitted as the address of its pool cell. -/
theorem emits_constant (assembled : listing.image (.ofListing listing) origin = .ok cells)
    (table : List (String × Int)) {value : Int} (used : value ∈ listing.constants) :
    listing.Emits origin table cells (.constant value)
      (origin + (Layout.poolStart listing.size + (listing.poolFrom []).idxOf value : Nat)) :=
  ⟨_, Nat.le_add_right _ _, getElem?_image_constant assembled (mem_poolFrom_of_used used), rfl⟩

/-- A reference of a source is emitted as the address of its label, or of the end, with its
offset. -/
theorem emits_reference (accepted : read source = .ok listing)
    (assembled : listing.image (.ofListing listing) origin = .ok cells) {target : Reference}
    (own : (Operand.reference target).Unreserved) {emitted : Int}
    (resolved : (Layout.ofListing listing).resolveReference origin target = .ok emitted) :
    listing.Emits origin ((Layout.ofListing listing).labels origin) cells (.reference target)
      emitted := by
  unfold Layout.resolveReference at resolved
  split at resolved
  · cases resolved
  next position found =>
    split at resolved
    · cases resolved
    next offset valued =>
      cases resolved
      refine ⟨offset, valued, ?_⟩
      split
      next isEnd =>
        rw [isEnd, position?_endName (unreserved_of_read accepted)] at found
        cases found
        rw [length_image assembled]
        rfl
      next isLabel =>
        have notReserved : isReserved target.name = false := own.resolve_right isLabel
        obtain ⟨before, line, rest, rfl, labelled, rfl⟩ :=
          exists_label_of_position? notReserved found
        exact ⟨before, line, rest, rfl, labelled,
          Layout.lookup_labels accepted labelled origin, rfl⟩

/-- Every cell of a statement holds what its term is emitted as. -/
theorem emits_of_resolve (accepted : read source = .ok listing)
    (assembled : listing.image (.ofListing listing) origin = .ok cells) {line : Line}
    (member : line ∈ listing) {statement : Statement} (has : line.statement = some statement)
    {start place : Nat} {term : Term} (made : statement.Makes start place term) {emitted : Int}
    (resolved : (Layout.ofListing listing).resolve origin term = .ok emitted) :
    listing.Emits origin ((Layout.ofListing listing).labels origin) cells term emitted := by
  -- Only constants and references need to know the pool and the table.
  cases made with
  | next => exact (Except.ok.inj resolved).symm
  | given given =>
      cases given with
      | mark => exact (Except.ok.inj resolved).symm
      | inner => exact (Except.ok.inj resolved).symm
      | scratch cell =>
          rw [← Except.ok.inj resolved]
          simp [Emits, Layout.ofListing, Int.add_assoc]
      | @operand operand own =>
          cases operand with
          | literal value => exact (Except.ok.inj resolved).symm
          | constant value =>
              have used : value ∈ listing.constants :=
                mem_constants.mpr ⟨line, member, by simpa [Line.operands, has] using own⟩
              have emits := emits_constant assembled
                ((Layout.ofListing listing).labels origin) used
              rw [← Except.ok.inj resolved]
              simpa [Layout.ofListing, Operand.term, Int.add_assoc] using emits
          | reference target =>
              exact emits_reference accepted assembled
                (unreserved_operands_of_read accepted line member statement has _ own) resolved

theorem laidOut_of_image (accepted : read source = .ok listing)
    (assembled : listing.image (.ofListing listing) origin = .ok cells) :
    listing.LaidOut origin ((Layout.ofListing listing).labels origin) cells where
  length := by
    rw [length_image assembled, ← listing.perm_poolFrom.length_eq]
    rfl
  scratch := getElem?_image_scratch assembled
  pool := by
    rw [← List.drop_drop, drop_image assembled]
    exact listing.perm_poolFrom
  labels := by
    rintro before rest line name rfl labelled
    exact Layout.lookup_labels accepted labelled origin
  statements := by
    rintro before rest line statement rfl has place term found
    obtain ⟨emitted, resolved, stands⟩ := getElem?_image_statement assembled has found
    exact ⟨emitted, stands, emits_of_resolve accepted assembled (by simp) has
      (Statement.makes_of_getElem? found) resolved⟩
  operands := by
    rintro before rest line statement rfl has operand own
    exact List.getElem?_of_mem (Statement.term_mem_terms own before.size)
  omitted := by
    rintro before rest line statement rfl has index instruction found omitted
    obtain ⟨emitted, resolved, stands⟩ := getElem?_image_statement assembled has
      (Statement.getElem?_terms_of_omitted found omitted)
    rw [stands, ← Except.ok.inj resolved]
  names := Layout.nodup_names_of_read accepted
  scratchNames cell :=
    ⟨_, Layout.resolveText_of_mem (Layout.nodup_names_of_read accepted)
      (ofText?_scratchName cell) (List.mem_append_right _
        (Layout.mem_hiddenNames_scratch _ _ cell)) origin, rfl⟩
  constantNames value used :=
    ⟨_, Layout.resolveText_of_mem (Layout.nodup_names_of_read accepted)
      (ofText?_constantName value) (List.mem_append_right _
        (Layout.mem_hiddenNames_constant _ (mem_poolFrom_of_used used))) origin,
      emits_constant assembled _ used⟩
  localNames := by
    rintro before rest line rfl index position found
    exact ⟨_, Layout.resolveText_of_mem (Layout.nodup_names_of_read accepted)
      (ofText?_localName _) (mem_names_of_inner found) origin, rfl⟩

end Listing

/-- Assembling puts everything in its place: the scratch cells and the constants that are used stand
behind the statements, the statements hold the addresses of labels, constants, the end and the next
instruction where they are asked for, and no label or other name of the assembler takes the place of
the name of a scratch cell, of a constant or of a label inside an expansion. -/
theorem assemble_lays_out {source : String} {origin : Int} {cells : List Int} {sizes : Measure}
    (assembled : assemble source origin = .ok (cells, sizes)) :
    ∃ listing table, Listing.read source = .ok listing ∧ labels source origin = .ok table ∧
      listing.LaidOut origin table cells := by
  obtain ⟨-, listing, accepted, image, -⟩ := assemble_eq_ok_iff.mp assembled
  refine ⟨listing, (Layout.ofListing listing).labels origin, accepted, ?_,
    Listing.laidOut_of_image accepted image⟩
  rw [labels, accepted]
  rfl

/-- A source that waits for a zero, with labels inside an expansion and references both ways. -/
def waitSource : String :=
  "wait: IN c\n JEQ c #'0' done\n JMP wait\ndone: SUBLEQ c __END-1\nc: DATA #-7 #48 done+1"

/-- Its image for the origin 100: the statements end before 142, the scratch cells before 145, and
the pool holds `48` and `-7`. -/
def waitImage : List Int :=
  [-1, 139, 103, 143, 143, 106, 139, 142, 109, 142, 143, 112, 142, 142, 115, 145, 143, 118, 142,
    143, 124, 142, 142, 133, 144, 144, 127, 143, 144, 130, 142, 144, 136, 142, 142, 100, 139, 146,
    139, 146, 145, 137, 0, 0, 0, 48, -7]

/-- The image of `waitSource` at the origin 100 is laid out. -/
theorem assemble_lays_out_wait :
    assemble waitSource 100 = .ok (waitImage, ⟨47, 11, 2⟩) ∧
      ∃ listing table, Listing.read waitSource = .ok listing ∧
        labels waitSource 100 = .ok table ∧ listing.LaidOut 100 table waitImage := by
  have assembled : assemble waitSource 100 = .ok (waitImage, ⟨47, 11, 2⟩) := by decide +kernel
  exact ⟨assembled, assemble_lays_out assembled⟩

end Subleq.Assembly
