import Subleq.Proofs.Assembly.Grammar
import Subleq.Proofs.Assembly.Placement
import Subleq.Proofs.Assembly.Reading

/-!
# The use of labels

A label is defined by a token that fits the pattern of references, offset and all, but a reference
takes the name in front of the offset. So a name in the table of labels that has an offset in it
cannot be referred to as what it is: a line that does so refers to the label in front of the offset,
if there is one, and is refused otherwise. A name without an offset is emitted as its address.

A line that is put behind a source moves none of its labels, since everything that it adds stands
behind them.
-/

namespace Subleq.Assembly

/-! ## Names that labels have -/

/-- What defines a label fits the pattern of references, and there is no blank in it. -/
theorem Listing.matches_of_read {source : String} {listing : Listing}
    (accepted : read source = .ok listing) :
    ∀ line ∈ listing, ∀ name ∈ line.label, (∃ base offset, Matches name base offset) ∧
      ∀ c ∈ name.toList, Text.isBlank c = false := by
  refine forall_of_readFrom ?_ accepted
  intro defined text line judged name label
  have solid : ∀ token ∈ Line.tokens text, ∀ c ∈ token.toList, Text.isBlank c = false := by
    intro token member
    obtain ⟨word, taken, rfl⟩ := List.mem_map.mp member
    rw [String.toList_ofList]
    exact (Text.infix_of_mem_words ((List.takeWhile_sublist _).mem taken)).2
  have single : ∀ token ∈ Line.tokens text, '\n' ∉ token.toList :=
    fun token member inside => absurd (solid token member '\n' inside) (by decide)
  rw [Line.read_eq_parted] at judged
  obtain ⟨_, -, read⟩ := exists_of_bind_eq_ok judged
  obtain ⟨statement, -, rfl⟩ := exists_of_map_eq_ok read
  have splits := splits_parted single
  rw [show (parted (Line.tokens text)).1 = some name from label] at splits
  generalize (parted (Line.tokens text)).2 = code at splits
  generalize Line.tokens text = tokens at splits solid
  cases splits with
  | @labelled _ base offset fits =>
      refine ⟨⟨base, offset, fits⟩, fun c member => ?_⟩
      apply solid (name ++ ":") List.mem_cons_self c
      rw [String.toList_append]
      exact List.mem_append_left _ member

/-! ## Resolving by the table -/

namespace Layout

theorem isReserved_of_mem_hiddenNames {size : Nat} {pool : List Int} (distinct : pool.Nodup)
    {entry : String × Nat} (hidden : entry ∈ hiddenNames size pool) :
    isReserved entry.1 = true :=
  ((nodup_hiddenNames size distinct).2 entry.1 (List.mem_map_of_mem hidden)).1

/-- The table of labels has the positions of the names that are not the assembler's own. -/
theorem lookup_labels_eq (layout : Layout) (origin : Int) {name : String}
    (own : isReserved name = false) :
    (layout.labels origin).lookup name =
      (layout.position? name).map fun position : Nat => origin + position := by
  rw [position?, ← lookup_filter (!isReserved ·) (by simp [own]) layout.names]
  exact lookup_map_snd (fun position : Nat => origin + position) name _

/-- A reference to a label resolves to its address in the table, with the offset. -/
theorem resolveReference_eq (layout : Layout) (origin : Int) {target : Reference}
    (own : isReserved target.name = false) :
    layout.resolveReference origin target =
      match (layout.labels origin).lookup target.name with
      | none => .error (.unknownLabel target.name)
      | some address =>
          match target.offsetValue with
          | .error fault => .error (.tooLong fault)
          | .ok offset => .ok (address + offset) := by
  rw [layout.lookup_labels_eq origin own, resolveReference]
  cases layout.position? target.name with
  | none => rfl
  | some position => rfl

theorem resolveCells_concat {layout : Layout} {origin : Int} {cells : List (Term × Nat)}
    {values : List Int} (resolved : layout.resolveCells origin cells = .ok values) (term : Term)
    (line : Nat) :
    layout.resolveCells origin (cells ++ [(term, line)]) =
      match layout.resolve origin term with
      | .error reason => .error ⟨line, reason⟩
      | .ok value => .ok (values ++ [value]) := by
  induction cells generalizing values with
  | nil =>
      cases resolved
      rw [List.nil_append, resolveCells]
      cases layout.resolve origin term <;> rfl
  | cons cell cells ih =>
      obtain ⟨first, place⟩ := cell
      rw [resolveCells] at resolved
      rw [List.cons_append, resolveCells]
      cases head : layout.resolve origin first with
      | error reason =>
          rw [head] at resolved
          cases resolved
      | ok value =>
          rw [head] at resolved
          obtain ⟨others, found, rfl⟩ := exists_of_map_eq_ok resolved
          rw [ih found]
          cases layout.resolve origin term <;> rfl

/-- A layout in which every name of another one has a position resolves the cells that that one
resolves. -/
theorem exists_resolveCells_of_names {layout other : Layout} {origin : Int}
    (names : layout.names.map Prod.fst ⊆ other.names.map Prod.fst) {cells : List (Term × Nat)}
    {values : List Int} (resolved : layout.resolveCells origin cells = .ok values) :
    ∃ values, other.resolveCells origin cells = .ok values := by
  have each := forall₂_of_resolveCells resolved
  apply exists_resolveCells
  intro cell member
  obtain ⟨index, inside, rfl⟩ := List.mem_iff_getElem.mp member
  have found := each.get inside (each.length_eq ▸ inside)
  rw [List.get_eq_getElem] at found
  cases term : cells[index].1 with
  | value value => exact ⟨_, rfl⟩
  | position position => exact ⟨_, rfl⟩
  | scratch cell => exact ⟨_, rfl⟩
  | constant value => exact ⟨_, rfl⟩
  | reference target =>
      rw [term, resolve, resolveReference] at found
      rw [resolve, resolveReference]
      split at found
      next => cases found
      next position known =>
        have placed := names (List.mem_map_of_mem (mem_of_lookup known))
        obtain ⟨place, elsewhere⟩ := exists_lookup_of_mem placed
        split at found
        next => cases found
        next offset valued => exact ⟨_, by rw [position?, elsewhere]⟩

end Layout

/-! ## One more line -/

/-- A source with one more line behind it. -/
def withLine (source line : String) : String := source ++ "\n" ++ line

theorem isReserved_of_matches {name base offset : String} (fits : Matches name base offset)
    (own : isReserved name = false) : isReserved base = false := by
  rw [Bool.eq_false_iff] at own ⊢
  intro reserved
  apply own
  rw [isReserved, List.isPrefixOf_iff_prefix] at reserved ⊢
  rw [fits.parts, String.toList_append]
  exact reserved.trans (List.prefix_append _ _)

namespace Listing

theorem length_of_readFrom {texts : List (List Char)} {defined : List String} {number : Nat}
    {listing : Listing} (accepted : readFrom defined number texts = .ok listing) :
    listing.length = texts.length := by
  induction texts generalizing defined number listing with
  | nil =>
      cases accepted
      rfl
  | cons text texts ih =>
      rw [readFrom] at accepted
      split at accepted
      · cases accepted
      next line first =>
        obtain ⟨lines, rest, rfl⟩ := exists_of_map_eq_ok accepted
        rw [List.length_cons, List.length_cons, ih rest]

end Listing

/-- The line `DATA name`, where the name is made of a base and an offset. -/
def dataLine (name base offset : String) : Line :=
  { statement := some (.data [.reference { text := name, name := base, offset }]) }

section DataLine

variable {name base offset : String}

theorem tokens_dataLine (fits : Matches name base offset)
    (solid : ∀ c ∈ name.toList, Text.isBlank c = false) :
    Line.tokens ("DATA " ++ name).toList = ["DATA", name] := by
  obtain ⟨first, rest, spelled, start, -⟩ := fits.isName
  have whole : name.toList = first :: (rest ++ offset.toList) := by
    rw [fits.parts, String.toList_append, spelled, List.cons_append]
  have cut : Text.words ("DATA " ++ name).toList = ["DATA", name].map String.toList := by
    rw [String.toList_append, show "DATA ".toList = "DATA".toList ++ [' '] from rfl,
      List.append_assoc, List.singleton_append, Text.words_append_blank (by decide),
      Text.words_of_solid (by simp [whole]) solid]
    rfl
  apply Line.tokens_of_words cut
  intro token member
  rcases List.mem_pair.mp member with rfl | rfl
  · decide
  · rw [whole, List.head?_cons]
    rintro ⟨⟩
    exact absurd start (by decide)

theorem read_dataLine (fits : Matches name base offset) (own : isReserved name = false)
    (solid : ∀ c ∈ name.toList, Text.isBlank c = false) (defined : List String) :
    Line.read defined (Line.tokens ("DATA " ++ name).toList) =
      .ok (dataLine name base offset) := by
  have single : '\n' ∉ name.toList :=
    fun inside => absurd (solid '\n' inside) (by decide)
  have parsed : Operand.parse name = .ok (.reference ⟨name, base, offset⟩) :=
    Denotes.parse single (.reference fits (Or.inl (isReserved_of_matches fits own)))
  have known : Mnemonic.ofToken? "DATA" = some .data := by decide
  rw [tokens_dataLine fits solid, Line.read, show labelName? "DATA" = none by decide]
  simp only [Line.readStatement, known, Statement.parse, Statement.parseOperands, parsed]
  rfl

end DataLine

namespace Listing

variable {source name base offset : String} {listing gap : Listing} {origin : Int}

/-- Lines that add one cell, in the last of them, which refers to a target, but no name and no
constant. -/
structure Refers (behind : Listing) (target : Reference) : Prop where
  size : behind.size = 1
  pool : ∀ pool, behind.poolFrom pool = pool
  names : ∀ start locals, behind.labelsFrom start locals = []
  cells : ∀ start number, behind.cellsFrom start number =
    [(.reference target, number + behind.length - 1)]

theorem refers_dataLine (name base offset : String) :
    Refers [dataLine name base offset] { text := name, name := base, offset } where
  size := rfl
  pool _ := rfl
  names _ _ := rfl
  cells _ _ := rfl

theorem Refers.empty_cons {behind : Listing} {target : Reference} (refers : Refers behind target) :
    Refers ({} :: behind) target where
  size := (Nat.zero_add _).trans refers.size
  pool pool := refers.pool pool
  names start locals := refers.names start locals
  cells start number := by
    have later := refers.cells start (number + 1)
    rw [Nat.add_right_comm number 1, Nat.add_assoc number, ← List.length_cons] at later
    exact later

/-- Behind an accepted source the line is read too, perhaps behind an empty line. -/
theorem read_withLine (accepted : read source = .ok listing) (fits : Matches name base offset)
    (own : isReserved name = false) (solid : ∀ c ∈ name.toList, Text.isBlank c = false) :
    ∃ behind : Listing, Refers behind { text := name, name := base, offset } ∧
      read (withLine source ("DATA " ++ name)) = .ok (listing ++ behind) := by
  have whole : ∀ c ∈ ("DATA " ++ name).toList, Text.isLineEnd c = false := by
    intro c member
    rw [String.toList_append] at member
    rcases List.mem_append.mp member with word | letter
    · have plain : ∀ c ∈ "DATA ".toList, Text.isLineEnd c = false := by simp [Text.isLineEnd]
      exact plain c word
    · exact Text.not_isLineEnd_of_solid (solid c letter)
  have content : ("DATA " ++ name).toList ≠ [] := by
    rw [String.toList_append]
    exact List.append_ne_nil_of_left_ne_nil (by decide) _
  have text : (withLine source ("DATA " ++ name)).toList =
      source.toList ++ '\n' :: ("DATA " ++ name).toList := by
    simp [withLine]
  obtain ⟨gap, either, cut⟩ :=
    @Text.exists_lines_append_line source.toList _ content whole
  have line := read_dataLine fits own solid
  have refers := refers_dataLine name base offset
  rw [read, text, cut, readFrom_append accepted]
  rcases either with rfl | rfl
  · refine ⟨_, refers, ?_⟩
    simp only [List.nil_append, readFrom, line]
    rfl
  · refine ⟨_, refers.empty_cons, ?_⟩
    simp only [List.cons_append, List.nil_append, readFrom, line]
    rfl

theorem poolFrom_append (pool : List Int) (first second : Listing) :
    poolFrom pool (first ++ second) = poolFrom (poolFrom pool first) second := by
  induction first generalizing pool with
  | nil => rfl
  | cons line lines ih => exact ih _

/-- The table of labels is that of the lines, since the names behind them are the assembler's. -/
theorem labels_eq_filter {names : List (String × Nat)} {pool : List Int} (distinct : pool.Nodup)
    (size other : Nat) :
    Layout.labels { size, pool, names := names ++ Layout.hiddenNames other pool } origin =
      (names.filter fun (name, _) => !isReserved name).map fun (name, position) =>
        (name, origin + position) := by
  have none : (Layout.hiddenNames other pool).filter (fun (name, _) => !isReserved name) = [] := by
    rw [List.filter_eq_nil_iff]
    intro entry hidden
    simp [Layout.isReserved_of_mem_hiddenNames distinct hidden]
  rw [Layout.labels, List.filter_append, none, List.append_nil]

section Refers

variable {behind : Listing} {target : Reference}

theorem ofListing_append_of_refers (refers : Refers behind target) :
    Layout.ofListing (listing ++ behind) =
      { size := listing.size + 1, pool := listing.poolFrom [],
        names := listing.labelsFrom 0 0 ++
          Layout.hiddenNames (listing.size + 1) (listing.poolFrom []) } := by
  rw [Layout.ofListing, size_append, refers.size, poolFrom_append, refers.pool, labelsFrom_append,
    refers.names, List.append_nil]

theorem cellsFrom_append_of_refers (refers : Refers behind target) :
    (listing ++ behind).cellsFrom 0 1 =
      listing.cellsFrom 0 1 ++ [(.reference target, (listing ++ behind).length)] := by
  rw [cellsFrom_append, refers.cells, List.length_append]
  congr 4
  omega

theorem labels_append_of_refers (refers : Refers behind target) :
    (Layout.ofListing (listing ++ behind)).labels origin =
      (Layout.ofListing listing).labels origin := by
  have distinct := nodup_poolFrom List.nodup_nil listing
  rw [ofListing_append_of_refers refers, Layout.ofListing, labels_eq_filter distinct,
    labels_eq_filter distinct]

/-- The listing still resolves, so the image with the lines behind it is that of their cell. -/
theorem image_append_of_refers (refers : Refers behind target) {cells : List Int}
    (assembled : listing.image (.ofListing listing) origin = .ok cells) :
    ∃ values, values.length = listing.size ∧
      (listing ++ behind).image (.ofListing (listing ++ behind)) origin =
        match (Layout.ofListing (listing ++ behind)).resolveReference origin target with
        | .error reason => .error ⟨(listing ++ behind).length, reason⟩
        | .ok value =>
            .ok (values ++ [value] ++ Scratch.all.map (fun _ => 0) ++ listing.poolFrom []) := by
  obtain ⟨code, resolved, -⟩ := exists_of_map_eq_ok assembled
  have names : (Layout.ofListing listing).names.map Prod.fst ⊆
      (Layout.ofListing (listing ++ behind)).names.map Prod.fst := by
    rw [ofListing_append_of_refers refers, Layout.ofListing, List.map_append, List.map_append,
      Layout.map_fst_hiddenNames, Layout.map_fst_hiddenNames]
    exact List.Subset.refl _
  obtain ⟨values, elsewhere⟩ := Layout.exists_resolveCells_of_names names resolved
  have length := (Layout.forall₂_of_resolveCells elsewhere).length_eq
  rw [length_cellsFrom] at length
  refine ⟨values, length.symm, ?_⟩
  rw [image, cellsFrom_append_of_refers refers, Layout.resolveCells_concat elsewhere,
    Layout.resolve]
  cases (Layout.ofListing (listing ++ behind)).resolveReference origin target with
  | error reason => rfl
  | ok value =>
      rw [show (Layout.ofListing (listing ++ behind)).pool = listing.poolFrom [] by
        rw [ofListing_append_of_refers refers]]
      rfl

end Refers

end Listing

/-! ## Labels in data -/

/-- A name of the table of labels is the label of a line, which fits the pattern of references. -/
theorem exists_label_of_mem_labels {source : String} {listing : Listing} {origin : Int}
    (accepted : Listing.read source = .ok listing) {name : String} {address : Int}
    (member : (name, address) ∈ (Layout.ofListing listing).labels origin) :
    isReserved name = false ∧
      ((Layout.ofListing listing).labels origin).lookup name = some address ∧
      (∃ base offset, Matches name base offset) ∧ ∀ c ∈ name.toList, Text.isBlank c = false := by
  have distinct : (((Layout.ofListing listing).labels origin).map Prod.fst).Nodup := by
    rw [Layout.labels, List.map_map]
    exact (Layout.nodup_names_of_read accepted).sublist (List.filter_sublist.map Prod.fst)
  have found := lookup_of_mem distinct member
  obtain ⟨⟨other, position⟩, kept, same⟩ := List.mem_map.mp member
  obtain ⟨rfl, -⟩ := Prod.mk.inj same
  obtain ⟨placed, free⟩ := List.mem_filter.mp kept
  have own : isReserved other = false := by simpa using free
  obtain ⟨before, line, rest, split, labelled, -⟩ := Listing.exists_label_of_position? own
    (lookup_of_mem (Layout.nodup_names_of_read accepted) placed)
  obtain ⟨fits, solid⟩ :=
    Listing.matches_of_read accepted line (by simp [split]) other labelled
  exact ⟨own, found, fits, solid⟩

/-- How a label of an accepted source can be used. The name is made of a base and an offset, and a
line `DATA` with the name, put behind the source, leaves the table of labels as it is. Without an
offset the line is accepted, and its cell, the one behind those of the source, is the address of the
label. With an offset it is not the label that the line refers to but the base: the line is refused
if no label has the base as its name, or if the offset has too many digits, and otherwise its cell
is the address of the base, with the offset added. -/
theorem data_refers_to_base_of_label {source : String} {origin : Int} {cells : List Int}
    {sizes : Measure} (assembled : assemble source origin = .ok (cells, sizes)) :
    ∃ listing table, Listing.read source = .ok listing ∧ labels source origin = .ok table ∧
      ∀ name address, (name, address) ∈ table → ∃ base offset, Matches name base offset ∧
        let extended := withLine source ("DATA " ++ name)
        let last : Int := (Text.lines extended.toList).length
        let target : Reference := { text := name, name := base, offset }
        labels extended origin = .ok table ∧ table.lookup name = some address ∧
        (offset = "" → ∃ image measure, assemble extended origin = .ok (image, measure) ∧
          image[listing.size]? = some address) ∧
        (table.lookup base = none →
          assemble extended origin = .error (.line ⟨last, .unknownLabel base⟩)) ∧
        ∀ place, table.lookup base = some place →
          (∀ fault, target.offsetValue = .error fault →
            assemble extended origin = .error (.line ⟨last, .tooLong fault⟩)) ∧
          ∀ value, target.offsetValue = .ok value →
            ∃ image measure, assemble extended origin = .ok (image, measure) ∧
              image[listing.size]? = some (place + value) := by
  obtain ⟨nonnegative, listing, accepted, resolved, -⟩ := assemble_eq_ok_iff.mp assembled
  refine ⟨listing, (Layout.ofListing listing).labels origin, accepted,
    by rw [labels, accepted]; rfl, ?_⟩
  intro name address member
  obtain ⟨own, found, ⟨base, offset, fits⟩, solid⟩ := exists_label_of_mem_labels accepted member
  refine ⟨base, offset, fits, ?_⟩
  intro extended last target
  obtain ⟨behind, refers, read⟩ := Listing.read_withLine accepted fits own solid
  have table : (Layout.ofListing (listing ++ behind)).labels origin =
      (Layout.ofListing listing).labels origin := Listing.labels_append_of_refers refers
  obtain ⟨values, length, image⟩ := Listing.image_append_of_refers refers resolved
  rw [Layout.resolveReference_eq _ _ (isReserved_of_matches fits own), table] at image
  have count : last = (listing ++ behind).length := by
    exact congrArg Int.ofNat (Listing.length_of_readFrom read).symm
  have refused {reason : Reason}
      (failed : (listing ++ behind).image (.ofListing (listing ++ behind)) origin =
        .error ⟨(listing ++ behind).length, reason⟩) :
      assemble extended origin = .error (.line ⟨last, reason⟩) := by
    rw [assemble, if_neg (Int.not_lt.mpr nonnegative), read, count]
    simp only [failed]
  have emitted {value : Int}
      (done : (listing ++ behind).image (.ofListing (listing ++ behind)) origin =
        .ok (values ++ [value] ++ Scratch.all.map (fun _ => 0) ++ listing.poolFrom [])) :
      ∃ image measure, assemble extended origin = .ok (image, measure) ∧
        image[listing.size]? = some value := by
    refine ⟨_, _, assemble_eq_ok_iff.mpr ⟨nonnegative, _, read, done, rfl⟩, ?_⟩
    rw [← length]
    simp
  refine ⟨?_, found, ?_, ?_, ?_⟩
  · rw [labels, read, ← table]
    rfl
  · rintro rfl
    have same : base = name := by
      rw [fits.parts, String.append_empty]
    rw [same, found] at image
    have done := emitted image
    rwa [Int.add_zero] at done
  · intro absent
    rw [absent] at image
    exact refused image
  · intro place known
    rw [known] at image
    refine ⟨?_, ?_⟩
    · intro fault long
      rw [show Reference.offsetValue { text := name, name := base, offset } = .error fault from
        long] at image
      exact refused image
    · intro value valued
      rw [show Reference.offsetValue { text := name, name := base, offset } = .ok value from
        valued] at image
      exact emitted image

/-- A source with a label that has an offset in its name, and with a label for the base of it. -/
def basedSource : String := "foo: HALT\nbar: DATA 7\nfoo+3: HALT"

/-- A name without an offset is emitted as its address; one with an offset as that of the base with
the offset added, which is not its own. -/
theorem data_refers_to_base_of_label_based :
    labels basedSource 100 = .ok [("foo", 100), ("bar", 103), ("foo+3", 104)] ∧
      (∃ image measure,
        assemble (withLine basedSource "DATA bar") 100 = .ok (image, measure) ∧
          image[7]? = some 103) ∧
      ∃ image measure,
        assemble (withLine basedSource "DATA foo+3") 100 = .ok (image, measure) ∧
          image[7]? = some 103 := by
  have assembled : assemble basedSource 100 =
      .ok ([107, 107, -1, 7, 107, 107, -1, 0, 0, 0], ⟨10, 7, 0⟩) := by decide +kernel
  have named : labels basedSource 100 = .ok [("foo", 100), ("bar", 103), ("foo+3", 104)] := by
    decide +kernel
  have read : Listing.read basedSource = .ok [
      { label := some "foo", statement := some .halt },
      { label := some "bar", statement := some (.data [.literal 7]) },
      { label := some "foo+3", statement := some .halt }] := by decide +kernel
  obtain ⟨listing, table, accepted, tabled, uses⟩ := data_refers_to_base_of_label assembled
  cases accepted.symm.trans read
  cases tabled.symm.trans named
  refine ⟨named, ?_, ?_⟩
  · obtain ⟨base, offset, fits, -, -, plain, -⟩ := uses "bar" 103 (by decide)
    have parts : Reference.ofText? "bar" = some ⟨"bar", base, offset⟩ :=
      (ofText?_eq_some_iff (by decide)).mpr ⟨rfl, fits⟩
    cases parts.symm.trans (show _ = some ⟨"bar", "bar", ""⟩ by decide)
    exact plain rfl
  · obtain ⟨base, offset, fits, -, -, -, -, based⟩ := uses "foo+3" 104 (by decide)
    have parts : Reference.ofText? "foo+3" = some ⟨"foo+3", base, offset⟩ :=
      (ofText?_eq_some_iff (by decide)).mpr ⟨rfl, fits⟩
    cases parts.symm.trans (show _ = some ⟨"foo+3", "foo", "+3"⟩ by decide)
    exact (based 100 (by decide)).2 3 (by decide)

/-- A name with an offset cannot be used where there is no label for the base of it. -/
theorem label_with_offset_is_unknown :
    (∃ sizes, assemble "foo+3: HALT" 0 = .ok ([3, 3, -1, 0, 0, 0], sizes)) ∧
      labels "foo+3: HALT" 0 = .ok [("foo+3", 0)] ∧
      assemble (withLine "foo+3: HALT" "DATA foo+3") 0 =
        .error (.line ⟨2, .unknownLabel "foo"⟩) :=
  ⟨⟨⟨6, 5, 0⟩, by decide +kernel⟩, by decide +kernel, by decide +kernel⟩

end Subleq.Assembly
