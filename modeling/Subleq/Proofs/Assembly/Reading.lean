import Subleq.Proofs.Assembly.Names

/-!
# Reading sources

What reading a source does to texts that are put together from parts. Lines are read one after the
other, so a source can be read in parts; and a number that is written in decimal is read as the
literal it is. Lines without a label and a statement give no cell and no name, so the image of a
listing is that of its other lines.
-/

namespace Subleq.Assembly

/-! ## Numbers -/

/-- A number that is written in decimal is read as a literal. -/
theorem Operand.parse_toString {number : Nat} (short : (toString number).length ≤ 4300) :
    Operand.parse (toString number) = .ok (.literal number) := by
  obtain ⟨numeral, strict, valued⟩ := Program.spells_iff.mp (Program.spells_toString short)
  simp only [Operand.parse, strict, numeralValue, valued]
  rfl

theorem Statement.parseOperands_toString {numbers : List Nat}
    (short : ∀ number ∈ numbers, (toString number).length ≤ 4300) :
    Statement.parseOperands (numbers.map toString) =
      .ok (numbers.map fun number : Nat => .literal number) := by
  induction numbers with
  | nil => rfl
  | cons number numbers ih =>
      rw [List.map_cons, parseOperands, Operand.parse_toString (short number List.mem_cons_self),
        ih fun other member => short other (List.mem_cons_of_mem _ member)]
      rfl

/-! ## Tokens -/

theorem Line.tokens_of_words {text : List Char} {tokens : List String}
    (cut : Text.words text = tokens.map String.toList)
    (code : ∀ token ∈ tokens, token.toList.head? ≠ some ';') : Line.tokens text = tokens := by
  have kept : ∀ word ∈ tokens.map String.toList, (word.head? != some ';') = true := by
    intro word member
    obtain ⟨token, inside, rfl⟩ := List.mem_map.mp member
    exact bne_iff_ne.mpr (code token inside)
  rw [Line.tokens, cut, List.takeWhile_eq_self_iff.mpr kept, List.map_map]
  simp only [Function.comp_def, String.ofList_toList, List.map_id']

/-! ## Parts of a source -/

theorem Line.read_of_fresh {defined more tokens : List String} {line : Line}
    (accepted : Line.read defined tokens = .ok line) (fresh : ∀ name ∈ line.label, name ∉ more) :
    Line.read (defined ++ more) tokens = .ok line := by
  unfold Line.read at accepted ⊢
  split at accepted
  next => exact accepted
  next token tokens =>
    split at accepted
    next => exact accepted
    next name _ =>
      split at accepted
      next => cases accepted
      next judged =>
        obtain ⟨statement, read, rfl⟩ := exists_of_map_eq_ok accepted
        obtain ⟨free, absent⟩ := Line.checkLabel_eq_ok judged
        have unused : name ∉ defined ++ more := by
          simp [absent, fresh name rfl]
        simp [Line.checkLabel, free, unused, read, Except.map]

namespace Listing

/-- A source can be read in parts: the later part is read with the labels of the earlier one
defined. -/
theorem readFrom_append {defined : List String} {number : Nat} {texts : List (List Char)}
    {listing : Listing} (accepted : readFrom defined number texts = .ok listing)
    (more : List (List Char)) :
    readFrom defined number (texts ++ more) =
      (readFrom (listing.labels.reverse ++ defined) (number + texts.length) more).map
        (listing ++ ·) := by
  induction texts generalizing defined number listing with
  | nil =>
      cases accepted
      rw [List.nil_append, labels, List.filterMap_nil, List.reverse_nil, List.nil_append,
        List.length_nil, Nat.add_zero]
      cases readFrom defined number more <;> rfl
  | cons text texts ih =>
      rw [readFrom] at accepted
      rw [List.cons_append, readFrom]
      split at accepted
      · cases accepted
      next line first =>
        obtain ⟨lines, rest, rfl⟩ := exists_of_map_eq_ok accepted
        have known : (labels lines).reverse ++ (line.label.toList ++ defined) =
            (labels (line :: lines)).reverse ++ defined := by
          rw [labels_cons, List.reverse_append]
          cases line.label <;> simp
        rw [ih rest, known, List.length_cons, Nat.add_right_comm, Nat.add_assoc number]
        cases readFrom ((labels (line :: lines)).reverse ++ defined)
          (number + (texts.length + 1)) more <;> rfl

/-! ## Lines that say nothing -/

theorem labels_append (first second : Listing) :
    labels (first ++ second) = labels first ++ labels second :=
  List.filterMap_append ..

/-- Lines are read as before when more names are defined that are none of theirs. -/
theorem readFrom_of_fresh {texts : List (List Char)} {defined more : List String} {number : Nat}
    {listing : Listing} (accepted : readFrom defined number texts = .ok listing)
    (fresh : ∀ name ∈ listing.labels, name ∉ more) (other : Nat) :
    readFrom (defined ++ more) other texts = .ok listing := by
  induction texts generalizing defined number listing other with
  | nil => exact accepted
  | cons text texts ih =>
      rw [readFrom] at accepted
      split at accepted
      next => cases accepted
      next line first =>
        obtain ⟨lines, rest, rfl⟩ := exists_of_map_eq_ok accepted
        rw [labels_cons] at fresh
        have own : ∀ name ∈ line.label, name ∉ more :=
          fun name label => fresh name (List.mem_append_left _ (Option.mem_toList.mpr label))
        have others := ih rest (fun name member => fresh name (List.mem_append_right _ member))
          (other + 1)
        rw [readFrom, Line.read_of_fresh first own]
        dsimp only
        rw [← List.append_assoc, others]
        rfl

/-- The lines of a listing that have a label or a statement. -/
def dense (listing : Listing) : Listing := listing.filter (· ≠ {})

theorem dense_cons (line : Line) (lines : Listing) :
    dense (line :: lines) = if line = {} then dense lines else line :: dense lines := by
  by_cases empty : line = {} <;> simp [dense, empty]

theorem dense_append (first second : Listing) :
    dense (first ++ second) = dense first ++ dense second :=
  List.filter_append ..

theorem size_dense (listing : Listing) : listing.dense.size = listing.size := by
  induction listing with
  | nil => rfl
  | cons line lines ih =>
      rw [dense_cons, size]
      split
      next empty =>
        rw [empty, ih]
        simp [Line.size]
      next => rw [size, ih]

theorem labels_dense (listing : Listing) : listing.dense.labels = listing.labels := by
  induction listing with
  | nil => rfl
  | cons line lines ih =>
      rw [dense_cons, labels_cons]
      split
      next empty =>
        rw [empty, ih]
        rfl
      next => rw [labels_cons, ih]

theorem poolFrom_dense (pool : List Int) (listing : Listing) :
    listing.dense.poolFrom pool = listing.poolFrom pool := by
  induction listing generalizing pool with
  | nil => rfl
  | cons line lines ih =>
      rw [dense_cons, poolFrom]
      split
      next empty =>
        rw [empty, ih]
        rfl
      next => rw [poolFrom, ih]

theorem labelsFrom_dense (start locals : Nat) (listing : Listing) :
    listing.dense.labelsFrom start locals = listing.labelsFrom start locals := by
  induction listing generalizing start locals with
  | nil => rfl
  | cons line lines ih =>
      rw [dense_cons, labelsFrom]
      split
      next empty =>
        rw [empty, ih]
        rfl
      next => rw [labelsFrom, ih]

/-- The cells are the same, but for the numbers of their lines. -/
theorem map_fst_cellsFrom_dense (start number other : Nat) (listing : Listing) :
    (listing.dense.cellsFrom start number).map Prod.fst =
      (listing.cellsFrom start other).map Prod.fst := by
  induction listing generalizing start number other with
  | nil => rfl
  | cons line lines ih =>
      rw [dense_cons, cellsFrom]
      split
      next empty =>
        rw [empty, ih start number (other + 1)]
        rfl
      next =>
        rw [cellsFrom, List.map_append, List.map_append, ih (start + line.size) (number + 1)
          (other + 1), List.map_map, List.map_map]
        rfl

theorem ofListing_dense (listing : Listing) :
    Layout.ofListing listing.dense = Layout.ofListing listing := by
  rw [Layout.ofListing, Layout.ofListing, size_dense, poolFrom_dense, labelsFrom_dense]

end Listing

/-- The values of cells do not depend on the numbers of their lines. -/
theorem Layout.resolveCells_of_map_fst {layout : Layout} {origin : Int}
    {cells others : List (Term × Nat)} (same : cells.map Prod.fst = others.map Prod.fst)
    {values : List Int} (resolved : layout.resolveCells origin cells = .ok values) :
    layout.resolveCells origin others = .ok values := by
  induction cells generalizing others values with
  | nil =>
      obtain rfl := List.map_eq_nil_iff.mp same.symm
      exact resolved
  | cons cell cells ih =>
      obtain ⟨term, line⟩ := cell
      obtain ⟨⟨other, otherLine⟩, rest, rfl, rfl, tail⟩ := List.map_eq_cons_iff.mp same.symm
      rw [resolveCells] at resolved ⊢
      dsimp only at resolved
      cases head : layout.resolve origin other with
      | error reason =>
          rw [head] at resolved
          cases resolved
      | ok value =>
          rw [head] at resolved
          obtain ⟨later, found, rfl⟩ := exists_of_map_eq_ok resolved
          rw [ih tail.symm found]
          rfl

/-- A listing has the image of its lines that say something. -/
theorem Listing.image_of_dense {listing : Listing} {origin : Int} {cells : List Int}
    (assembled : listing.dense.image (.ofListing listing.dense) origin = .ok cells) :
    listing.image (.ofListing listing) origin = .ok cells := by
  rw [ofListing_dense] at assembled
  obtain ⟨values, resolved, rfl⟩ := exists_of_map_eq_ok assembled
  rw [image, Layout.resolveCells_of_map_fst (map_fst_cellsFrom_dense 0 1 1 listing) resolved]
  rfl

end Subleq.Assembly
