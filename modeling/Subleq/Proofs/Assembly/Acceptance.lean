import Subleq.Proofs.Assembly.Grammar
import Subleq.Proofs.Assembly.Placement
import Subleq.Proofs.Assembly.Reading

/-!
# Sources that assemble

A source is assembled just if all its lines are well-formed and all the names they refer to are
defined. The lines are judged first, from the top: a complaint is about the first line that is not
well-formed. If there is none, then it is about the first cell that names a label which no line
defines; cells are laid down line by line, so this is the first line that refers to such a label.
-/

namespace Subleq.Assembly

/-- The tokens of the lines of a source. -/
def lineTokens (source : String) : List (List String) :=
  (Text.lines source.toList).map Line.tokens

/-- Whether a name is defined by one of some lines. -/
def DefinedBy (lines : List (List String)) (name : String) : Prop :=
  ∃ tokens ∈ lines, Defines tokens name

/-- Whether every one of some lines is well-formed, where the names of the lines before it are
taken, and those of earlier lines. -/
def WellFormedAfter (earlier lines : List (List String)) : Prop :=
  ∀ before tokens after, lines = before ++ tokens :: after →
    WellFormed (DefinedBy (earlier ++ before)) tokens

/-- Whether lines can refer to a name: it is the end of the image, or one of them defines it. -/
def Known (lines : List (List String)) (name : String) : Prop :=
  name = endName ∨ DefinedBy lines name

/-- Whether lines refer to known names only. -/
def NamesKnown (lines : List (List String)) : Prop :=
  ∀ tokens ∈ lines, ∀ name, Cites tokens name → Known lines name

/-- Whether the line of a number, which counts from one, is the first that is not well-formed. -/
def FirstMalformed (lines : List (List String)) (number : Int) : Prop :=
  ∃ before tokens after, lines = before ++ tokens :: after ∧ WellFormedAfter [] before ∧
    ¬WellFormed (DefinedBy before) tokens ∧ number = before.length + 1

/-- Whether the line of a number is the first that refers to a name which is not known, and the name
is one of those. -/
def FirstCiting (lines : List (List String)) (number : Int) (name : String) : Prop :=
  ∃ before tokens after, lines = before ++ tokens :: after ∧
    (∀ earlier ∈ before, ∀ other, Cites earlier other → Known lines other) ∧
    Cites tokens name ∧ ¬Known lines name ∧ number = before.length + 1

/-- Whether the first of some cells that refers to a name which is not known belongs to the line of
a number and refers to the given name. -/
def FirstUnknown (lines : List (List String)) (cells : List (Term × Nat)) (number : Int)
    (name : String) : Prop :=
  ∃ (before after : List (Term × Nat)) (target : Reference) (line : Nat),
    cells = before ++ (.reference target, line) :: after ∧
    (∀ other place, (.reference other, place) ∈ before → Known lines (Reference.name other)) ∧
    target.name = name ∧ ¬Known lines name ∧ number = line

/-! ## Tokens -/

/-- A token of a source has no line feed in it, and its digits stand in short runs if those of the
source do. -/
theorem plain_of_mem_tokens {source : String} (short : ShortRuns source.toList) :
    ∀ text ∈ Text.lines source.toList, ∀ token ∈ Line.tokens text,
      '\n' ∉ token.toList ∧ ShortRuns token.toList := by
  intro text line token member
  obtain ⟨word, taken, rfl⟩ := List.mem_map.mp member
  obtain ⟨stands, solid⟩ :=
    Text.infix_of_mem_words ((List.takeWhile_sublist _).mem taken)
  rw [String.toList_ofList]
  constructor
  · intro inside
    exact absurd (solid '\n' inside) (by decide)
  · exact short.of_infix (stands.trans (Text.infix_of_mem_lines line))

/-! ## Lines -/

theorem wellFormedAfter_cons {earlier lines : List (List String)} {tokens : List String} :
    WellFormedAfter earlier (tokens :: lines) ↔
      WellFormed (DefinedBy earlier) tokens ∧ WellFormedAfter (earlier ++ [tokens]) lines := by
  constructor
  · intro forms
    constructor
    · have here := forms [] tokens lines rfl
      rwa [List.append_nil] at here
    · intro before next after split
      have later := forms (tokens :: before) next after (by rw [split, List.cons_append])
      rwa [List.append_assoc, List.singleton_append]
  · rintro ⟨here, others⟩ before next after split
    cases before with
    | nil =>
        rw [List.nil_append, List.cons.injEq] at split
        rw [List.append_nil, ← split.1]
        exact here
    | cons first before =>
        rw [List.cons_append, List.cons.injEq] at split
        have later := others before next after split.2
        rwa [List.append_assoc, List.singleton_append, split.1] at later

namespace Listing

section Read

variable {texts : List (List Char)} {defined : List String} {earlier : List (List String)}
  {number : Nat}

/-- The names of a line are added to those of the lines before it. -/
theorem mem_defined_append (same : ∀ name, name ∈ defined ↔ DefinedBy earlier name)
    {tokens : List String} {line : Line} (reads : Conveys tokens line) (name : String) :
    name ∈ line.label.toList ++ defined ↔ DefinedBy (earlier ++ [tokens]) name := by
  rw [List.mem_append, Option.mem_toList, reads.label, same]
  simp only [DefinedBy, List.mem_append, List.mem_singleton]
  constructor
  · rintro (here | ⟨other, member, there⟩)
    · exact ⟨tokens, Or.inr rfl, here⟩
    · exact ⟨other, Or.inl member, there⟩
  · rintro ⟨other, member | rfl, there⟩
    · exact Or.inr ⟨other, member, there⟩
    · exact Or.inl there

theorem mem_nil_iff_definedBy (name : String) : name ∈ ([] : List String) ↔ DefinedBy [] name := by
  simp [DefinedBy]

/-- Accepted lines are well-formed, and they are read as they are written. -/
theorem wellFormed_of_readFrom
    (plain : ∀ text ∈ texts, ∀ token ∈ Line.tokens text,
      '\n' ∉ token.toList ∧ ShortRuns token.toList)
    (same : ∀ name, name ∈ defined ↔ DefinedBy earlier name) {listing : Listing}
    (accepted : readFrom defined number texts = .ok listing) :
    WellFormedAfter earlier (texts.map Line.tokens) ∧
      List.Forall₂ Conveys (texts.map Line.tokens) listing := by
  induction texts generalizing defined earlier number listing with
  | nil =>
      cases accepted
      exact ⟨by simp [WellFormedAfter], .nil⟩
  | cons text texts ih =>
      rw [readFrom] at accepted
      split at accepted
      next => cases accepted
      next line first =>
        obtain ⟨lines, rest, rfl⟩ := exists_of_map_eq_ok accepted
        have own := plain text List.mem_cons_self
        obtain ⟨form, reads⟩ := Line.wellFormed_of_read (fun token member => (own token member).1)
          (fun token member => (own token member).2) same first
        obtain ⟨forms, others⟩ := ih
          (fun other member => plain other (List.mem_cons_of_mem text member))
          (mem_defined_append same reads) rest
        exact ⟨wellFormedAfter_cons.mpr ⟨form, forms⟩, .cons reads others⟩

/-- The first line that is not well-formed is complained of. -/
theorem blames_of_readFrom
    (plain : ∀ text ∈ texts, ∀ token ∈ Line.tokens text,
      '\n' ∉ token.toList ∧ ShortRuns token.toList)
    (same : ∀ name, name ∈ defined ↔ DefinedBy earlier name) {fault : LineFault}
    (failed : readFrom defined number texts = .error fault) :
    ∃ before tokens after, texts.map Line.tokens = before ++ tokens :: after ∧
      WellFormedAfter earlier before ∧ ¬WellFormed (DefinedBy (earlier ++ before)) tokens ∧
      fault.line = number + before.length ∧ ∀ long, fault.reason ≠ .tooLong long := by
  induction texts generalizing defined earlier number with
  | nil => cases failed
  | cons text texts ih =>
      have own := plain text List.mem_cons_self
      rw [readFrom] at failed
      split at failed
      next reason refused =>
        cases failed
        obtain ⟨malformed, brief⟩ := Line.not_wellFormed_of_read
          (fun token member => (own token member).1) (fun token member => (own token member).2)
          same refused
        refine ⟨[], Line.tokens text, texts.map Line.tokens, rfl, by simp [WellFormedAfter], ?_,
          by simp, brief⟩
        rwa [List.append_nil]
      next line first =>
        obtain ⟨form, reads⟩ := Line.wellFormed_of_read (fun token member => (own token member).1)
          (fun token member => (own token member).2) same first
        cases rest : readFrom (line.label.toList ++ defined) (number + 1) texts with
        | ok lines =>
            rw [rest] at failed
            cases failed
        | error other =>
            rw [rest] at failed
            cases failed
            obtain ⟨before, tokens, after, split, forms, malformed, place, brief⟩ := ih
              (fun other member => plain other (List.mem_cons_of_mem text member))
              (mem_defined_append same reads) rest
            refine ⟨Line.tokens text :: before, tokens, after, ?_,
              wellFormedAfter_cons.mpr ⟨form, forms⟩, ?_, ?_, brief⟩
            · rw [List.map_cons, split, List.cons_append]
            · rwa [List.append_assoc, List.singleton_append] at malformed
            · rw [place, List.length_cons]
              omega

end Read

end Listing

/-! ## Cells -/

/-- The references in the cells of a line are its operands. -/
theorem Line.reference_mem_terms {line : Line} {start : Nat} {target : Reference} :
    Term.reference target ∈ line.terms start ↔ Operand.reference target ∈ line.operands := by
  unfold Line.terms Line.operands
  cases line.statement with
  | none => simp
  | some statement =>
      constructor
      · intro member
        obtain ⟨place, found⟩ := List.mem_iff_getElem?.mp member
        have made := Statement.makes_of_getElem? found
        generalize isReference : Term.reference target = term at made
        cases made with
        | next => cases isReference
        | given given =>
            cases given with
            | mark => cases isReference
            | scratch => cases isReference
            | inner => cases isReference
            | @operand operand own =>
                cases operand with
                | literal => cases isReference
                | constant => cases isReference
                | reference other =>
                    cases isReference
                    exact own
      · intro own
        exact Statement.term_mem_terms own start

namespace Listing

/-- A cell belongs to a line, and the cells of the lines before that stand before it. -/
theorem exists_line_of_cell {listing : Listing} {start number line : Nat} {term : Term}
    {before after : List (Term × Nat)}
    (split : listing.cellsFrom start number = before ++ (term, line) :: after) :
    ∃ (lead : Listing) (own : Line) (rest : Listing), listing = lead ++ own :: rest ∧
      term ∈ own.terms (start + lead.size) ∧ line = number + lead.length ∧
      lead.cellsFrom start number <+: before := by
  induction listing generalizing start number before with
  | nil => simp [cellsFrom] at split
  | cons first lines ih =>
      -- Either the cells of the first line all stand before the cell, or it is one of them.
      have later : ∀ middle, before = (first.terms start).map (·, number) ++ middle →
          cellsFrom (start + first.size) (number + 1) lines = middle ++ (term, line) :: after →
          ∃ (lead : Listing) (own : Line) (rest : Listing), first :: lines = lead ++ own :: rest ∧
            term ∈ own.terms (start + lead.size) ∧ line = number + lead.length ∧
            lead.cellsFrom start number <+: before := by
        rintro middle rfl tail
        obtain ⟨lead, own, rest, rfl, inside, place, earlier⟩ := ih tail
        refine ⟨first :: lead, own, rest, rfl, ?_, ?_, ?_⟩
        · rw [size, ← Nat.add_assoc]
          exact inside
        · rw [place, List.length_cons]
          omega
        · rw [cellsFrom]
          exact (List.prefix_append_right_inj _).mpr earlier
      rw [cellsFrom] at split
      rcases List.append_eq_append_iff.mp split with
        ⟨middle, front, tail⟩ | ⟨middle, front, tail⟩
      · exact later middle front tail
      · cases middle with
        | nil => exact later [] (by rw [front]; simp) tail.symm
        | cons cell middle =>
            rw [List.cons_append, List.cons.injEq] at tail
            have inside : (term, line) ∈ (first.terms start).map (·, number) := by
              rw [front, tail.1]
              simp
            obtain ⟨own, member, same⟩ := List.mem_map.mp inside
            cases same
            exact ⟨[], first, lines, rfl, member, rfl, List.nil_prefix⟩

theorem mem_cellsFrom_of_operand {listing : Listing} {line : Line} (member : line ∈ listing)
    {target : Reference} (own : Operand.reference target ∈ line.operands) (start number : Nat) :
    ∃ place, (.reference target, place) ∈ listing.cellsFrom start number := by
  obtain ⟨lead, rest, rfl⟩ := List.append_of_mem member
  refine ⟨number + lead.length, ?_⟩
  rw [cellsFrom_append, cellsFrom]
  refine List.mem_append_right _ (List.mem_append_left _ ?_)
  exact List.mem_map_of_mem (Line.reference_mem_terms.mpr own)

theorem exists_operand_of_mem_cellsFrom {listing : Listing} {target : Reference}
    {start number place : Nat}
    (member : (Term.reference target, place) ∈ listing.cellsFrom start number) :
    ∃ line ∈ listing, Operand.reference target ∈ line.operands := by
  obtain ⟨before, after, split⟩ := List.append_of_mem member
  obtain ⟨lead, own, rest, rfl, inside, -, -⟩ := exists_line_of_cell split
  exact ⟨own, by simp, Line.reference_mem_terms.mp inside⟩

end Listing

namespace Layout

variable {layout : Layout} {origin : Int}

/-- A cell is refused only if it refers to a name that has no position. -/
theorem resolve_error {term : Term} {reason : Reason}
    (offset : ∀ target, term = .reference target → ∃ value, target.offsetValue = .ok value)
    (failed : layout.resolve origin term = .error reason) :
    ∃ target, term = .reference target ∧ layout.position? target.name = none ∧
      reason = .unknownLabel target.name := by
  cases term with
  | reference target =>
      obtain ⟨value, valued⟩ := offset target rfl
      refine ⟨target, rfl, ?_⟩
      rw [resolve, resolveReference] at failed
      cases found : layout.position? target.name with
      | none =>
          rw [found] at failed
          cases failed
          exact ⟨rfl, rfl⟩
      | some position =>
          rw [found, valued] at failed
          cases failed
  | _ => cases failed

theorem exists_position?_of_resolve {target : Reference} {value : Int}
    (resolved : layout.resolve origin (.reference target) = .ok value) :
    ∃ position, layout.position? target.name = some position := by
  rw [resolve, resolveReference] at resolved
  cases found : layout.position? target.name with
  | none =>
      rw [found] at resolved
      cases resolved
  | some position => exact ⟨position, rfl⟩

theorem resolveCells_error {cells : List (Term × Nat)} {fault : LineFault}
    (failed : layout.resolveCells origin cells = .error fault) :
    ∃ (before after : List (Term × Nat)) (term : Term) (line : Nat) (reason : Reason),
      cells = before ++ (term, line) :: after ∧
      (∀ cell ∈ before, ∃ value, layout.resolve origin cell.1 = .ok value) ∧
      layout.resolve origin term = .error reason ∧ fault = ⟨line, reason⟩ := by
  induction cells with
  | nil => cases failed
  | cons cell cells ih =>
      obtain ⟨term, line⟩ := cell
      rw [resolveCells] at failed
      cases first : layout.resolve origin term with
      | error reason =>
          rw [first] at failed
          cases failed
          exact ⟨[], cells, term, line, reason, rfl, by simp, first, rfl⟩
      | ok value =>
          rw [first] at failed
          cases others : layout.resolveCells origin cells with
          | ok values =>
              rw [others] at failed
              cases failed
          | error other =>
              rw [others] at failed
              cases failed
              obtain ⟨before, after, bad, place, reason, rfl, fine, refused, rfl⟩ := ih others
              refine ⟨(term, line) :: before, after, bad, place, reason, rfl, ?_, refused, rfl⟩
              exact List.forall_mem_cons.mpr ⟨⟨value, first⟩, fine⟩

end Layout

/-! ## Sources -/

namespace Listing

variable {source : String} {listing : Listing} {origin : Int}

theorem wellFormed_of_read (short : ShortRuns source.toList)
    (accepted : read source = .ok listing) :
    WellFormedAfter [] (lineTokens source) ∧ List.Forall₂ Conveys (lineTokens source) listing :=
  wellFormed_of_readFrom (plain_of_mem_tokens short) mem_nil_iff_definedBy accepted

theorem firstMalformed_of_read (short : ShortRuns source.toList) {fault : LineFault}
    (refused : read source = .error fault) :
    FirstMalformed (lineTokens source) fault.line ∧ ∀ long, fault.reason ≠ .tooLong long := by
  obtain ⟨before, tokens, after, split, forms, malformed, place, brief⟩ :=
    blames_of_readFrom (plain_of_mem_tokens short) mem_nil_iff_definedBy refused
  refine ⟨⟨before, tokens, after, split, forms, malformed, ?_⟩, brief⟩
  rw [place]
  omega

/-- The lines of a listing and those of its source go together. -/
theorem exists_tokens_of_read (short : ShortRuns source.toList)
    {lead : Listing} {line : Line} {rest : Listing}
    (accepted : read source = .ok (lead ++ line :: rest)) :
    ∃ before tokens after, lineTokens source = before ++ tokens :: after ∧
      List.Forall₂ Conveys before lead ∧ Conveys tokens line := by
  have reads := (wellFormed_of_read short accepted).2.flip
  obtain ⟨before, behind, first, second, split⟩ := exists_of_forall₂_append reads
  obtain ⟨tokens, after, own, -, rfl⟩ := List.forall₂_cons_left_iff.mp second
  exact ⟨before, tokens, after, split, first.flip, own⟩

theorem exists_line_of_read (short : ShortRuns source.toList) (accepted : read source = .ok listing)
    {tokens : List String} (member : tokens ∈ lineTokens source) :
    ∃ line ∈ listing, Conveys tokens line := by
  have reads := (wellFormed_of_read short accepted).2
  obtain ⟨before, after, split⟩ := List.append_of_mem member
  rw [split] at reads
  obtain ⟨lead, behind, -, second, rfl⟩ := exists_of_forall₂_append reads
  obtain ⟨line, rest, own, -, rfl⟩ := List.forall₂_cons_left_iff.mp second
  exact ⟨line, by simp, own⟩

/-- The labels of a listing are the names that the lines of its source define. -/
theorem mem_labels_iff_of_read (short : ShortRuns source.toList)
    (accepted : read source = .ok listing) {name : String} :
    name ∈ listing.labels ↔ DefinedBy (lineTokens source) name := by
  rw [mem_labels]
  constructor
  · rintro ⟨line, member, labelled⟩
    obtain ⟨lead, rest, rfl⟩ := List.append_of_mem member
    obtain ⟨before, tokens, after, split, -, reads⟩ := exists_tokens_of_read short accepted
    exact ⟨tokens, by simp [split], (reads.label name).mp labelled⟩
  · rintro ⟨tokens, member, defines⟩
    obtain ⟨line, inside, reads⟩ := exists_line_of_read short accepted member
    exact ⟨line, inside, (reads.label name).mpr defines⟩

/-- The name that an operand refers to has a position just if it is known. -/
theorem exists_position?_iff_of_read (short : ShortRuns source.toList)
    (accepted : read source = .ok listing) {line : Line} (member : line ∈ listing)
    {target : Reference} (own : Operand.reference target ∈ line.operands) :
    (∃ position, (Layout.ofListing listing).position? target.name = some position) ↔
      Known (lineTokens source) target.name := by
  constructor
  · rintro ⟨position, found⟩
    have unreserved : (Operand.reference target).Unreserved := by
      unfold Line.operands at own
      split at own
      · cases own
      next statement has =>
        exact unreserved_operands_of_read accepted line member statement has _ own
    rcases unreserved with free | isEnd
    · obtain ⟨lead, other, rest, rfl, labelled, -⟩ := exists_label_of_position? free found
      refine Or.inr ((mem_labels_iff_of_read short accepted).mp ?_)
      exact mem_labels.mpr ⟨other, by simp, labelled⟩
    · exact Or.inl isEnd
  · rintro (isEnd | defined)
    · rw [isEnd]
      exact ⟨_, position?_endName (unreserved_of_read accepted)⟩
    · obtain ⟨other, inside, labelled⟩ :=
        mem_labels.mp ((mem_labels_iff_of_read short accepted).mpr defined)
      obtain ⟨lead, rest, rfl⟩ := List.append_of_mem inside
      exact ⟨_, lookup_of_mem (Layout.nodup_names_of_read accepted) (mem_names_of_label labelled)⟩

section Resolving

variable {term : Term} {place : Nat}

theorem known_of_resolve (short : ShortRuns source.toList) (accepted : read source = .ok listing)
    {target : Reference} (member : (Term.reference target, place) ∈ listing.cellsFrom 0 1)
    {value : Int}
    (resolved : (Layout.ofListing listing).resolve origin (.reference target) = .ok value) :
    Known (lineTokens source) target.name := by
  obtain ⟨line, inside, own⟩ := exists_operand_of_mem_cellsFrom member
  apply (exists_position?_iff_of_read short accepted inside own).mp
  exact Layout.exists_position?_of_resolve resolved

/-- A cell of a source is refused only if it refers to a name that is not known. -/
theorem unknown_of_resolve (short : ShortRuns source.toList) (accepted : read source = .ok listing)
    (member : (term, place) ∈ listing.cellsFrom 0 1) {reason : Reason}
    (failed : (Layout.ofListing listing).resolve origin term = .error reason) :
    ∃ target, term = .reference target ∧ ¬Known (lineTokens source) target.name ∧
      reason = .unknownLabel target.name := by
  have offset : ∀ target, term = .reference target →
      ∃ value, target.offsetValue = .ok value := by
    rintro target rfl
    obtain ⟨line, inside, own⟩ := exists_operand_of_mem_cellsFrom member
    obtain ⟨lead, rest, rfl⟩ := List.append_of_mem inside
    obtain ⟨-, tokens, -, -, -, reads⟩ := exists_tokens_of_read short accepted
    exact reads.offset target own
  obtain ⟨target, rfl, absent, rfl⟩ := Layout.resolve_error offset failed
  refine ⟨target, rfl, ?_, rfl⟩
  intro known
  obtain ⟨line, inside, own⟩ := exists_operand_of_mem_cellsFrom member
  obtain ⟨position, found⟩ := (exists_position?_iff_of_read short accepted inside own).mpr known
  rw [absent] at found
  cases found

end Resolving

/-- If all names are known, then the listing has an image. -/
theorem exists_image_of_namesKnown (short : ShortRuns source.toList)
    (accepted : read source = .ok listing) (known : NamesKnown (lineTokens source)) (origin : Int) :
    ∃ image, listing.image (.ofListing listing) origin = .ok image := by
  have resolves : ∀ cell ∈ listing.cellsFrom 0 1,
      ∃ value, (Layout.ofListing listing).resolve origin cell.1 = .ok value := by
    rintro ⟨term, place⟩ member
    cases resolved : (Layout.ofListing listing).resolve origin term with
    | ok value => exact ⟨value, rfl⟩
    | error reason =>
        obtain ⟨target, rfl, unknown, -⟩ := unknown_of_resolve short accepted member resolved
        obtain ⟨line, inside, own⟩ := exists_operand_of_mem_cellsFrom member
        obtain ⟨lead, rest, rfl⟩ := List.append_of_mem inside
        obtain ⟨before, tokens, after, split, -, reads⟩ := exists_tokens_of_read short accepted
        refine absurd (known tokens (by simp [split]) target.name ?_) unknown
        exact (reads.cites target.name).mpr ⟨target, own, rfl⟩
  obtain ⟨values, resolved⟩ := Layout.exists_resolveCells resolves
  exact ⟨_, by rw [image, resolved]; rfl⟩

/-- The first cell that refers to a name which is not known is complained of, and it belongs to the
first line that refers to such a name. -/
theorem blames_of_image (short : ShortRuns source.toList) (accepted : read source = .ok listing)
    {fault : LineFault} (failed : listing.image (.ofListing listing) origin = .error fault) :
    ∃ name, fault.reason = .unknownLabel name ∧
      FirstUnknown (lineTokens source) (listing.cellsFrom 0 1) fault.line name ∧
      FirstCiting (lineTokens source) fault.line name := by
  have refused : (Layout.ofListing listing).resolveCells origin (listing.cellsFrom 0 1) =
      .error fault := by
    rw [image] at failed
    cases resolved : (Layout.ofListing listing).resolveCells origin (listing.cellsFrom 0 1) with
    | ok values =>
        rw [resolved] at failed
        cases failed
    | error other =>
        rw [resolved] at failed
        cases failed
        rfl
  obtain ⟨before, after, term, line, reason, cells, fine, bad, rfl⟩ :=
    Layout.resolveCells_error refused
  have member : (term, line) ∈ listing.cellsFrom 0 1 := by
    rw [cells]
    exact List.mem_append_right _ List.mem_cons_self
  obtain ⟨target, rfl, unknown, rfl⟩ := unknown_of_resolve short accepted member bad
  have known : ∀ other place, (.reference other, place) ∈ before →
      Known (lineTokens source) (Reference.name other) := by
    intro other place front
    obtain ⟨value, resolved⟩ := fine _ front
    have cell : (.reference other, place) ∈ listing.cellsFrom 0 1 := by
      rw [cells]
      exact List.mem_append_left _ front
    exact known_of_resolve short accepted cell resolved
  refine ⟨target.name, rfl, ⟨before, after, target, line, cells, known, rfl, unknown, rfl⟩, ?_⟩
  obtain ⟨lead, own, rest, rfl, inside, place, earlier⟩ := exists_line_of_cell cells
  obtain ⟨firsts, tokens, others, split, related, reads⟩ := exists_tokens_of_read short accepted
  refine ⟨firsts, tokens, others, split, ?_, ?_, unknown, ?_⟩
  · intro tokens member name cites
    -- The lines above have all their cells before the one that is complained of.
    obtain ⟨front, behind, rfl⟩ := List.append_of_mem member
    obtain ⟨above, below, -, second, rfl⟩ := exists_of_forall₂_append related
    obtain ⟨upper, _, reads, -, rfl⟩ := List.forall₂_cons_left_iff.mp second
    obtain ⟨other, cited, rfl⟩ := (reads.cites name).mp cites
    obtain ⟨number, cell⟩ := mem_cellsFrom_of_operand
      (show upper ∈ above ++ upper :: _ by simp) cited 0 1
    exact known other number (earlier.subset cell)
  · exact (reads.cites target.name).mpr ⟨target, Line.reference_mem_terms.mp inside, rfl⟩
  · dsimp only
    rw [place, related.length_eq]
    omega

/-- If a listing has an image, then all names are known. -/
theorem namesKnown_of_image (short : ShortRuns source.toList) (accepted : read source = .ok listing)
    {cells : List Int} (assembled : listing.image (.ofListing listing) origin = .ok cells) :
    NamesKnown (lineTokens source) := by
  intro tokens member name cites
  obtain ⟨line, inside, reads⟩ := exists_line_of_read short accepted member
  obtain ⟨target, own, rfl⟩ := (reads.cites name).mp cites
  obtain ⟨place, cell⟩ := mem_cellsFrom_of_operand inside own 0 1
  obtain ⟨code, resolved, -⟩ := image_eq assembled
  obtain ⟨before, after, split⟩ := List.append_of_mem cell
  rw [split] at resolved
  obtain ⟨_, _, -, second, -⟩ := exists_of_forall₂_append resolved
  obtain ⟨value, _, found, -, -⟩ := List.forall₂_cons_left_iff.mp second
  exact known_of_resolve short accepted cell found

end Listing

/-- A source whose digits stand in short runs is assembled just if all its lines are well-formed and
all names that they refer to are known. Otherwise it is refused with the number of a line, and never
for the length of a numeral: the first line that is not well-formed; or, if there is none, the line
of the first cell that refers to a name which is not known, which is the first line to do so. -/
theorem assemble_accepts_grammar {source : String} {origin : Int} (nonnegative : 0 ≤ origin)
    (short : ShortRuns source.toList) :
    ((∃ image sizes, assemble source origin = .ok (image, sizes)) ↔
        WellFormedAfter [] (lineTokens source) ∧ NamesKnown (lineTokens source)) ∧
      ∀ failure, assemble source origin = .error failure →
        ∃ fault, failure = .line fault ∧ (∀ long, fault.reason ≠ .tooLong long) ∧
          (FirstMalformed (lineTokens source) fault.line ∨
            WellFormedAfter [] (lineTokens source) ∧
            ∃ listing name, Listing.read source = .ok listing ∧
              fault.reason = .unknownLabel name ∧
              FirstUnknown (lineTokens source) (listing.cellsFrom 0 1) fault.line name ∧
              FirstCiting (lineTokens source) fault.line name) := by
  constructor
  · constructor
    · rintro ⟨image, sizes, assembled⟩
      obtain ⟨-, listing, accepted, built, -⟩ := assemble_eq_ok_iff.mp assembled
      exact ⟨(Listing.wellFormed_of_read short accepted).1,
        Listing.namesKnown_of_image short accepted built⟩
    · rintro ⟨forms, known⟩
      cases accepted : Listing.read source with
      | error fault =>
          obtain ⟨⟨before, tokens, after, split, -, malformed, -⟩, -⟩ :=
            Listing.firstMalformed_of_read short accepted
          exact absurd (forms before tokens after split) malformed
      | ok listing =>
          obtain ⟨image, built⟩ :=
            Listing.exists_image_of_namesKnown short accepted known origin
          exact ⟨image, _, assemble_eq_ok_iff.mpr ⟨nonnegative, listing, accepted, built, rfl⟩⟩
  · intro failure failed
    rw [assemble, if_neg (Int.not_lt.mpr nonnegative)] at failed
    cases accepted : Listing.read source with
    | error fault =>
        rw [accepted] at failed
        cases failed
        obtain ⟨first, brief⟩ := Listing.firstMalformed_of_read short accepted
        exact ⟨fault, rfl, brief, Or.inl first⟩
    | ok listing =>
        rw [accepted] at failed
        dsimp only at failed
        cases built : listing.image (.ofListing listing) origin with
        | ok image =>
            rw [built] at failed
            cases failed
        | error fault =>
            rw [built] at failed
            cases failed
            obtain ⟨name, reason, cell, line⟩ := Listing.blames_of_image short accepted built
            refine ⟨fault, rfl, ?_, Or.inr ⟨(Listing.wellFormed_of_read short accepted).1, ?_⟩⟩
            · intro long
              rw [reason]
              exact Reason.noConfusion
            · exact ⟨listing, name, rfl, reason, cell, line⟩

/-- A source that is accepted; one where a label is defined twice, above another line that is not
well-formed; and one that refers to two names which no line defines: the cell for the second one is
laid down first. -/
theorem assemble_accepts_grammar_samples :
    (WellFormedAfter [] (lineTokens "loop: in c ; read\n sub c #'q'\nc: DATA loop+1") ∧
        NamesKnown (lineTokens "loop: in c ; read\n sub c #'q'\nc: DATA loop+1")) ∧
      FirstMalformed (lineTokens "a: HALT\na: JMP d\nMOV b b") 2 ∧
      FirstCiting (lineTokens "JMP end\nend: SUB a b") 2 "b" := by
  have short : ∀ text : List Char, text.length ≤ 4300 → ShortRuns text :=
    fun text bound run stands _ => stands.length_le.trans bound
  have nonnegative : (0 : Int) ≤ 100 := by decide
  refine ⟨?_, ?_, ?_⟩
  · exact (assemble_accepts_grammar nonnegative (short _ (by decide))).1.mp
      ⟨[-1, 106, 103, 110, 106, 106, 101, 0, 0, 0, 113], ⟨11, 7, 1⟩, by decide +kernel⟩
  · have refused : assemble "a: HALT\na: JMP d\nMOV b b" 100 =
        .error (.line ⟨2, .duplicateLabel "a"⟩) := by decide +kernel
    obtain ⟨fault, ⟨⟩, -, first | ⟨-, -, name, -, reason, -⟩⟩ :=
      (assemble_accepts_grammar nonnegative (short _ (by decide))).2 _ refused
    · exact first
    · cases reason
  · have refused : assemble "JMP end\nend: SUB a b" 100 =
        .error (.line ⟨2, .unknownLabel "b"⟩) := by decide +kernel
    obtain ⟨listing, accepted⟩ :
        ∃ listing, Listing.read "JMP end\nend: SUB a b" = .ok listing := ⟨_, rfl⟩
    obtain ⟨fault, ⟨⟩, -, ⟨before, tokens, after, split, -, malformed, -⟩ |
        ⟨-, -, name, -, reason, -, first⟩⟩ :=
      (assemble_accepts_grammar nonnegative (short _ (by decide))).2 _ refused
    · have forms := (Listing.wellFormed_of_read (short _ (by decide)) accepted).1
      exact absurd (forms before tokens after split) malformed
    · cases reason
      exact first

end Subleq.Assembly
