import Mathlib.Data.List.Nodup
import Mathlib.Data.List.TakeWhile
import Mathlib.Logic.Function.Basic
import Subleq.Proofs.Assembly.Layout
import Subleq.Proofs.Program

/-!
# Names

The labels of a program share one table with the assembler's own names, those of the scratch cells,
of the pool cells, of the labels inside expansions and of the end. No two entries of the table have
the same name: labels are not defined twice and never reserved, and the assembler's names differ in
their third character or in their numbers. Hence each of them, looked up by its spelling, is where
the layout put it.
-/

namespace Subleq.Assembly

/-! ## Spelling -/

/-- The character by which the kinds of the assembler's own names differ. -/
def kindOf (name : String) : Option Char := name.toList[2]?

@[simp] theorem kindOf_localName (number : Nat) : kindOf (localName number) = some 'L' := by
  simp [kindOf, localName]

@[simp] theorem kindOf_constantName (value : Int) : kindOf (constantName value) = some 'K' := by
  unfold kindOf constantName
  split
  · simp
  · simp

theorem isReserved_constantName (value : Int) : isReserved (constantName value) = true := by
  unfold isReserved constantName
  split
  · simp [List.isPrefixOf]
  · simp [List.isPrefixOf]

/-- Behind the same letters, names that are equal have the same number. -/
theorem eq_of_append_toString {letters : String} {first second : Nat}
    (same : letters ++ toString first = letters ++ toString second) : first = second := by
  have spelled := congrArg String.toList same
  simp only [String.toList_append, List.append_cancel_left_eq, Nat.toString_eq_repr,
    Nat.toList_repr] at spelled
  have read := congrArg (Nat.ofDigitChars 10 · 0) spelled
  simpa only [Nat.ofDigitChars_toDigits (show 1 < 10 by decide) (Nat.le_refl 10)] using read

theorem localName_injective : Function.Injective localName :=
  fun _ _ same => eq_of_append_toString same

/-- The name of a negative constant has a letter where that of any other has a digit. -/
theorem constantName_ne_of_neg {first second : Int} (negative : first < 0)
    (nonnegative : ¬second < 0) : constantName first ≠ constantName second := by
  intro same
  have spelled := congrArg String.toList same
  rw [constantName, if_pos negative, constantName, if_neg nonnegative, String.toList_append,
    String.toList_append] at spelled
  have letter : 'n' ∈ (toString second.natAbs).toList := by
    rw [show "__Kn".toList = "__K".toList ++ ['n'] from rfl, List.append_assoc,
      List.append_cancel_left_eq] at spelled
    rw [← spelled]
    exact List.mem_cons_self
  exact absurd (Program.isDigit_of_mem_toString letter) (by decide)

theorem constantName_injective : Function.Injective constantName := by
  intro first second same
  by_cases firstNegative : first < 0
  · by_cases secondNegative : second < 0
    · rw [constantName, if_pos firstNegative, constantName, if_pos secondNegative] at same
      have equal := eq_of_append_toString same
      omega
    · exact absurd same (constantName_ne_of_neg firstNegative secondNegative)
  · by_cases secondNegative : second < 0
    · exact absurd same.symm (constantName_ne_of_neg secondNegative firstNegative)
    · rw [constantName, if_neg firstNegative, constantName, if_neg secondNegative] at same
      have equal := eq_of_append_toString same
      omega

/-! ## Names as references -/

theorem dropLastLineFeed_of_not_mem {text : List Char} (single : '\n' ∉ text) :
    dropLastLineFeed text = text := by
  unfold dropLastLineFeed
  split
  next rest reversed =>
    have member : '\n' ∈ text.reverse := by
      rw [reversed]
      exact List.mem_cons_self
    exact absurd (List.mem_reverse.mp member) single
  · rfl

/-- A name is a reference without an offset, if it is made of the characters of labels. -/
theorem ofText?_of_parts {name : String} {first : Char} {rest : List Char}
    (spelled : name.toList = first :: rest) (start : isLabelStart first = true)
    (parts : (first :: rest).all isLabelPart = true) :
    Reference.ofText? name = some { text := name, name, offset := "" } := by
  have single : '\n' ∉ name.toList := by
    rw [spelled]
    intro member
    exact absurd (List.all_eq_true.mp parts _ member) (by decide)
  have inside : ∀ c ∈ rest, isLabelPart c = true :=
    fun c member => List.all_eq_true.mp parts c (List.mem_cons_of_mem first member)
  have nothing : rest.dropWhile isLabelPart = [] := List.dropWhile_eq_nil_iff.mpr inside
  have everything : rest.takeWhile isLabelPart = rest := List.takeWhile_eq_self_iff.mpr inside
  rw [Reference.ofText?, dropLastLineFeed_of_not_mem single, spelled]
  simp only [nothing, everything, start, isOffset, Bool.and_self, if_true]
  rw [← spelled, String.ofList_toList]

theorem isLabelPart_of_isDigit {c : Char} (digit : c.isDigit = true) : isLabelPart c = true := by
  simp [isLabelPart, Char.isAlphanum, digit]

theorem ofText?_numbered {letters : String} {first : Char} {rest : List Char}
    (spelled : letters.toList = first :: rest) (start : isLabelStart first = true)
    (parts : (first :: rest).all isLabelPart = true) (number : Nat) :
    Reference.ofText? (letters ++ toString number) =
      some { text := letters ++ toString number, name := letters ++ toString number,
             offset := "" } := by
  have whole : (letters ++ toString number).toList =
      first :: (rest ++ (toString number).toList) := by
    rw [String.toList_append, spelled, List.cons_append]
  refine ofText?_of_parts whole start (List.all_eq_true.mpr ?_)
  intro c member
  rw [← List.cons_append, List.mem_append] at member
  rcases member with letter | digit
  · exact List.all_eq_true.mp parts c letter
  · exact isLabelPart_of_isDigit (Program.isDigit_of_mem_toString digit)

theorem ofText?_localName (number : Nat) :
    Reference.ofText? (localName number) =
      some { text := localName number, name := localName number, offset := "" } :=
  ofText?_numbered rfl (by decide) (by decide) number

theorem ofText?_constantName (value : Int) :
    Reference.ofText? (constantName value) =
      some { text := constantName value, name := constantName value, offset := "" } := by
  unfold constantName
  split
  · exact ofText?_numbered rfl (by decide) (by decide) _
  · exact ofText?_numbered rfl (by decide) (by decide) _

theorem ofText?_scratchName (cell : Scratch) :
    Reference.ofText? cell.name =
      some { text := cell.name, name := cell.name, offset := "" } := by
  cases cell with
  | zero => exact ofText?_of_parts rfl (by decide) (by decide)
  | difference => exact ofText?_of_parts rfl (by decide) (by decide)
  | opposite => exact ofText?_of_parts rfl (by decide) (by decide)

/-! ## Labels of a source -/

namespace Listing

/-- The labels of a listing in the order of their lines. -/
def labels (listing : Listing) : List String := listing.filterMap Line.label

theorem labels_cons (line : Line) (lines : Listing) :
    labels (line :: lines) = line.label.toList ++ labels lines := by
  cases label : line.label with
  | none => simp [labels, label]
  | some name => simp [labels, label]

theorem mem_labels {listing : Listing} {name : String} :
    name ∈ listing.labels ↔ ∃ line ∈ listing, line.label = some name := List.mem_filterMap

theorem nodup_labels_of_readFrom {texts : List (List Char)} {defined : List String} {number : Nat}
    {listing : Listing} (accepted : readFrom defined number texts = .ok listing) :
    listing.labels.Nodup ∧ ∀ name ∈ listing.labels, name ∉ defined := by
  induction texts generalizing defined number listing with
  | nil =>
      cases accepted
      simp [labels]
  | cons text texts ih =>
      rw [readFrom] at accepted
      split at accepted
      · simp at accepted
      next line first =>
        obtain ⟨lines, rest, rfl⟩ := exists_of_map_eq_ok accepted
        obtain ⟨distinct, fresh⟩ := ih rest
        have own : ∀ name ∈ line.label, name ∉ defined := fun name label =>
          (Line.checkLabel_eq_ok ((Line.read_eq_ok first).1 name label)).2
        rw [labels_cons]
        constructor
        · rw [List.nodup_append]
          refine ⟨by cases line.label <;> simp, distinct, ?_⟩
          rintro name here _ there rfl
          exact fresh name there (List.mem_append_left defined here)
        · intro name member
          rcases List.mem_append.mp member with here | there
          · exact own name (Option.mem_toList.mp here)
          · exact fun earlier => fresh name there (List.mem_append_right _ earlier)

theorem nodup_labels_of_read {source : String} {listing : Listing}
    (accepted : read source = .ok listing) : listing.labels.Nodup :=
  (nodup_labels_of_readFrom accepted).1

theorem isReserved_of_mem_labels {listing : Listing} (unreserved : listing.Unreserved)
    {name : String} (member : name ∈ listing.labels) : isReserved name = false := by
  obtain ⟨line, inside, label⟩ := mem_labels.mp member
  exact unreserved line inside name label

end Listing

/-! ## The table of all names -/

theorem Line.length_innerLabels (start : Nat) (line : Line) :
    (line.innerLabels start).length = (line.innerLabels 0).length := by
  unfold innerLabels
  cases line.statement with
  | none => rfl
  | some statement => cases statement <;> rfl

namespace Listing

/-- The number of labels inside the expansions of a listing. -/
def localCount : Listing → Nat
  | [] => 0
  | line :: lines => (line.innerLabels 0).length + localCount lines

theorem map_fst_localNames (first : Nat) (positions : List Nat) :
    ((positions.zipIdx first).map fun (position, number) =>
        (localName number, position)).map Prod.fst =
      (List.range' first positions.length).map localName := by
  rw [← List.zipIdx_map_snd, List.map_map, List.map_map]
  rfl

/-- The names of a program are its labels and those inside expansions, which are numbered. -/
theorem map_fst_labelsFrom (start locals : Nat) (listing : Listing) :
    ((listing.labelsFrom start locals).map Prod.fst).Perm
      (listing.labels ++ (List.range' (locals + 1) listing.localCount).map localName) := by
  induction listing generalizing start locals with
  | nil => simp [labelsFrom, labels, localCount]
  | cons line lines ih =>
      have here : ((line.label.toList.map (·, start)).map Prod.fst : List String) =
          line.label.toList := by
        simp [Function.comp_def]
      have inner := map_fst_localNames (locals + 1) (line.innerLabels start)
      rw [line.length_innerLabels start] at inner
      have later := ih (start + line.size) (locals + (line.innerLabels start).length)
      rw [labelsFrom, List.map_append, List.map_append, here, inner, labels_cons, localCount,
        ← List.range'_append_1, List.map_append, List.append_assoc, List.append_assoc]
      rw [line.length_innerLabels start, Nat.add_right_comm] at later
      rw [line.length_innerLabels start]
      apply List.Perm.append_left
      refine (later.append_left _).trans ?_
      rw [← List.append_assoc, ← List.append_assoc]
      exact List.perm_append_comm.append_right _

theorem labelsFrom_append (start locals : Nat) (first second : Listing) :
    labelsFrom start locals (first ++ second) =
      labelsFrom start locals first ++
        labelsFrom (start + first.size) (locals + first.localCount) second := by
  induction first generalizing start locals with
  | nil => simp [labelsFrom, size, localCount]
  | cons line lines ih =>
      rw [List.cons_append, labelsFrom, labelsFrom, ih, localCount, size, line.length_innerLabels,
        Nat.add_assoc start, Nat.add_assoc locals]
      simp only [List.append_assoc]

end Listing

theorem nodup_poolWith {pool : List Int} (distinct : pool.Nodup) (operands : List Operand) :
    (poolWith pool operands).Nodup := by
  unfold poolWith
  induction operands generalizing pool with
  | nil => exact distinct
  | cons operand operands ih =>
      rw [List.foldl_cons]
      apply ih
      cases operand.constant? with
      | none => exact distinct
      | some value =>
          dsimp only
          split
          · exact distinct
          next fresh =>
            have absent : value ∉ pool := fun member => fresh (List.contains_iff_mem.mpr member)
            exact List.nodup_append.mpr ⟨distinct, List.nodup_singleton value, by
              rintro other member _ there rfl
              rw [List.mem_singleton.mp there] at member
              exact absent member⟩

theorem Listing.nodup_poolFrom {pool : List Int} (distinct : pool.Nodup) (listing : Listing) :
    (listing.poolFrom pool).Nodup := by
  induction listing generalizing pool with
  | nil => exact distinct
  | cons line lines ih => exact ih (nodup_poolWith distinct line.operands)

namespace Layout

theorem map_fst_constantNames (first : Nat) (pool : List Int) :
    ((pool.zipIdx first).map fun (value, position) =>
        (constantName value, position)).map Prod.fst = pool.map constantName := by
  conv_rhs => rw [← List.zipIdx_map_fst first pool]
  rw [List.map_map, List.map_map]
  rfl

theorem map_fst_hiddenNames (size : Nat) (pool : List Int) :
    (hiddenNames size pool).map Prod.fst =
      Scratch.all.map Scratch.name ++ (pool.map constantName ++ [endName]) := by
  rw [hiddenNames, List.map_append, List.map_append, map_fst_constantNames, List.append_assoc]
  rfl

theorem kindOf_scratchName : ∀ cell ∈ Scratch.all.map Scratch.name,
    kindOf cell = some 'Z' ∨ kindOf cell = some 'T' ∨ kindOf cell = some 'U' := by
  decide

/-- The assembler's names behind a program differ from each other and from those inside
expansions. -/
theorem nodup_hiddenNames (size : Nat) {pool : List Int} (distinct : pool.Nodup) :
    ((hiddenNames size pool).map Prod.fst).Nodup ∧
      ∀ name ∈ (hiddenNames size pool).map Prod.fst,
        isReserved name = true ∧ kindOf name ≠ some 'L' := by
  have kinds : ∀ name ∈ pool.map constantName ++ [endName],
      isReserved name = true ∧ (kindOf name = some 'K' ∨ kindOf name = some 'E') := by
    intro name member
    rcases List.mem_append.mp member with pooled | last
    · obtain ⟨value, _, rfl⟩ := List.mem_map.mp pooled
      exact ⟨isReserved_constantName value, Or.inl (kindOf_constantName value)⟩
    · rw [List.mem_singleton.mp last]
      decide
  have reserved : ∀ name ∈ Scratch.all.map Scratch.name, isReserved name = true := by decide
  rw [map_fst_hiddenNames]
  constructor
  · rw [List.nodup_append, List.nodup_append]
    refine ⟨by decide, ⟨distinct.map constantName_injective, List.nodup_singleton _, ?_⟩, ?_⟩
    · rintro name pooled _ last rfl
      obtain ⟨value, _, rfl⟩ := List.mem_map.mp pooled
      have same := congrArg kindOf (List.mem_singleton.mp last)
      rw [kindOf_constantName] at same
      exact absurd same (by decide)
    · rintro name scratch _ behind rfl
      have first := kindOf_scratchName name scratch
      have second := (kinds name behind).2
      grind
  · intro name member
    rcases List.mem_append.mp member with scratch | behind
    · have kind := kindOf_scratchName name scratch
      exact ⟨reserved name scratch, by grind⟩
    · have kind := kinds name behind
      exact ⟨kind.1, by grind⟩

/-- No two entries of the table of names have the same name. -/
theorem nodup_names {listing : Listing} (unreserved : listing.Unreserved)
    (distinct : listing.labels.Nodup) : ((ofListing listing).names.map Prod.fst).Nodup := by
  have hidden := nodup_hiddenNames listing.size
    (Listing.nodup_poolFrom List.nodup_nil listing)
  have names := Listing.map_fst_labelsFrom 0 0 listing
  rw [ofListing, List.map_append, List.nodup_append]
  refine ⟨?_, hidden.1, ?_⟩
  · rw [names.nodup_iff, List.nodup_append]
    refine ⟨distinct, (List.nodup_range').map localName_injective, ?_⟩
    rintro name label _ numbered rfl
    obtain ⟨number, _, rfl⟩ := List.mem_map.mp numbered
    have own := Listing.isReserved_of_mem_labels unreserved label
    rw [isReserved_localName] at own
    cases own
  · rintro name program _ behind rfl
    obtain ⟨reserved, kind⟩ := hidden.2 name behind
    rcases List.mem_append.mp (names.mem_iff.mp program) with label | numbered
    · have own := Listing.isReserved_of_mem_labels unreserved label
      rw [reserved] at own
      cases own
    · obtain ⟨number, _, rfl⟩ := List.mem_map.mp numbered
      exact kind (kindOf_localName number)

end Layout

end Subleq.Assembly
