import Subleq.Monitor.Image
import Subleq.Proofs.Assembly.Correctness

/-!
# The parts of the monitor

Where the routines and the cells of the monitor stand, for any word list, and that its program is
confined: it writes only its own cells and the operand of one instruction, the one that emits the
word list. Everything about the routines is a fact about a fixed listing, to which the word list is
appended.
-/

namespace Subleq.Monitor

open Assembly

def routines : Listing :=
  dispatch ++ unknownWord ++ echo ++ comment ++ lineComment ++ lineFeed ++ bye ++ here ++
  printStart ++ printDigits ++ listWords ++ done

/-- The cells of the monitor and its word list. -/
def cellsWith (words : List String) : Listing := storage ++ wordList words

theorem programWith_eq (words : List String) :
    programWith words = routines ++ cellsWith words := by
  simp only [programWith, routines, cellsWith, List.append_assoc]

/-- The cells of the monitor: the character read, the one cell of the stack, the end of the image,
the work cells of `u.`, and the bounds of the word list with a pointer into it. -/
inductive Slot where
  | ch
  | tos
  | endp
  | started
  | dig
  | dch
  | p1
  | p2
  | p3
  | p4
  | pm1
  | ptr
  | wlb
  | wle
  deriving Repr, DecidableEq

namespace Slot

/-- The cells in the order of their positions. -/
def all : List Slot :=
  [ch, tos, endp, started, dig, dch, p1, p2, p3, p4, pm1, ptr, wlb, wle]

theorem mem_all (slot : Slot) : slot ∈ all := by
  cases slot <;> decide

def name : Slot → String
  | ch => "ch"
  | tos => "tos"
  | endp => "endp"
  | started => "started"
  | dig => "dig"
  | dch => "dch"
  | p1 => "p1"
  | p2 => "p2"
  | p3 => "p3"
  | p4 => "p4"
  | pm1 => "pm1"
  | ptr => "ptr"
  | wlb => "wlb"
  | wle => "wle"

end Slot

/-- The position of the instruction whose operand is moved along the word list. -/
def emitterPlace : Nat := 2115

/-- The position of the first cell. -/
def cellsStart : Nat := 2133

def Slot.place (slot : Slot) : Nat := cellsStart + all.idxOf slot

theorem Slot.place_inj {slot other : Slot} : slot.place = other.place ↔ slot = other := by
  rw [place, place, Nat.add_left_cancel_iff, List.idxOf_inj slot.mem_all]

/-- The labels that are jumped to. -/
def targets : List String :=
  ["next", "rest", "unknown", "endword", "dot", "dotparen", "echo", "paren", "comment",
    "backslash", "linecomment", "cr1", "cr2", "cr3", "bye1", "bye2", "bye3", "here1", "here2",
    "here3", "here4", "here", "udot1", "udot2", "udot", "uneg", "uneg1", "uneg2", "udig", "ucount",
    "uemit", "uzero", "uput", "unext", "ulast", "words1", "words2", "words3", "words4", "words5",
    "words", "wloop", "done"]

/-- The lines from a label on. -/
def routine (words : List String) (name : String) : Listing :=
  (routines.labelled? name).getD [] ++ cellsWith words

/-! ## Labels -/

/-- What is checked of the fixed lines, in one computation. -/
theorem routines_checked :
    routines.size = cellsStart ∧
    (∀ name ∈ targets, ((routines.labelled? name).any Listing.atMacro) = true) ∧
    ((routines.labelled? "wout").any fun lines =>
      routines.size = emitterPlace + lines.size) = true ∧
    (routines ++ storage).Unreserved ∧
    ∀ name ∈ ["wlist", "wlend"], (routines ++ storage).labelled? name = none := by
  decide +kernel

theorem size_routines : routines.size = cellsStart := routines_checked.1

theorem isSome_labelled? : ∀ name ∈ targets,
    ((routines.labelled? name).any Listing.atMacro) = true := routines_checked.2.1

theorem target?_cell {name : String} (target : name ∈ targets) (words : List String) :
    (programWith words).target? (cell name) = some (routine words name) := by
  obtain ⟨lines, found, -⟩ := (Option.any_eq_true _ _).mp (isSome_labelled? name target)
  change (programWith words).labelled? name = _
  rw [programWith_eq, Listing.labelled?_append_of_some found, routine, found, Option.getD_some]

theorem unreserved (words : List String) : (programWith words).Unreserved := by
  obtain ⟨-, -, -, fixed, -⟩ := routines_checked
  intro line member name named
  rw [programWith_eq, cellsWith, ← List.append_assoc, List.mem_append] at member
  rcases member with fixedMember | listed
  · exact fixed line fixedMember name named
  · simp only [wordList, List.mem_cons, List.not_mem_nil, or_false] at listed
    rcases listed with rfl | rfl | rfl
    · cases named
      decide
    · cases named
    · cases named
      decide

theorem offsetValue_cell (name : String) :
    Reference.offsetValue { text := name, name, offset := "" } = .ok 0 := by
  have none : Text.Numeral.ofDigits? "".toList = none := by decide
  rw [Reference.offsetValue, none]

theorem jumpsTo_cell {name : String} (target : name ∈ targets) (words : List String) :
    (programWith words).JumpsTo (cell name) := by
  obtain ⟨lines, found, atMacro⟩ := (Option.any_eq_true _ _).mp (isSome_labelled? name target)
  refine ⟨offsetValue_cell name, routine words name, target?_cell target words, ?_⟩
  rw [routine, found, Option.getD_some]
  exact Listing.atMacro_append atMacro (cellsWith words)

/-! ## Cells -/

theorem address?_cell {words : List String} {name : String} {lines : Listing} {position : Nat}
    (found : (programWith words).labelled? name = some lines)
    (sizes : (programWith words).size = position + lines.size) :
    (programWith words).address? (cell name) = some position := by
  obtain ⟨before, split, looked⟩ := Listing.position?_ofListing (unreserved words) found
  have size : before.size = position := by
    have parts := congrArg Listing.size split
    rw [Listing.size_append] at parts
    omega
  rw [size] at looked
  simp [Listing.address?, cell, Operand.term, Layout.resolve, Layout.resolveReference, looked,
    offsetValue_cell]

/-- The names of the cells are defined behind the routines, each one cell after the one before. -/
theorem labelled?_storage : ∀ slot ∈ Slot.all,
    routines.labelled? slot.name = none ∧
      ((storage.labelled? slot.name).any fun lines =>
        storage.size == Slot.all.idxOf slot + lines.size) = true := by
  decide

theorem address?_slot (slot : Slot) (words : List String) :
    (programWith words).address? (cell slot.name) = some slot.place := by
  obtain ⟨absent, present⟩ := labelled?_storage slot slot.mem_all
  obtain ⟨lines, found, sizes⟩ := (Option.any_eq_true _ _).mp present
  have there : (programWith words).labelled? slot.name = some (lines ++ wordList words) := by
    rw [programWith_eq, Listing.labelled?_append_of_none absent, cellsWith,
      Listing.labelled?_append_of_some found]
  apply address?_cell there
  rw [beq_iff_eq] at sizes
  rw [programWith_eq, cellsWith, Listing.size_append, Listing.size_append, Listing.size_append,
    size_routines, sizes, Slot.place]
  omega

theorem labelled?_emitter (words : List String) :
    (programWith words).labelled? "wout" = some (routine words "wout") ∧
      (programWith words).size = emitterPlace + (routine words "wout").size := by
  obtain ⟨-, -, closed, -, -⟩ := routines_checked
  obtain ⟨lines, found, sizes⟩ := (Option.any_eq_true _ _).mp closed
  constructor
  · rw [programWith_eq, Listing.labelled?_append_of_some found, routine, found, Option.getD_some]
  · rw [programWith_eq, Listing.size_append, of_decide_eq_true sizes, routine, found,
      Option.getD_some, Listing.size_append, Nat.add_assoc]

theorem address?_emitter (words : List String) :
    (programWith words).address? (cell "wout") = some emitterPlace :=
  address?_cell (labelled?_emitter words).1 (labelled?_emitter words).2

/-- Whether the monitor writes to a position: the cells, and the operand of the emitter. -/
def Writable (words : List String) (position : Nat) : Prop :=
  (programWith words).IsDatum position ∨ position = emitterPlace

/-- What a cell is given by plain data. -/
def Slot.initial : Slot → Operand
  | endp => cell endName
  | wlb => cell "wlist"
  | wle => cell "wlend"
  | _ => .literal 0

theorem datum?_place (slot : Slot) (words : List String) :
    (programWith words).datum? slot.place = some slot.initial := by
  have stored : ∀ slot ∈ Slot.all, Slot.all.idxOf slot < storage.size ∧
      storage.datum? (Slot.all.idxOf slot) = some slot.initial := by
    decide
  obtain ⟨inside, found⟩ := stored slot slot.mem_all
  rw [programWith_eq, Slot.place, ← size_routines, Listing.datum?_append, cellsWith,
    Listing.datum?_append_of_lt _ inside]
  exact found

theorem isDatum_place (slot : Slot) (words : List String) :
    (programWith words).IsDatum slot.place := by
  rw [Listing.IsDatum, datum?_place]
  rfl

theorem writes_slot (slot : Slot) (words : List String) :
    (programWith words).Writes (Writable words) (cell slot.name) :=
  ⟨slot.place, address?_slot slot words, Or.inl (isDatum_place slot words)⟩

theorem writes_emitter (words : List String) :
    (programWith words).Writes (Writable words) (cell "wout") :=
  ⟨emitterPlace, address?_emitter words, Or.inr rfl⟩

/-! ## Discipline -/

/-- Whether an operand is a cell of the monitor or the operand of the emitter. -/
def isCell (operand : Operand) : Bool :=
  (Slot.all.map fun slot => cell slot.name).contains operand || operand == cell "wout"

/-- Whether an operand is a constant, a cell of the monitor or the operand of the emitter. -/
def isSource (operand : Operand) : Bool := operand.constant?.isSome || isCell operand

/-- Whether an operand is a label that is jumped to. -/
def isTarget (operand : Operand) : Bool := (targets.map cell).contains operand

/-- Whether a statement keeps to the cells and labels of the monitor. -/
def keeps : Statement → Bool
  | .clr cell => isCell cell
  | .mov destination source => isCell destination && isSource source && destination != source
  | .add destination source => isCell destination && isSource source
  | .sub destination source => isCell destination && isSource source
  | .inp cell => isCell cell
  | .out cell => isSource cell
  | .jmp target => isTarget target
  | .halt => true
  | .jlez cell target => isSource cell && isTarget target
  | .jle left right target => isSource left && isSource right && isTarget target
  | .jeq left right target => isSource left && isSource right && isTarget target
  | .data _ => false
  | .subleq _ _ _ => false

/-- The instruction whose operand is moved along the word list. -/
def emitter : Statement := .out (.literal 0)

/-- Every statement of the routines but the emitter keeps to the cells. -/
theorem keeps_routines : ∀ line ∈ routines, ∀ statement ∈ line.statement,
    statement = emitter ∨ keeps statement = true := by
  decide +kernel

theorem writes_of_isCell {operand : Operand} (known : isCell operand = true)
    (words : List String) : (programWith words).Writes (Writable words) operand := by
  rw [isCell, Bool.or_eq_true, List.contains_iff_mem, beq_iff_eq] at known
  rcases known with named | rfl
  · obtain ⟨slot, -, rfl⟩ := List.mem_map.mp named
    exact writes_slot slot words
  · exact writes_emitter words

theorem reads_of_isSource {operand : Operand} (known : isSource operand = true)
    (words : List String) : (programWith words).Reads (Writable words) operand := by
  rw [isSource, Bool.or_eq_true] at known
  exact known.imp_right fun named => writes_of_isCell named words

theorem jumpsTo_of_isTarget {operand : Operand} (known : isTarget operand = true)
    (words : List String) : (programWith words).JumpsTo operand := by
  rw [isTarget, List.contains_iff_mem] at known
  obtain ⟨name, member, rfl⟩ := List.mem_map.mp known
  exact jumpsTo_cell member words

theorem lt_size_of_writable {words : List String} {position : Nat}
    (writable : Writable words position) : position < (programWith words).size := by
  rcases writable with isDatum | rfl
  · exact Listing.lt_size_of_isDatum isDatum
  · have start := size_routines
    rw [programWith_eq, Listing.size_append, start, emitterPlace, cellsStart]
    omega

/-- Different operands of a move have different addresses. -/
theorem address?_ne {destination source : Operand} (writes : isCell destination = true)
    (reads : isSource source = true) (distinct : destination ≠ source) (words : List String) :
    (programWith words).address? destination ≠ (programWith words).address? source := by
  have behind : ∀ slot : Slot, emitterPlace < slot.place := by
    intro slot
    rw [Slot.place, emitterPlace, cellsStart]
    omega
  by_cases isConstant : source.constant?.isSome = true
  · obtain ⟨value, rfl⟩ := source.eq_constant_of_isSome isConstant
    obtain ⟨position, found, writable⟩ := writes_of_isCell writes words
    have inside := lt_size_of_writable writable
    rw [Option.mem_def.mp found]
    simp only [Listing.address?, Operand.term, Layout.resolve, Layout.ofListing, Layout.poolStart]
    intro same
    split at same
    · simp only [Option.some.injEq] at same
      omega
    · simp at same
  · rw [isSource, Bool.or_eq_true, or_iff_right isConstant] at reads
    rw [isCell, Bool.or_eq_true, List.contains_iff_mem, beq_iff_eq] at writes reads
    intro same
    apply distinct
    rcases writes with named | rfl
    · obtain ⟨slot, -, rfl⟩ := List.mem_map.mp named
      rw [address?_slot] at same
      rcases reads with otherNamed | rfl
      · obtain ⟨other, -, rfl⟩ := List.mem_map.mp otherNamed
        rw [address?_slot, Option.some.injEq, Slot.place_inj] at same
        rw [same]
      · rw [address?_emitter, Option.some.injEq] at same
        exact absurd same (behind slot).ne'
    · rcases reads with otherNamed | rfl
      · obtain ⟨other, -, rfl⟩ := List.mem_map.mp otherNamed
        rw [address?_slot, address?_emitter, Option.some.injEq] at same
        exact absurd same (behind other).ne
      · rfl

/-- A statement that keeps to the cells and labels of the monitor is confined. -/
theorem confines_of_keeps {statement : Statement} (kept : keeps statement = true)
    (words : List String) : (programWith words).Confines (Writable words) statement := by
  cases statement with
  | clr cell => exact writes_of_isCell kept words
  | mov destination source =>
      simp only [keeps, Bool.and_eq_true, bne_iff_ne] at kept
      obtain ⟨⟨writes, reads⟩, distinct⟩ := kept
      exact ⟨writes_of_isCell writes words, reads_of_isSource reads words,
        address?_ne writes reads distinct words⟩
  | add destination source =>
      simp only [keeps, Bool.and_eq_true] at kept
      exact ⟨writes_of_isCell kept.1 words, reads_of_isSource kept.2 words⟩
  | sub destination source =>
      simp only [keeps, Bool.and_eq_true] at kept
      exact ⟨writes_of_isCell kept.1 words, reads_of_isSource kept.2 words⟩
  | inp cell => exact writes_of_isCell kept words
  | out cell => exact reads_of_isSource kept words
  | jmp target => exact jumpsTo_of_isTarget kept words
  | halt => trivial
  | jlez cell target =>
      simp only [keeps, Bool.and_eq_true] at kept
      exact ⟨reads_of_isSource kept.1 words, jumpsTo_of_isTarget kept.2 words⟩
  | jle left right target =>
      simp only [keeps, Bool.and_eq_true] at kept
      exact ⟨reads_of_isSource kept.1.1 words, reads_of_isSource kept.1.2 words,
        jumpsTo_of_isTarget kept.2 words⟩
  | jeq left right target =>
      simp only [keeps, Bool.and_eq_true] at kept
      exact ⟨reads_of_isSource kept.1.1 words, reads_of_isSource kept.1.2 words,
        jumpsTo_of_isTarget kept.2 words⟩
  | data values => simp [keeps] at kept
  | subleq a b target => simp [keeps] at kept

/-- The statements of the monitor are plain data, the emitter, and statements that keep to its
cells. -/
theorem statement_cases {words : List String} {line : Line} (member : line ∈ programWith words)
    {statement : Statement} (has : line.statement = some statement) :
    statement.isData = true ∨ statement = emitter ∨ keeps statement = true := by
  have stored : ∀ line ∈ storage, ∀ statement ∈ line.statement, statement.isData = true := by
    decide
  rw [programWith_eq, cellsWith, List.mem_append, List.mem_append] at member
  rcases member with inRoutines | inStorage | listed
  · exact Or.inr (keeps_routines line inRoutines statement has)
  · exact Or.inl (stored line inStorage statement has)
  · simp only [wordList, List.mem_cons, List.not_mem_nil, or_false] at listed
    rcases listed with rfl | rfl | rfl
    · cases has
    · cases has
      exact Or.inl rfl
    · cases has

/-- The line at a position of a listing. -/
def lineAt? : Listing → Nat → Option Line
  | [], _ => none
  | line :: lines, position =>
      if position < line.size then some line else lineAt? lines (position - line.size)

theorem lineAt?_append {before rest : Listing} {line : Line} {index : Nat}
    (inside : index < line.size) :
    lineAt? (before ++ line :: rest) (before.size + index) = some line := by
  induction before with
  | nil => simp [lineAt?, Listing.size, inside]
  | cons first before ih =>
      rw [List.cons_append, lineAt?, Listing.size, if_neg (by omega), Nat.add_assoc,
        Nat.add_sub_cancel_left, ih]

theorem lineAt?_append_of_some {first : Listing} {position : Nat} {line : Line}
    (found : lineAt? first position = some line) (second : Listing) :
    lineAt? (first ++ second) position = some line := by
  induction first generalizing position with
  | nil => simp [lineAt?] at found
  | cons other lines ih =>
      rw [lineAt?] at found
      rw [List.cons_append, lineAt?]
      split at found
      next inside =>
        rw [if_pos inside]
        exact found
      next behind =>
        rw [if_neg behind]
        exact ih found

theorem lineAt?_emitterPlace (words : List String) :
    lineAt? (programWith words) emitterPlace = some (does emitter) := by
  have closed : lineAt? routines emitterPlace = some (does emitter) := by decide
  rw [programWith_eq]
  exact lineAt?_append_of_some closed (cellsWith words)

/-! ## The image -/

/-- The position of the word list. -/
def listPlace : Nat := 2147

theorem size_storage : cellsStart + storage.size = listPlace := by decide

theorem size_programWith (words : List String) :
    (programWith words).size = listPlace + (wordList words).size := by
  rw [programWith_eq, cellsWith, Listing.size_append, Listing.size_append, size_routines,
    ← size_storage, Nat.add_assoc]

/-- The bounds of the word list are defined behind the cells. -/
theorem labelled?_listBounds : ∀ name ∈ ["wlist", "wlend"],
    (routines ++ storage).labelled? name = none := routines_checked.2.2.2.2

theorem address?_listStart (words : List String) :
    (programWith words).address? (cell "wlist") = some listPlace := by
  have absent := labelled?_listBounds "wlist" (by decide)
  have there : (programWith words).labelled? "wlist" = some (wordList words) := by
    rw [programWith_eq, cellsWith, ← List.append_assoc, Listing.labelled?_append_of_none absent]
    rfl
  exact address?_cell there (size_programWith words)

theorem address?_listEnd (words : List String) :
    (programWith words).address? (cell "wlend") = some (programWith words).size := by
  have absent := labelled?_listBounds "wlend" (by decide)
  have there : (programWith words).labelled? "wlend" = some [label "wlend"] := by
    rw [programWith_eq, cellsWith, ← List.append_assoc, Listing.labelled?_append_of_none absent]
    rfl
  have empty : Listing.size [label "wlend"] = 0 := rfl
  apply address?_cell there
  rw [empty, Nat.add_zero]

theorem resolve_endName (words : List String) :
    (Layout.ofListing (programWith words)).resolve 0 (cell endName).term =
      .ok ((Layout.poolStart (programWith words).size +
        ((programWith words).poolFrom []).length : Nat) : Int) := by
  simp [cell, Operand.term, Layout.resolve, Layout.resolveReference,
    Listing.position?_endName (unreserved words), offsetValue_cell]

theorem operand_cases {words : List String} {line : Line} (member : line ∈ programWith words)
    {values : List Operand} (has : line.statement = some (.data values)) {operand : Operand}
    (inside : operand ∈ values) :
    (∃ value, operand = .literal value) ∨ operand = cell endName ∨ operand = cell "wlist" ∨
      operand = cell "wlend" := by
  have stored : ∀ line ∈ storage, ∀ statement ∈ line.statement, ∀ operand ∈ statement.operands,
      operand = .literal 0 ∨ operand = cell endName ∨ operand = cell "wlist" ∨
        operand = cell "wlend" := by
    decide
  rw [programWith_eq, cellsWith, List.mem_append, List.mem_append] at member
  rcases member with inRoutines | inStorage | listed
  · rcases keeps_routines line inRoutines _ has with isEmitter | kept
    · cases isEmitter
    · cases kept
  · exact (stored line inStorage _ has operand inside).imp_left fun zero => ⟨0, zero⟩
  · simp only [wordList, List.mem_cons, List.not_mem_nil, or_false] at listed
    rcases listed with rfl | rfl | rfl
    · cases has
    · cases has
      simp only [List.mem_flatMap, List.mem_map] at inside
      obtain ⟨word, -, c, -, rfl⟩ := inside
      exact Or.inl ⟨_, rfl⟩
    · cases has

/-- The terms of every statement of the monitor resolve. -/
theorem resolves {words : List String} {line : Line} (member : line ∈ programWith words)
    {statement : Statement} (has : line.statement = some statement) {start : Nat} {term : Term}
    (mentions : term ∈ statement.terms start) :
    ∃ value, (Layout.ofListing (programWith words)).resolve 0 term = .ok value := by
  rcases statement_cases member has with isData | rfl | kept
  · cases statement with
    | data values =>
        obtain ⟨operand, inside, rfl⟩ := List.mem_map.mp mentions
        rcases operand_cases member has inside with ⟨value, rfl⟩ | rfl | rfl | rfl
        · exact ⟨value, rfl⟩
        · exact ⟨_, resolve_endName words⟩
        · exact ⟨_, Listing.address?_eq_some (address?_listStart words)⟩
        · exact ⟨_, Listing.address?_eq_some (address?_listEnd words)⟩
    | _ => simp [Statement.isData] at isData
  · simp only [emitter, Statement.terms, Statement.instructions, layOut, Operand.term,
      Option.getD_none, List.mem_cons, List.not_mem_nil, or_false] at mentions
    rcases mentions with rfl | rfl | rfl
    · exact ⟨_, rfl⟩
    · exact ⟨_, rfl⟩
    · exact ⟨_, rfl⟩
  · have confined := confines_of_keeps kept words
    rcases Statement.mem_terms (Listing.isMacro_of_confines confined) mentions with
      ⟨operand, inside, rfl⟩ | ⟨scratch, rfl⟩ | ⟨position, -, rfl⟩ | rfl
    · exact Listing.exists_resolve (unreserved words) (Listing.operand_of_confines confined inside)
    · exact ⟨_, rfl⟩
    · exact ⟨_, rfl⟩
    · exact ⟨_, rfl⟩

/-- The monitor can be assembled, whatever its word list is. -/
theorem exists_image (words : List String) :
    ∃ image, (programWith words).image (.ofListing (programWith words)) 0 = .ok image := by
  apply Listing.exists_image
  intro line member statement has place term mentions
  exact resolves member has mentions

/-- The assembled monitor, for cells in which its addresses have room. -/
def built (words : List String) (width : Nat) (image : List Int)
    (assembled : (programWith words).image (.ofListing (programWith words)) 0 = .ok image)
    (small : (image.length : Int) ≤ cellBound width) : Assembled :=
  { listing := programWith words, image, width, writable := Writable words,
    unreserved := unreserved words, assembled, small, inside := fun _ => lt_size_of_writable }

variable {words : List String} {width : Nat} {image : List Int}
  {assembled : (programWith words).image (.ofListing (programWith words)) 0 = .ok image}
  {small : (image.length : Int) ≤ cellBound width}

/-- Every statement of the monitor but plain data and the emitter can be executed. -/
theorem sound {before rest : Listing} {line : Line} {statement : Statement}
    (split : programWith words = before ++ line :: rest)
    (has : line.statement = some statement) (kept : keeps statement = true) :
    Sound (built words width image assembled small) before line rest statement := by
  have confined := confines_of_keeps kept words
  have isMacro := Listing.isMacro_of_confines confined
  refine ⟨split, has, confined, ?_⟩
  rintro index inside (isDatum | atEmitter)
  · change (programWith words).IsDatum _ at isDatum
    rw [split] at isDatum
    exact Listing.not_isDatum has isMacro inside isDatum
  · have here : lineAt? (programWith words) (before.size + index) = some line := by
      rw [split]
      apply lineAt?_append
      rw [Line.size, has]
      exact inside
    rw [atEmitter, lineAt?_emitterPlace, Option.some.injEq] at here
    subst here
    cases has
    simp [keeps, emitter, isSource, isCell, Operand.constant?, cell] at kept

end Subleq.Monitor
