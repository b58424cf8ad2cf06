import Subleq.Proofs.Assembly.Layout

/-!
# What cells are made from

Every cell of a statement comes from an operand, from a scratch cell, from a label inside the
expansion, from the target that an instruction leaves out, or is the mark of input, output and the
halt. Every operand was read from an argument of its statement, so that a reference names a label
that is not one of the assembler's own names, or the end of the image.
-/

namespace Subleq.Assembly

/-! ## Cells of instructions -/

/-- The three cells of an instruction; one without a target goes on behind them. -/
theorem getElem?_layOut {instructions : List Instruction} {index : Nat} {instruction : Instruction}
    (found : instructions[index]? = some instruction) (start : Nat) :
    (layOut start instructions)[3 * index]? = some instruction.a ∧
      (layOut start instructions)[3 * index + 1]? = some instruction.b ∧
      (layOut start instructions)[3 * index + 2]? =
        some (instruction.target.getD (.position (start + (3 * index + 3)))) := by
  induction instructions generalizing index start with
  | nil => simp at found
  | cons first rest ih =>
      cases index with
      | zero =>
          cases found
          exact ⟨rfl, rfl, rfl⟩
      | succ index =>
          obtain ⟨a, b, target⟩ := ih found (start + 3)
          rw [layOut, show 3 * (index + 1) = 3 * index + 1 + 1 + 1 by omega]
          refine ⟨a, b, target.trans ?_⟩
          rw [show start + 3 + (3 * index + 3) = start + (3 * index + 1 + 1 + 1 + 3) by omega]

theorem exists_of_getElem?_layOut {instructions : List Instruction} {start place : Nat}
    {term : Term} (found : (layOut start instructions)[place]? = some term) :
    ∃ index instruction, instructions[index]? = some instruction ∧
      (term = instruction.a ∨ term = instruction.b ∨
        place = 3 * index + 2 ∧
          term = instruction.target.getD (.position (start + (place + 1)))) := by
  have bound : place < 3 * instructions.length := by
    rw [← length_layOut start]
    exact (List.getElem?_eq_some_iff.mp found).1
  obtain ⟨instruction, inside⟩ : ∃ instruction, instructions[place / 3]? = some instruction :=
    ⟨_, List.getElem?_eq_getElem (by omega)⟩
  obtain ⟨a, b, target⟩ := getElem?_layOut inside start
  refine ⟨place / 3, instruction, inside, ?_⟩
  have third : place = 3 * (place / 3) ∨ place = 3 * (place / 3) + 1 ∨
      place = 3 * (place / 3) + 2 := by omega
  rcases third with first | second | last
  · rw [← first, found, Option.some.injEq] at a
    exact Or.inl a
  · rw [← second, found, Option.some.injEq] at b
    exact Or.inr (Or.inl b)
  · rw [← last, found, Option.some.injEq] at target
    refine Or.inr (Or.inr ⟨last, target.trans ?_⟩)
    rw [show 3 * (place / 3) + 3 = place + 1 by omega]

/-! ## Terms of statements -/

namespace Statement

/-- Whether a statement uses the mark of input, output and the halt. -/
def isMarked : Statement → Bool
  | inp _ => true
  | out _ => true
  | halt => true
  | _ => false

/-- What a statement at a position puts into its instructions. -/
inductive Gives (statement : Statement) (start : Nat) : Term → Prop
  | operand {operand : Operand} (own : operand ∈ statement.operands) :
      Gives statement start operand.term
  | mark (marked : statement.isMarked = true) : Gives statement start (.value (-1))
  | scratch (cell : Scratch) : Gives statement start (.scratch cell)
  | inner {position : Nat} (own : position ∈ statement.innerLabels start) :
      Gives statement start (.position position)

/-- What the cell at a place of a statement comes from: it is given, or stands for a target that is
left out and is the address of the next cell. -/
inductive Makes (statement : Statement) (start place : Nat) : Term → Prop
  | given {term : Term} (given : statement.Gives start term) : Makes statement start place term
  | next {index : Nat} {instruction : Instruction} (last : place = 3 * index + 2)
      (found : (statement.instructions start)[index]? = some instruction)
      (omitted : instruction.target = none) :
      Makes statement start place (.position (start + (place + 1)))

end Statement

/-- Whether a property holds of all terms of an instruction. -/
structure Instruction.All (property : Term → Prop) (instruction : Instruction) : Prop where
  a : property instruction.a
  b : property instruction.b
  target : ∀ term ∈ instruction.target, property term

namespace Expansion

variable {property : Term → Prop}

theorem all_clear {cell : Term} (own : property cell) : (clear cell).All property :=
  ⟨own, own, by simp [clear]⟩

theorem all_add (scratch : ∀ cell, property (.scratch cell)) {destination source : Term}
    (ownDestination : property destination) (ownSource : property source) :
    ∀ instruction ∈ add destination source, instruction.All property := by
  simp only [add, List.mem_cons, List.not_mem_nil, or_false]
  rintro instruction (rfl | rfl | rfl)
  · exact ⟨ownSource, scratch .zero, by simp⟩
  · exact ⟨scratch .zero, ownDestination, by simp⟩
  · exact all_clear (scratch .zero)

theorem all_jump (scratch : ∀ cell, property (.scratch cell)) {target : Term}
    (own : property target) : (jump target).All property :=
  ⟨scratch .zero, scratch .zero, by simpa [jump] using own⟩

theorem all_jumpUnlessPositive (scratch : ∀ cell, property (.scratch cell)) {cell target : Term}
    (ownCell : property cell) (ownTarget : property target) :
    (jumpUnlessPositive cell target).All property :=
  ⟨scratch .zero, ownCell, by simpa [jumpUnlessPositive] using ownTarget⟩

theorem all_subtract (scratch : ∀ cell, property (.scratch cell)) {left right : Term}
    (ownLeft : property left) (ownRight : property right) :
    ∀ instruction ∈ subtract left right, instruction.All property := by
  simp only [subtract, List.mem_cons, List.mem_append, List.cons_append, List.not_mem_nil,
    or_false]
  rintro instruction (rfl | added | rfl)
  · exact all_clear (scratch .difference)
  · exact all_add scratch (scratch .difference) ownLeft instruction added
  · exact ⟨ownRight, scratch .difference, by simp⟩

theorem all_jumpIfEqual (scratch : ∀ cell, property (.scratch cell)) {start : Nat}
    {left right target : Term} (ownLeft : property left) (ownRight : property right)
    (ownTarget : property target) (half : property (.position (start + halfway)))
    (behind : property (.position (start + equalityLength))) :
    ∀ instruction ∈ jumpIfEqual start left right target, instruction.All property := by
  simp only [jumpIfEqual, List.mem_append, List.mem_cons, List.not_mem_nil, or_false]
  rintro instruction (subtracted | rfl | rfl | rfl | rfl | rfl)
  · exact all_subtract scratch ownLeft ownRight instruction subtracted
  · exact all_jumpUnlessPositive scratch (scratch .difference) half
  · exact all_jump scratch behind
  · exact all_clear (scratch .opposite)
  · exact ⟨scratch .difference, scratch .opposite, by simp⟩
  · exact all_jumpUnlessPositive scratch (scratch .opposite) ownTarget

end Expansion

namespace Statement

open Expansion in
/-- The terms of a statement's instructions are given by the statement. -/
theorem all_instructions (start : Nat) (statement : Statement) :
    ∀ instruction ∈ statement.instructions start, instruction.All (statement.Gives start) := by
  have scratch : ∀ cell, statement.Gives start (.scratch cell) := .scratch
  have own : ∀ operand ∈ statement.operands, statement.Gives start operand.term :=
    fun operand member => .operand member
  cases statement with
  | subleq a b target =>
      simp only [instructions, List.mem_singleton]
      rintro instruction rfl
      refine ⟨own a (by simp [operands]), own b (by simp [operands]), ?_⟩
      rintro term taken
      obtain ⟨operand, rfl, rfl⟩ := Option.map_eq_some_iff.mp taken
      exact own operand (by simp [operands])
  | data values => simp [instructions]
  | clr cell =>
      simp only [instructions, List.mem_singleton]
      rintro instruction rfl
      exact all_clear (own cell (by simp [operands]))
  | mov destination source =>
      simp only [instructions, List.mem_cons]
      rintro instruction (rfl | added)
      · exact all_clear (own destination (by simp [operands]))
      · exact all_add scratch (own destination (by simp [operands]))
          (own source (by simp [operands])) instruction added
  | add destination source =>
      exact all_add scratch (own destination (by simp [operands]))
        (own source (by simp [operands]))
  | sub destination source =>
      simp only [instructions, List.mem_singleton]
      rintro instruction rfl
      exact ⟨own source (by simp [operands]), own destination (by simp [operands]), by simp⟩
  | inp cell =>
      simp only [instructions, List.mem_singleton]
      rintro instruction rfl
      exact ⟨.mark rfl, own cell (by simp [operands]), by simp⟩
  | out cell =>
      simp only [instructions, List.mem_singleton]
      rintro instruction rfl
      exact ⟨own cell (by simp [operands]), .mark rfl, by simp⟩
  | jmp target =>
      simp only [instructions, List.mem_singleton]
      rintro instruction rfl
      exact all_jump scratch (own target (by simp [operands]))
  | halt =>
      simp only [instructions, List.mem_singleton]
      rintro instruction rfl
      exact all_jump scratch (.mark rfl)
  | jlez cell target =>
      simp only [instructions, List.mem_singleton]
      rintro instruction rfl
      exact all_jumpUnlessPositive scratch (own cell (by simp [operands]))
        (own target (by simp [operands]))
  | jle left right target =>
      simp only [instructions, List.mem_append, List.mem_singleton]
      rintro instruction (subtracted | rfl)
      · exact all_subtract scratch (own left (by simp [operands])) (own right (by simp [operands]))
          instruction subtracted
      · exact all_jumpUnlessPositive scratch (scratch .difference) (own target (by simp [operands]))
  | jeq left right target =>
      exact all_jumpIfEqual scratch (own left (by simp [operands])) (own right (by simp [operands]))
        (own target (by simp [operands])) (.inner (by simp [innerLabels]))
        (.inner (by simp [innerLabels]))

/-- The last cell of an instruction without a target is the address of the next cell. -/
theorem getElem?_terms_of_omitted {statement : Statement} {start index : Nat}
    {instruction : Instruction}
    (found : (statement.instructions start)[index]? = some instruction)
    (omitted : instruction.target = none) :
    (statement.terms start)[3 * index + 2]? = some (.position (start + (3 * index + 3))) := by
  have expands : ∀ values, statement ≠ .data values := by
    rintro values rfl
    simp [instructions] at found
  rw [terms_eq_layOut expands, (getElem?_layOut found start).2.2, omitted]
  rfl

theorem makes_of_getElem? {statement : Statement} {start place : Nat} {term : Term}
    (found : (statement.terms start)[place]? = some term) : statement.Makes start place term := by
  by_cases isData : ∃ values, statement = .data values
  · obtain ⟨values, rfl⟩ := isData
    obtain ⟨operand, member, rfl⟩ := List.mem_map.mp (List.mem_of_getElem? found)
    exact .given (.operand member)
  · rw [terms_eq_layOut (not_exists.mp isData)] at found
    obtain ⟨index, instruction, inside, a | b | ⟨last, target⟩⟩ := exists_of_getElem?_layOut found
    · rw [a]
      exact .given (statement.all_instructions start instruction (List.mem_of_getElem? inside)).a
    · rw [b]
      exact .given (statement.all_instructions start instruction (List.mem_of_getElem? inside)).b
    · cases omitted : instruction.target with
      | none =>
          rw [target, omitted]
          exact .next last inside omitted
      | some given =>
          rw [target, omitted]
          exact .given ((statement.all_instructions start instruction
            (List.mem_of_getElem? inside)).target given omitted)

/-- Every operand of a statement is in one of its cells. -/
theorem term_mem_terms {statement : Statement} {operand : Operand}
    (own : operand ∈ statement.operands) (start : Nat) : operand.term ∈ statement.terms start := by
  cases statement with
  | data values => exact List.mem_map_of_mem own
  | subleq a b target =>
      cases target with
      | none =>
          simp only [operands, Option.toList, List.mem_cons, List.not_mem_nil, or_false] at own
          rcases own with rfl | rfl <;> simp [terms, instructions, layOut]
      | some target =>
          simp only [operands, Option.toList, List.mem_cons, List.not_mem_nil, or_false] at own
          rcases own with rfl | rfl | rfl <;> simp [terms, instructions, layOut]
  | _ =>
      simp only [operands, List.mem_cons, List.not_mem_nil, or_false] at own
      all_goals
        simp only [terms, instructions, layOut, Expansion.clear, Expansion.add, Expansion.jump,
          Expansion.jumpUnlessPositive, Expansion.subtract, Expansion.jumpIfEqual,
          List.cons_append, List.nil_append, List.mem_cons]
        grind

end Statement

/-! ## Operands of a source -/

namespace Statement

theorem exists_argument_of_parseOperands {arguments : List String} {operands : List Operand}
    (parsed : parseOperands arguments = .ok operands) :
    ∀ operand ∈ operands, ∃ argument ∈ arguments, Operand.parse argument = .ok operand := by
  induction arguments generalizing operands with
  | nil =>
      cases parsed
      simp
  | cons argument arguments ih =>
      obtain ⟨first, readFirst, parsed⟩ := exists_of_bind_eq_ok parsed
      obtain ⟨others, readOthers, parsed⟩ := exists_of_bind_eq_ok parsed
      cases parsed
      intro operand member
      rcases List.mem_cons.mp member with rfl | later
      · exact ⟨argument, List.mem_cons_self, readFirst⟩
      · obtain ⟨other, inside, read⟩ := ih readOthers operand later
        exact ⟨other, List.mem_cons_of_mem argument inside, read⟩

/-- Every operand of a statement was read from one of its arguments. -/
theorem exists_argument_of_parse {mnemonic : Mnemonic} {token : String} {arguments : List String}
    {statement : Statement} (parsed : parse mnemonic token arguments = .ok statement) :
    ∀ operand ∈ statement.operands,
      ∃ argument ∈ arguments, Operand.parse argument = .ok operand := by
  -- One case for each mnemonic; the arguments are read one after the other.
  unfold parse at parsed
  split at parsed
  next a b =>
    obtain ⟨_, readA, parsed⟩ := exists_of_bind_eq_ok parsed
    obtain ⟨_, readB, parsed⟩ := exists_of_bind_eq_ok parsed
    cases parsed
    simp [operands, readA, readB]
  next a b target =>
    obtain ⟨_, readA, parsed⟩ := exists_of_bind_eq_ok parsed
    obtain ⟨_, readB, parsed⟩ := exists_of_bind_eq_ok parsed
    obtain ⟨_, readTarget, parsed⟩ := exists_of_bind_eq_ok parsed
    cases parsed
    simp [operands, readA, readB, readTarget]
  next value values =>
    obtain ⟨_, readAll, parsed⟩ := exists_of_bind_eq_ok parsed
    cases parsed
    exact exists_argument_of_parseOperands readAll
  next cell =>
    obtain ⟨_, readCell, parsed⟩ := exists_of_bind_eq_ok parsed
    cases parsed
    simp [operands, readCell]
  next destination source =>
    obtain ⟨_, readDestination, parsed⟩ := exists_of_bind_eq_ok parsed
    obtain ⟨_, readSource, parsed⟩ := exists_of_bind_eq_ok parsed
    split at parsed
    · cases parsed
    · cases parsed
      simp [operands, readDestination, readSource]
  next destination source =>
    obtain ⟨_, readDestination, parsed⟩ := exists_of_bind_eq_ok parsed
    obtain ⟨_, readSource, parsed⟩ := exists_of_bind_eq_ok parsed
    cases parsed
    simp [operands, readDestination, readSource]
  next destination source =>
    obtain ⟨_, readSource, parsed⟩ := exists_of_bind_eq_ok parsed
    obtain ⟨_, readDestination, parsed⟩ := exists_of_bind_eq_ok parsed
    cases parsed
    simp [operands, readDestination, readSource]
  next cell =>
    obtain ⟨_, readCell, parsed⟩ := exists_of_bind_eq_ok parsed
    cases parsed
    simp [operands, readCell]
  next cell =>
    obtain ⟨_, readCell, parsed⟩ := exists_of_bind_eq_ok parsed
    cases parsed
    simp [operands, readCell]
  next target =>
    obtain ⟨_, readTarget, parsed⟩ := exists_of_bind_eq_ok parsed
    cases parsed
    simp [operands, readTarget]
  next =>
    cases parsed
    simp [operands]
  next cell target =>
    obtain ⟨_, readCell, parsed⟩ := exists_of_bind_eq_ok parsed
    obtain ⟨_, readTarget, parsed⟩ := exists_of_bind_eq_ok parsed
    cases parsed
    simp [operands, readCell, readTarget]
  next left right target =>
    obtain ⟨_, readLeft, parsed⟩ := exists_of_bind_eq_ok parsed
    obtain ⟨_, readRight, parsed⟩ := exists_of_bind_eq_ok parsed
    obtain ⟨_, readTarget, parsed⟩ := exists_of_bind_eq_ok parsed
    cases parsed
    simp [operands, readLeft, readRight, readTarget]
  next left right target =>
    obtain ⟨_, readTarget, parsed⟩ := exists_of_bind_eq_ok parsed
    obtain ⟨_, readLeft, parsed⟩ := exists_of_bind_eq_ok parsed
    obtain ⟨_, readRight, parsed⟩ := exists_of_bind_eq_ok parsed
    cases parsed
    simp [operands, readLeft, readRight, readTarget]
  next => cases parsed

end Statement

/-! ## References -/

/-- Whether an operand refers to none of the assembler's own names but the end. -/
def Operand.Unreserved : Operand → Prop
  | reference target => isReserved target.name = false ∨ target.name = endName
  | _ => True

theorem Operand.unreserved_of_parse {token : String} {operand : Operand}
    (parsed : Operand.parse token = .ok operand) : operand.Unreserved := by
  unfold parse at parsed
  split at parsed
  · obtain ⟨_, _, rfl⟩ := exists_of_map_eq_ok parsed
    trivial
  · split at parsed
    · unfold parseConstant at parsed
      split at parsed
      · cases parsed
        trivial
      · split at parsed
        · obtain ⟨_, _, rfl⟩ := exists_of_map_eq_ok parsed
          trivial
        · cases parsed
    · unfold parseReference at parsed
      split at parsed
      · cases parsed
      next target _ =>
        split at parsed
        · cases parsed
        next judged =>
          cases parsed
          cases own : isReserved target.name with
          | false => exact Or.inl own
          | true => exact Or.inr (by simpa [own] using judged)

/-! ## Lines -/

theorem Line.unreserved_of_readStatement {tokens : List String} {statement : Option Statement}
    (accepted : readStatement tokens = .ok statement) :
    ∀ inner ∈ statement, ∀ operand ∈ inner.operands, operand.Unreserved := by
  unfold readStatement at accepted
  split at accepted
  · cases accepted
    simp
  · split at accepted
    · cases accepted
    · obtain ⟨inner, parsed, rfl⟩ := exists_of_map_eq_ok accepted
      rintro _ ⟨⟩ operand member
      obtain ⟨argument, _, read⟩ := Statement.exists_argument_of_parse parsed operand member
      exact Operand.unreserved_of_parse read

namespace Listing

/-- An operand of a source refers to none of the assembler's own names but the end. -/
theorem unreserved_operands_of_read {source : String} {listing : Listing}
    (accepted : read source = .ok listing) :
    ∀ line ∈ listing, ∀ statement ∈ line.statement, ∀ operand ∈ statement.operands,
      operand.Unreserved := by
  refine forall_of_readFrom ?_ accepted
  intro defined text line judged
  obtain ⟨spelled, _, read⟩ := (Line.read_eq_ok judged).2
  exact Line.unreserved_of_readStatement read

end Listing

end Subleq.Assembly
