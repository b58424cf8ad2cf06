import Subleq.Proofs.Assembly.Names
import Subleq.Proofs.Assembly.Provenance
import Subleq.Proofs.Program

/-!
# The grammar

What the lines of a source may be, said without the reader: the forms of operands and what they
denote, the numbers of operands that mnemonics admit, labels and whole lines. The readers of
operands, statements and lines accept just that, and what they read is what the tokens say. Where
digits stand in short runs only, they never complain of the length of a numeral.
-/

namespace Subleq.Assembly

/-! ## Forms -/

/-- A name: a letter or an underscore, and then letters, digits, underscores and periods. -/
def IsName (text : List Char) : Prop :=
  ∃ first rest, text = first :: rest ∧ isLabelStart first = true ∧ ∀ c ∈ rest, isLabelPart c = true

/-- An offset: nothing, or a sign and one or more decimal digits of any script. -/
def IsOffset (text : List Char) : Prop :=
  text = [] ∨ ∃ sign digits, text = sign :: digits ∧ (sign = '+' ∨ sign = '-') ∧ digits ≠ [] ∧
    ∀ c ∈ digits, (Text.digitValue? c).isSome = true

/-- The pattern of labels: a name with an optional offset. -/
structure Matches (text name offset : String) : Prop where
  parts : text = name ++ offset
  isName : IsName name.toList
  isOffset : IsOffset offset.toList

/-- What a token in the place of an operand denotes: an integer; a constant, written as an integer
or as a character; or a label with an optional offset, which is none of the assembler's own names
but the end. -/
inductive Denotes (token : String) : Operand → Prop
  | literal {value : Int} (spells : Program.Spells token.toList value) :
      Denotes token (.literal value)
  | constant {text : List Char} {value : Int} (marked : token.toList = '#' :: text)
      (spells : Program.Spells text value) : Denotes token (.constant value)
  | character {c : Char} (quoted : token.toList = ['#', '\x27', c, '\x27']) :
      Denotes token (.constant c.toNat)
  | reference {name offset : String} (fits : Matches token name offset)
      (own : isReserved name = false ∨ name = endName) :
      Denotes token (.reference { text := token, name, offset })

namespace Mnemonic

/-- The least number of operands. -/
def least : Mnemonic → Nat
  | halt => 0
  | data | clr | inp | out | jmp => 1
  | subleq | mov | add | sub | jlez => 2
  | jle | jeq => 3

/-- The greatest number of operands, if there is one. -/
def most : Mnemonic → Option Nat
  | data => none
  | halt => some 0
  | clr | inp | out | jmp => some 1
  | mov | add | sub | jlez => some 2
  | subleq | jle | jeq => some 3

/-- Whether a mnemonic admits a number of operands. -/
def Admits (mnemonic : Mnemonic) (count : Nat) : Prop :=
  mnemonic.least ≤ count ∧ ∀ most ∈ mnemonic.most, count ≤ most

end Mnemonic

/-- A mnemonic, in any mix of case, with operands: as many as it admits, each of which denotes
something, and those of a move not the same. -/
structure IsStatement (mnemonic : Mnemonic) (token : String) (arguments : List String) : Prop where
  spelled : Text.upper token.toList = mnemonic.word.toList
  admitted : mnemonic.Admits arguments.length
  operands : ∀ argument ∈ arguments, ∃ operand, Denotes argument operand
  moves : mnemonic = .mov → ∀ operand, ¬∀ argument ∈ arguments, Denotes argument operand

/-- Nothing, or a statement. -/
inductive IsCode : List String → Prop
  | nothing : IsCode []
  | statement {mnemonic : Mnemonic} {token : String} {arguments : List String}
      (statement : IsStatement mnemonic token arguments) : IsCode (token :: arguments)

/-- The label of a line, if it has one, and the tokens behind it. -/
inductive Splits : List String → Option String → List String → Prop
  | plain (tokens : List String) : Splits tokens none tokens
  | labelled {name base offset : String} (fits : Matches name base offset)
      (tokens : List String) : Splits ((name ++ ":") :: tokens) (some name) tokens

/-- Whether a line defines a name. -/
def Defines (tokens : List String) (name : String) : Prop := ∃ code, Splits tokens (some name) code

/-- Whether tokens are an optional label, which is none of the assembler's own names and not taken,
and then nothing or a statement. -/
def WellFormed (taken : String → Prop) (tokens : List String) : Prop :=
  ∃ label code, Splits tokens label code ∧
    (∀ name ∈ label, isReserved name = false ∧ ¬taken name) ∧ IsCode code

/-- Whether an operand of a line refers to a name. -/
def Cites (tokens : List String) (name : String) : Prop :=
  ∃ label mnemonic token arguments, Splits tokens label (token :: arguments) ∧
    IsStatement mnemonic token arguments ∧
    ∃ argument ∈ arguments, ∃ target, Denotes argument (.reference target) ∧ target.name = name

/-- Whether digits stand in runs that are short enough to be numerals. -/
def ShortRuns (text : List Char) : Prop :=
  ∀ run, run <:+: text → (∀ c ∈ run, (Text.digitValue? c).isSome = true) → run.length ≤ 4300

theorem ShortRuns.of_infix {text part : List Char} (short : ShortRuns text)
    (inside : part <:+: text) : ShortRuns part :=
  fun run stands digits => short run (stands.trans inside) digits

/-! ## References -/

theorem isOffset_iff {text : List Char} : isOffset text = true ↔ IsOffset text := by
  cases text with
  | nil => simp [isOffset, IsOffset]
  | cons sign digits =>
      simp only [isOffset, IsOffset, Bool.and_eq_true, Bool.or_eq_true, beq_iff_eq,
        Bool.not_eq_true', List.isEmpty_eq_false_iff, List.all_eq_true, List.cons.injEq,
        reduceCtorEq, false_or]
      constructor
      · rintro ⟨⟨signed, content⟩, all⟩
        exact ⟨sign, digits, ⟨rfl, rfl⟩, signed, content, all⟩
      · rintro ⟨_, _, ⟨rfl, rfl⟩, signed, content, all⟩
        exact ⟨⟨signed, content⟩, all⟩

theorem takeWhile_isLabelPart {rest offset : List Char} (parts : ∀ c ∈ rest, isLabelPart c = true)
    (fits : IsOffset offset) :
    (rest ++ offset).takeWhile isLabelPart = rest ∧
      (rest ++ offset).dropWhile isLabelPart = offset := by
  rw [List.takeWhile_append_of_pos parts, List.dropWhile_append_of_pos parts]
  rcases fits with rfl | ⟨sign, digits, rfl, rfl | rfl, -, -⟩
  · simp
  · simp [show isLabelPart '+' = false by decide]
  · simp [show isLabelPart '-' = false by decide]

/-- The texts that are read as references are those of the pattern. -/
theorem ofText?_eq_some_iff {text : String} (single : '\n' ∉ text.toList) {target : Reference} :
    Reference.ofText? text = some target ↔
      target.text = text ∧ Matches text target.name target.offset := by
  unfold Reference.ofText?
  rw [dropLastLineFeed_of_not_mem single]
  constructor
  · intro found
    split at found
    · cases found
    next first rest spelled =>
      simp only [Option.ite_none_right_eq_some, Bool.and_eq_true, Option.some.injEq] at found
      obtain ⟨⟨start, offset⟩, rfl⟩ := found
      refine ⟨rfl, ?_, ?_, ?_⟩
      · apply String.toList_inj.mp
        simp [spelled, List.takeWhile_append_dropWhile]
      · refine ⟨first, rest.takeWhile isLabelPart, by simp, start, ?_⟩
        exact fun c member => List.mem_takeWhile_imp member
      · rw [String.toList_ofList]
        exact isOffset_iff.mp offset
  · rintro ⟨rfl, parts, ⟨first, rest, name, start, inside⟩, fits⟩
    have spelled : target.text.toList = first :: (rest ++ target.offset.toList) := by
      rw [parts, String.toList_append, name, List.cons_append]
    obtain ⟨taken, left⟩ := takeWhile_isLabelPart inside fits
    rw [spelled]
    simp only [taken, left, start, isOffset_iff.mpr fits, Bool.and_self, if_true]
    rw [← name, String.ofList_toList, String.ofList_toList]

/-! ## Operands -/

/-- A text that starts with neither a sign nor a digit is no integer. -/
theorem ofStrict?_of_head {first : Char} {rest : List Char} (minus : first ≠ '-')
    (plus : first ≠ '+') (other : Text.isAsciiDigit first = false) :
    Text.Numeral.ofStrict? (first :: rest) = none := by
  have cut : Text.Numeral.splitSign (first :: rest) = (false, first :: rest) := by
    unfold Text.Numeral.splitSign
    split
    next same => exact absurd (List.cons.inj same).1 minus
    next same => exact absurd (List.cons.inj same).1 plus
    next => rfl
  simp [Text.Numeral.ofStrict?, cut, other]

theorem isLabelStart_cases {first : Char} (start : isLabelStart first = true) :
    first ≠ '-' ∧ first ≠ '+' ∧ first ≠ '#' ∧ Text.isAsciiDigit first = false := by
  refine ⟨?_, ?_, ?_, ?_⟩
  · rintro rfl
    exact absurd start (by decide)
  · rintro rfl
    exact absurd start (by decide)
  · rintro rfl
    exact absurd start (by decide)
  · rw [Bool.eq_false_iff]
    intro digit
    simp only [Text.isAsciiDigit, Bool.and_eq_true, decide_eq_true_eq, Char.le_def,
      UInt32.le_iff_toNat_le] at digit
    change 48 ≤ first.toNat ∧ first.toNat ≤ 57 at digit
    rcases Bool.or_eq_true_iff.mp start with letter | underscore
    · have low : 65 ≤ first.toNat := by
        rcases Bool.or_eq_true_iff.mp letter with upper | lower
        · have atLeast := (of_decide_eq_true upper).1
          exact UInt32.le_iff_toNat_le.mp atLeast
        · have atLeast := of_decide_eq_true (Bool.and_eq_true_iff.mp lower).1
          have small : 97 ≤ first.toNat := UInt32.le_iff_toNat_le.mp atLeast
          omega
      omega
    · rw [beq_iff_eq] at underscore
      rw [underscore] at digit
      exact absurd digit (by decide)

theorem quotedChar?_of_spells {text : List Char} {value : Int} (single : '\n' ∉ text)
    (spells : Program.Spells text value) : quotedChar? text = none := by
  obtain ⟨numeral, strict, -⟩ := Program.spells_iff.mp spells
  unfold quotedChar?
  rw [dropLastLineFeed_of_not_mem single]
  split
  next c =>
    rw [ofStrict?_of_head (by decide) (by decide) (by decide)] at strict
    cases strict
  next => rfl

theorem Denotes.parse {token : String} {operand : Operand} (single : '\n' ∉ token.toList)
    (denotes : Denotes token operand) : Operand.parse token = .ok operand := by
  unfold Operand.parse
  cases denotes with
  | literal spells =>
      obtain ⟨numeral, strict, valued⟩ := Program.spells_iff.mp spells
      simp only [strict, numeralValue, valued]
      rfl
  | @constant text value marked spells =>
      have inner : '\n' ∉ text := by
        rw [marked, List.mem_cons, not_or] at single
        exact single.2
      obtain ⟨numeral, strict, valued⟩ := Program.spells_iff.mp spells
      rw [marked, ofStrict?_of_head (by decide) (by decide) (by decide)]
      simp only [Operand.parseConstant, quotedChar?_of_spells inner spells, strict, numeralValue,
        valued]
      rfl
  | @character c quoted =>
      have other : c ≠ '\n' := by
        rintro rfl
        exact single (by simp [quoted])
      have inner : '\n' ∉ ['\x27', c, '\x27'] := by
        simp [other.symm]
      rw [quoted, ofStrict?_of_head (by decide) (by decide) (by decide)]
      simp only [Operand.parseConstant, quotedChar?, dropLastLineFeed_of_not_mem inner,
        beq_iff_eq, other, if_false]
  | @reference name offset fits own =>
      obtain ⟨first, rest, spelled, start, inside⟩ := fits.isName
      have whole : token.toList = first :: (rest ++ offset.toList) := by
        rw [fits.parts, String.toList_append, spelled, List.cons_append]
      obtain ⟨minus, plus, mark, digit⟩ := isLabelStart_cases start
      have read : Reference.ofText? token = some ⟨token, name, offset⟩ :=
        (ofText?_eq_some_iff single).mpr ⟨rfl, fits⟩
      have allowed : (isReserved name && name != endName) = false := by
        rcases own with free | rfl
        · rw [free, Bool.false_and]
        · simp
      rw [whole, ofStrict?_of_head minus plus digit]
      dsimp only
      split
      next same => exact absurd (List.cons.inj same).1 mark
      next =>
        rw [Operand.parseReference, read]
        simp only [allowed]
        rfl

theorem denotes_of_parse {token : String} {operand : Operand} (single : '\n' ∉ token.toList)
    (parsed : Operand.parse token = .ok operand) : Denotes token operand := by
  have valued : ∀ {numeral : Text.Numeral} {text : List Char} {value : Int},
      Text.Numeral.ofStrict? text = some numeral → numeralValue numeral = .ok value →
        Program.Spells text value := by
    intro numeral text value strict short
    refine Program.spells_iff.mpr ⟨numeral, strict, ?_⟩
    rw [numeralValue] at short
    cases answered : numeral.value with
    | ok number =>
        simpa [answered, Except.mapError] using short
    | error fault =>
        rw [answered] at short
        cases short
  unfold Operand.parse at parsed
  split at parsed
  next numeral strict =>
    obtain ⟨value, short, rfl⟩ := exists_of_map_eq_ok parsed
    exact .literal (valued strict short)
  next =>
    split at parsed
    next text marked =>
      unfold Operand.parseConstant at parsed
      split at parsed
      next c quoted =>
        cases parsed
        apply Denotes.character
        have inner : '\n' ∉ text := by
          rw [marked, List.mem_cons, not_or] at single
          exact single.2
        unfold quotedChar? at quoted
        rw [dropLastLineFeed_of_not_mem inner] at quoted
        split at quoted
        · split at quoted
          · cases quoted
          · cases quoted
            exact marked
        · cases quoted
      next =>
        split at parsed
        next numeral strict =>
          obtain ⟨value, short, rfl⟩ := exists_of_map_eq_ok parsed
          exact .constant marked (valued strict short)
        next => cases parsed
    next =>
      unfold Operand.parseReference at parsed
      split at parsed
      next => cases parsed
      next target read =>
        split at parsed
        next => cases parsed
        next allowed =>
          cases parsed
          obtain ⟨rfl, fits⟩ := (ofText?_eq_some_iff single).mp read
          refine .reference fits ?_
          cases own : isReserved target.name with
          | false => exact Or.inl rfl
          | true => exact Or.inr (by simpa [own] using allowed)

theorem parse_eq_ok_iff {token : String} {operand : Operand} (single : '\n' ∉ token.toList) :
    Operand.parse token = .ok operand ↔ Denotes token operand :=
  ⟨denotes_of_parse single, Denotes.parse single⟩

/-! ## Short numerals -/

theorem isSome_digitValue?_of_ascii {c : Char} (ascii : Text.isAsciiDigit c = true) :
    (Text.digitValue? c).isSome = true := by
  simp only [Text.isAsciiDigit, Bool.and_eq_true, decide_eq_true_eq, Char.le_def,
    UInt32.le_iff_toNat_le] at ascii
  change 48 ≤ c.toNat ∧ c.toNat ≤ 57 at ascii
  have first : (0x30 ≤ c.toNat && c.toNat < 0x30 + 10) = true := by
    simp only [Bool.and_eq_true, decide_eq_true_eq]
    omega
  rw [Text.digitValue?, Text.digitZeros, List.find?_cons, first]
  rfl

theorem splitSign_suffix {text body : List Char} {negative : Bool}
    (cut : Text.Numeral.splitSign text = (negative, body)) : body <:+ text := by
  rcases Program.splitSign_cases cut with ⟨rfl, -⟩ | ⟨rfl | rfl, -⟩
  · exact List.suffix_cons ..
  · exact List.suffix_cons ..
  · exact List.suffix_rfl

theorem exists_value_of_strict {text : List Char} (short : ShortRuns text)
    {numeral : Text.Numeral} (strict : Text.Numeral.ofStrict? text = some numeral) :
    ∃ value, numeral.value = .ok value := by
  cases cut : Text.Numeral.splitSign text with
  | mk negative body =>
      simp only [Text.Numeral.ofStrict?, cut] at strict
      split at strict
      next good =>
        cases strict
        rw [Bool.and_eq_true, List.all_eq_true] at good
        have few : body.length ≤ 4300 := short body (splitSign_suffix cut).isInfix
          fun c member => isSome_digitValue?_of_ascii (good.2 c member)
        refine ⟨_, if_pos ?_⟩
        simpa [Text.Numeral.digitLimit] using few
      next => cases strict

/-- Operands are never complained of for their length. -/
theorem parse_ne_tooLong {token : String} (short : ShortRuns token.toList) {reason : Reason}
    (failed : Operand.parse token = .error reason) (long : Text.TooLong) :
    reason ≠ .tooLong long := by
  have valued : ∀ {numeral : Text.Numeral} {text : List Char} {build : Int → Operand},
      text <:+: token.toList → Text.Numeral.ofStrict? text = some numeral →
        (numeralValue numeral).map build ≠ .error reason := by
    intro numeral text build inside strict
    obtain ⟨value, answered⟩ := exists_value_of_strict (short.of_infix inside) strict
    simp [numeralValue, answered, Except.mapError, Except.map]
  rintro rfl
  unfold Operand.parse at failed
  split at failed
  next numeral strict => exact valued List.infix_rfl strict failed
  next =>
    split at failed
    next text marked =>
      unfold Operand.parseConstant at failed
      split at failed
      next => cases failed
      next =>
        split at failed
        next numeral strict =>
          refine valued ?_ strict failed
          rw [marked]
          exact (List.suffix_cons ..).isInfix
        next => cases failed
    next =>
      unfold Operand.parseReference at failed
      split at failed
      next => cases failed
      next =>
        split at failed
        · cases failed
        · cases failed

theorem forall₂_of_mapM_digitValue? {text : List Char} {digits : List Nat}
    (valued : text.mapM Text.digitValue? = some digits) :
    List.Forall₂ (fun c digit => Text.digitValue? c = some digit) text digits := by
  induction text generalizing digits with
  | nil =>
      cases valued
      exact .nil
  | cons c text ih =>
      simp only [List.mapM_cons, Option.bind_eq_bind, Option.bind_eq_some_iff] at valued
      obtain ⟨digit, first, others, rest, same⟩ := valued
      cases same
      exact .cons first (ih rest)

/-- The offset of a reference is never too long. -/
theorem exists_offsetValue {target : Reference} (short : ShortRuns target.offset.toList) :
    ∃ value, target.offsetValue = .ok value := by
  unfold Reference.offsetValue
  split
  next => exact ⟨0, rfl⟩
  next numeral read =>
    cases cut : Text.Numeral.splitSign target.offset.toList with
    | mk negative body =>
        simp only [Text.Numeral.ofDigits?, cut] at read
        split at read
        next => cases read
        next =>
          obtain ⟨digits, valued, rfl⟩ := Option.map_eq_some_iff.mp read
          have each := forall₂_of_mapM_digitValue? valued
          have few : body.length ≤ 4300 := by
            refine short body (splitSign_suffix cut).isInfix fun c member => ?_
            obtain ⟨index, inside, rfl⟩ := List.mem_iff_getElem.mp member
            have digit := each.get inside (each.length_eq ▸ inside)
            exact Option.isSome_iff_exists.mpr ⟨_, digit⟩
          refine ⟨_, if_pos ?_⟩
          rw [← each.length_eq]
          exact few

/-! ## Statements -/

namespace Mnemonic

/-- A token stands for the mnemonic whose word its upper case is. -/
theorem ofToken?_eq_some_iff {token : String} {mnemonic : Mnemonic} :
    ofToken? token = some mnemonic ↔ Text.upper token.toList = mnemonic.word.toList := by
  have listed : ∀ mnemonic : Mnemonic, mnemonic ∈ all := by
    intro mnemonic
    cases mnemonic <;> decide
  have apart : ∀ first ∈ all, ∀ second ∈ all, first.word.toList = second.word.toList →
      first = second := by decide
  constructor
  · intro found
    have same : mnemonic.word.toList = Text.upper token.toList := by
      simpa using List.find?_some found
    exact same.symm
  · intro spelled
    cases found : ofToken? token with
    | none =>
        have absent := List.find?_eq_none.mp found mnemonic (listed mnemonic)
        simp [spelled] at absent
    | some other =>
        have same : other.word.toList = Text.upper token.toList := by
          simpa using List.find?_some found
        rw [apart other (listed other) mnemonic (listed mnemonic) (same.trans spelled)]

end Mnemonic

namespace Statement

variable {mnemonic : Mnemonic} {token : String} {arguments : List String}

theorem parseOperands_error {reason : Reason}
    (failed : parseOperands arguments = .error reason) :
    ∃ argument ∈ arguments, Operand.parse argument = .error reason := by
  induction arguments with
  | nil => cases failed
  | cons argument arguments ih =>
      rcases error_of_bind failed with first | ⟨operand, -, later⟩
      · exact ⟨argument, List.mem_cons_self, first⟩
      · rcases error_of_bind later with rest | ⟨operands, -, never⟩
        · obtain ⟨other, member, bad⟩ := ih rest
          exact ⟨other, List.mem_cons_of_mem argument member, bad⟩
        · cases never

theorem parseOperands_ok {operands : List Operand}
    (parsed : parseOperands arguments = .ok operands) :
    ∀ argument ∈ arguments, ∃ operand ∈ operands, Operand.parse argument = .ok operand := by
  induction arguments generalizing operands with
  | nil => simp
  | cons argument arguments ih =>
      obtain ⟨first, readFirst, parsed⟩ := exists_of_bind_eq_ok parsed
      obtain ⟨others, readOthers, parsed⟩ := exists_of_bind_eq_ok parsed
      cases parsed
      intro other member
      rcases List.mem_cons.mp member with rfl | later
      · exact ⟨first, List.mem_cons_self, readFirst⟩
      · obtain ⟨operand, inside, read⟩ := ih readOthers other later
        exact ⟨operand, List.mem_cons_of_mem first inside, read⟩

section Peel

variable {reason : Reason}

theorem error_of_one {first : String} {build : Operand → Statement}
    (failed : (do return build (← Operand.parse first)) = Except.error reason) :
    Operand.parse first = .error reason := by
  rcases error_of_bind failed with bad | ⟨_, -, never⟩
  · exact bad
  · cases never

theorem error_of_two {first second : String} {build : Operand → Operand → Statement}
    (failed : (do return build (← Operand.parse first) (← Operand.parse second)) =
      Except.error reason) :
    Operand.parse first = .error reason ∨ Operand.parse second = .error reason := by
  rcases error_of_bind failed with bad | ⟨_, -, later⟩
  · exact Or.inl bad
  · exact Or.inr (error_of_one later)

theorem error_of_three {first second third : String}
    {build : Operand → Operand → Operand → Statement}
    (failed : (do
      let a ← Operand.parse first
      let b ← Operand.parse second
      let c ← Operand.parse third
      return build a b c) = Except.error reason) :
    Operand.parse first = .error reason ∨ Operand.parse second = .error reason ∨
      Operand.parse third = .error reason := by
  rcases error_of_bind failed with bad | ⟨_, -, later⟩
  · exact Or.inl bad
  · exact Or.inr (error_of_two later)

theorem ok_of_one {first : String} {build : Operand → Statement} {statement : Statement}
    (parsed : (do return build (← Operand.parse first)) =
      (Except.ok statement : Except Reason Statement)) :
    ∃ a, Operand.parse first = .ok a ∧ build a = statement := by
  obtain ⟨a, readA, parsed⟩ := exists_of_bind_eq_ok parsed
  cases parsed
  exact ⟨a, readA, rfl⟩

theorem ok_of_two {first second : String} {build : Operand → Operand → Statement}
    {statement : Statement}
    (parsed : (do return build (← Operand.parse first) (← Operand.parse second)) =
      (Except.ok statement : Except Reason Statement)) :
    ∃ a b, Operand.parse first = .ok a ∧ Operand.parse second = .ok b ∧ build a b = statement := by
  obtain ⟨a, readA, parsed⟩ := exists_of_bind_eq_ok parsed
  obtain ⟨b, readB, built⟩ := ok_of_one parsed
  exact ⟨a, b, readA, readB, built⟩

theorem ok_of_three {first second third : String}
    {build : Operand → Operand → Operand → Statement} {statement : Statement}
    (parsed : (do
      let a ← Operand.parse first
      let b ← Operand.parse second
      let c ← Operand.parse third
      return build a b c) = (Except.ok statement : Except Reason Statement)) :
    ∃ a b c, Operand.parse first = .ok a ∧ Operand.parse second = .ok b ∧
      Operand.parse third = .ok c ∧ build a b c = statement := by
  obtain ⟨a, readA, parsed⟩ := exists_of_bind_eq_ok parsed
  obtain ⟨b, c, readB, readC, built⟩ := ok_of_two parsed
  exact ⟨a, b, c, readA, readB, readC, built⟩

end Peel

/-- What is wrong with a statement that is refused: the number of its operands, one of them, or that
a move has the same twice. -/
theorem parse_error {reason : Reason} (failed : parse mnemonic token arguments = .error reason) :
    (¬mnemonic.Admits arguments.length ∧
        reason = .operandCount mnemonic.word token arguments.length) ∨
      (∃ argument ∈ arguments, Operand.parse argument = .error reason) ∨
      ∃ destination source operand, mnemonic = .mov ∧ arguments = [destination, source] ∧
        Operand.parse destination = .ok operand ∧ Operand.parse source = .ok operand ∧
        reason = .sameOperands destination source := by
  unfold parse at failed
  split at failed
  next a b => exact Or.inr (Or.inl (by simpa using error_of_two failed))
  next a b target => exact Or.inr (Or.inl (by simpa using error_of_three failed))
  next value values =>
    rcases error_of_bind failed with bad | ⟨_, -, never⟩
    · exact Or.inr (Or.inl (parseOperands_error bad))
    · cases never
  next cell => exact Or.inr (Or.inl (by simpa using error_of_one failed))
  next destination source =>
    rcases error_of_bind failed with bad | ⟨operand, readDestination, failed⟩
    · exact Or.inr (Or.inl ⟨destination, by simp, bad⟩)
    · rcases error_of_bind failed with bad | ⟨other, readSource, failed⟩
      · exact Or.inr (Or.inl ⟨source, by simp, bad⟩)
      · split at failed
        next same =>
          cases failed
          exact Or.inr (Or.inr ⟨destination, source, operand, rfl, rfl, readDestination,
            same ▸ readSource, rfl⟩)
        next => cases failed
  next destination source => exact Or.inr (Or.inl (by simpa using error_of_two failed))
  next destination source => exact Or.inr (Or.inl (by simpa using (error_of_two failed).symm))
  next cell => exact Or.inr (Or.inl (by simpa using error_of_one failed))
  next cell => exact Or.inr (Or.inl (by simpa using error_of_one failed))
  next target => exact Or.inr (Or.inl (by simpa using error_of_one failed))
  next => cases failed
  next cell target => exact Or.inr (Or.inl (by simpa using error_of_two failed))
  next left right target => exact Or.inr (Or.inl (by simpa using error_of_three failed))
  next left right target =>
    rcases error_of_three failed with bad | bad | bad
    · exact Or.inr (Or.inl ⟨target, by simp, bad⟩)
    · exact Or.inr (Or.inl ⟨left, by simp, bad⟩)
    · exact Or.inr (Or.inl ⟨right, by simp, bad⟩)
  next subleqTwo subleqThree data clr mov add sub inp out jmp halt jlez jle jeq =>
    cases failed
    refine Or.inl ⟨?_, rfl⟩
    rintro ⟨least, most⟩
    -- The other patterns are those of the admitted numbers.
    cases mnemonic with
    | data =>
        obtain ⟨value, values, rfl⟩ := List.exists_cons_of_length_pos least
        exact data value values rfl rfl
    | halt => exact halt rfl (List.length_eq_zero_iff.mp (Nat.le_zero.mp (most 0 rfl)))
    | clr =>
        obtain ⟨cell, rfl⟩ := List.length_eq_one_iff.mp (le_antisymm (most 1 rfl) least)
        exact clr cell rfl rfl
    | inp =>
        obtain ⟨cell, rfl⟩ := List.length_eq_one_iff.mp (le_antisymm (most 1 rfl) least)
        exact inp cell rfl rfl
    | out =>
        obtain ⟨cell, rfl⟩ := List.length_eq_one_iff.mp (le_antisymm (most 1 rfl) least)
        exact out cell rfl rfl
    | jmp =>
        obtain ⟨target, rfl⟩ := List.length_eq_one_iff.mp (le_antisymm (most 1 rfl) least)
        exact jmp target rfl rfl
    | mov =>
        obtain ⟨a, b, rfl⟩ := List.length_eq_two.mp (le_antisymm (most 2 rfl) least)
        exact mov a b rfl rfl
    | add =>
        obtain ⟨a, b, rfl⟩ := List.length_eq_two.mp (le_antisymm (most 2 rfl) least)
        exact add a b rfl rfl
    | sub =>
        obtain ⟨a, b, rfl⟩ := List.length_eq_two.mp (le_antisymm (most 2 rfl) least)
        exact sub a b rfl rfl
    | jlez =>
        obtain ⟨a, b, rfl⟩ := List.length_eq_two.mp (le_antisymm (most 2 rfl) least)
        exact jlez a b rfl rfl
    | jle =>
        obtain ⟨a, b, c, rfl⟩ := List.length_eq_three.mp (le_antisymm (most 3 rfl) least)
        exact jle a b c rfl rfl
    | jeq =>
        obtain ⟨a, b, c, rfl⟩ := List.length_eq_three.mp (le_antisymm (most 3 rfl) least)
        exact jeq a b c rfl rfl
    | subleq =>
        rcases Nat.eq_or_lt_of_le (show 2 ≤ arguments.length from least) with two | three
        · obtain ⟨a, b, rfl⟩ := List.length_eq_two.mp two.symm
          exact subleqTwo a b rfl rfl
        · obtain ⟨a, b, c, rfl⟩ := List.length_eq_three.mp (le_antisymm (most 3 rfl) three)
          exact subleqThree a b c rfl rfl

/-- What an accepted statement has: an admitted number of operands, all of which are read, and those
of a move differ. -/
theorem parse_ok {statement : Statement} (parsed : parse mnemonic token arguments = .ok statement) :
    mnemonic.Admits arguments.length ∧
      (∀ argument ∈ arguments, ∃ operand ∈ statement.operands,
        Operand.parse argument = .ok operand) ∧
      (mnemonic = .mov → ∀ operand, ¬∀ argument ∈ arguments,
        Operand.parse argument = .ok operand) := by
  unfold parse at parsed
  split at parsed
  next a b =>
    obtain ⟨_, _, readA, readB, rfl⟩ := ok_of_two parsed
    simp [operands, readA, readB, Mnemonic.Admits, Mnemonic.least, Mnemonic.most]
  next a b target =>
    obtain ⟨_, _, _, readA, readB, readTarget, rfl⟩ := ok_of_three parsed
    simp [operands, readA, readB, readTarget, Mnemonic.Admits, Mnemonic.least, Mnemonic.most]
  next value values =>
    obtain ⟨_, readAll, parsed⟩ := exists_of_bind_eq_ok parsed
    cases parsed
    exact ⟨by simp [Mnemonic.Admits, Mnemonic.least, Mnemonic.most], parseOperands_ok readAll,
      Mnemonic.noConfusion⟩
  next cell =>
    obtain ⟨_, readCell, rfl⟩ := ok_of_one parsed
    simp [operands, readCell, Mnemonic.Admits, Mnemonic.least, Mnemonic.most]
  next destination source =>
    obtain ⟨first, readDestination, parsed⟩ := exists_of_bind_eq_ok parsed
    obtain ⟨second, readSource, parsed⟩ := exists_of_bind_eq_ok parsed
    split at parsed
    next => cases parsed
    next distinct =>
      cases parsed
      refine ⟨by simp [Mnemonic.Admits, Mnemonic.least, Mnemonic.most],
        by simp [operands, readDestination, readSource], fun _ operand both => distinct ?_⟩
      have sameDestination := both destination (by simp)
      have sameSource := both source (by simp)
      rw [readDestination, Except.ok.injEq] at sameDestination
      rw [readSource, Except.ok.injEq] at sameSource
      rw [sameDestination, sameSource]
  next destination source =>
    obtain ⟨_, _, readDestination, readSource, rfl⟩ := ok_of_two parsed
    simp [operands, readDestination, readSource, Mnemonic.Admits, Mnemonic.least, Mnemonic.most]
  next destination source =>
    obtain ⟨_, _, readSource, readDestination, rfl⟩ := ok_of_two parsed
    simp [operands, readDestination, readSource, Mnemonic.Admits, Mnemonic.least, Mnemonic.most]
  next cell =>
    obtain ⟨_, readCell, rfl⟩ := ok_of_one parsed
    simp [operands, readCell, Mnemonic.Admits, Mnemonic.least, Mnemonic.most]
  next cell =>
    obtain ⟨_, readCell, rfl⟩ := ok_of_one parsed
    simp [operands, readCell, Mnemonic.Admits, Mnemonic.least, Mnemonic.most]
  next target =>
    obtain ⟨_, readTarget, rfl⟩ := ok_of_one parsed
    simp [operands, readTarget, Mnemonic.Admits, Mnemonic.least, Mnemonic.most]
  next =>
    cases parsed
    simp [Mnemonic.Admits, Mnemonic.least, Mnemonic.most]
  next cell target =>
    obtain ⟨_, _, readCell, readTarget, rfl⟩ := ok_of_two parsed
    simp [operands, readCell, readTarget, Mnemonic.Admits, Mnemonic.least, Mnemonic.most]
  next left right target =>
    obtain ⟨_, _, _, readLeft, readRight, readTarget, rfl⟩ := ok_of_three parsed
    simp [operands, readLeft, readRight, readTarget, Mnemonic.Admits, Mnemonic.least,
      Mnemonic.most]
  next left right target =>
    obtain ⟨_, _, _, readTarget, readLeft, readRight, rfl⟩ := ok_of_three parsed
    simp [operands, readLeft, readRight, readTarget, Mnemonic.Admits, Mnemonic.least,
      Mnemonic.most]
  next => cases parsed

end Statement

/-! ## Labels -/

/-- Nothing that fits the pattern of labels has a colon in it. -/
theorem Matches.colon_not_mem {text name offset : String} (fits : Matches text name offset) :
    ':' ∉ text.toList := by
  obtain ⟨first, rest, spelled, start, inside⟩ := fits.isName
  rw [fits.parts, String.toList_append, spelled, List.mem_append, List.mem_cons]
  rintro ((rfl | named) | added)
  · exact absurd start (by decide)
  · exact absurd (inside _ named) (by decide)
  · rcases fits.isOffset with empty | ⟨sign, digits, written, signed, -, all⟩
    · rw [empty] at added
      cases added
    · rw [written, List.mem_cons] at added
      rcases added with rfl | digit
      · exact absurd signed (by decide)
      · exact absurd (all _ digit) (by decide)

theorem labelName?_eq_some_iff {token name : String} (single : '\n' ∉ token.toList) :
    labelName? token = some name ↔
      token = name ++ ":" ∧ ∃ base offset, Matches name base offset := by
  unfold labelName?
  constructor
  · intro found
    split at found
    next rest reversed =>
      have spelled : token = String.ofList rest.reverse ++ ":" := by
        apply String.toList_inj.mp
        rw [String.toList_append, String.toList_ofList, ← List.reverse_inj, reversed]
        simp
      have inner : '\n' ∉ (String.ofList rest.reverse).toList := by
        rw [spelled, String.toList_append, List.mem_append, not_or] at single
        exact single.1
      dsimp only at found
      split at found
      next => cases found
      next =>
        obtain ⟨target, read, rfl⟩ := Option.map_eq_some_iff.mp found
        exact ⟨spelled, _, _, ((ofText?_eq_some_iff inner).mp read).2⟩
    next => cases found
  · rintro ⟨rfl, base, offset, fits⟩
    have inner : '\n' ∉ name.toList := by
      rw [String.toList_append, List.mem_append, not_or] at single
      exact single.1
    have read : Reference.ofText? name = some ⟨name, base, offset⟩ :=
      (ofText?_eq_some_iff inner).mpr ⟨rfl, fits⟩
    have reversed : (name ++ ":").toList.reverse = ':' :: name.toList.reverse := by
      simp
    have alone : name.toList.reverse.contains ':' = false := by
      simpa using fits.colon_not_mem
    rw [reversed]
    simp only [alone, List.reverse_reverse, String.ofList_toList, read]
    rfl

/-- A token that defines a name stands for no mnemonic. -/
theorem ofToken?_label (name : String) : Mnemonic.ofToken? (name ++ ":") = none := by
  have colons : ∀ mnemonic ∈ Mnemonic.all, ':' ∉ mnemonic.word.toList := by decide
  rw [Mnemonic.ofToken?, List.find?_eq_none]
  intro mnemonic member same
  apply colons mnemonic member
  rw [beq_iff_eq.mp same, String.toList_append, Text.upper_append]
  exact List.mem_append_right _ (by decide)

/-! ## Lines -/

/-- The label that the reader finds in tokens, and the tokens behind it. -/
def parted : List String → Option String × List String
  | [] => (none, [])
  | token :: tokens =>
      match labelName? token with
      | none => (none, token :: tokens)
      | some name => (some name, tokens)

section Lines

variable {tokens : List String}

theorem splits_parted (single : ∀ token ∈ tokens, '\n' ∉ token.toList) :
    Splits tokens (parted tokens).1 (parted tokens).2 := by
  cases tokens with
  | nil => exact .plain []
  | cons token tokens =>
      rw [parted]
      cases named : labelName? token with
      | none => exact .plain _
      | some name =>
          obtain ⟨rfl, base, offset, fits⟩ :=
            (labelName?_eq_some_iff (single token List.mem_cons_self)).mp named
          exact .labelled fits tokens

/-- A line can be split in no other way than the reader does, if a statement is to be left. -/
theorem parted_of_splits (single : ∀ token ∈ tokens, '\n' ∉ token.toList) {label : Option String}
    {code : List String} (splits : Splits tokens label code) (isCode : IsCode code) :
    parted tokens = (label, code) := by
  cases splits with
  | plain =>
      cases isCode with
      | nothing => rfl
      | @statement mnemonic token arguments statement =>
          rw [parted]
          cases named : labelName? token with
          | none => rfl
          | some name =>
              obtain ⟨rfl, -⟩ :=
                (labelName?_eq_some_iff (single token List.mem_cons_self)).mp named
              have known := Mnemonic.ofToken?_eq_some_iff.mpr statement.spelled
              rw [ofToken?_label] at known
              cases known
  | @labelled name base offset fits =>
      rw [parted, (labelName?_eq_some_iff (single _ List.mem_cons_self)).mpr
        ⟨rfl, base, offset, fits⟩]

theorem defines_iff (single : ∀ token ∈ tokens, '\n' ∉ token.toList) {name : String} :
    Defines tokens name ↔ (parted tokens).1 = some name := by
  constructor
  · rintro ⟨code, splits⟩
    cases splits with
    | @labelled _ base offset fits =>
        rw [parted, (labelName?_eq_some_iff (single _ List.mem_cons_self)).mpr
          ⟨rfl, base, offset, fits⟩]
  · intro named
    have splits := splits_parted single
    rw [named] at splits
    exact ⟨_, splits⟩

theorem wellFormed_iff (single : ∀ token ∈ tokens, '\n' ∉ token.toList) {taken : String → Prop} :
    WellFormed taken tokens ↔
      (∀ name ∈ (parted tokens).1, isReserved name = false ∧ ¬taken name) ∧
        IsCode (parted tokens).2 := by
  constructor
  · rintro ⟨label, code, splits, free, isCode⟩
    rw [parted_of_splits single splits isCode]
    exact ⟨free, isCode⟩
  · rintro ⟨free, isCode⟩
    exact ⟨_, _, splits_parted single, free, isCode⟩

/-- The reader judges the label that it finds, and then reads what is behind it. -/
theorem Line.read_eq_parted (defined tokens : List String) :
    Line.read defined tokens =
      (match (parted tokens).1 with
        | none => .ok ()
        | some name => checkLabel defined name) >>= fun _ =>
      (readStatement (parted tokens).2).map fun statement =>
        { label := (parted tokens).1, statement } := by
  cases tokens with
  | nil => rfl
  | cons token tokens =>
      rw [Line.read, parted]
      cases labelName? token with
      | none => rfl
      | some name =>
          dsimp only
          cases checkLabel defined name with
          | error reason => rfl
          | ok judged => rfl

/-- An accepted statement has the form of one, and its operands are what its arguments denote. -/
theorem isCode_of_readStatement {code : List String}
    (single : ∀ token ∈ code, '\n' ∉ token.toList) {statement : Option Statement}
    (accepted : Line.readStatement code = .ok statement) :
    IsCode code ∧ ∀ operand, (∃ inner ∈ statement, operand ∈ inner.operands) ↔
      ∃ argument ∈ code.tail, Denotes argument operand := by
  unfold Line.readStatement at accepted
  split at accepted
  next =>
    cases accepted
    exact ⟨.nothing, by simp⟩
  next token arguments =>
    split at accepted
    next => cases accepted
    next mnemonic known =>
      obtain ⟨inner, parsed, rfl⟩ := exists_of_map_eq_ok accepted
      obtain ⟨admitted, read, moves⟩ := Statement.parse_ok parsed
      have denotes : ∀ argument ∈ arguments, ∀ operand,
          Operand.parse argument = .ok operand ↔ Denotes argument operand :=
        fun argument member operand =>
          parse_eq_ok_iff (single argument (List.mem_cons_of_mem token member))
      refine ⟨.statement ⟨Mnemonic.ofToken?_eq_some_iff.mp known, admitted, ?_, ?_⟩, ?_⟩
      · intro argument member
        obtain ⟨operand, -, parsed⟩ := read argument member
        exact ⟨operand, (denotes argument member operand).mp parsed⟩
      · intro isMove operand both
        exact moves isMove operand fun argument member =>
          (denotes argument member operand).mpr (both argument member)
      · intro operand
        constructor
        · rintro ⟨_, ⟨⟩, own⟩
          obtain ⟨argument, member, parsed⟩ :=
            Statement.exists_argument_of_parse parsed operand own
          exact ⟨argument, member, (denotes argument member operand).mp parsed⟩
        · rintro ⟨argument, member, denoted⟩
          obtain ⟨other, own, parsed⟩ := read argument member
          have same := ((denotes argument member operand).mpr denoted).symm.trans parsed
          cases same
          exact ⟨inner, rfl, own⟩

/-- A statement that is refused does not have the form of one. -/
theorem not_isCode_of_readStatement {code : List String}
    (single : ∀ token ∈ code, '\n' ∉ token.toList) {reason : Reason}
    (failed : Line.readStatement code = .error reason) : ¬IsCode code := by
  rintro (_ | ⟨statement⟩)
  · cases failed
  next mnemonic token arguments =>
    have known := Mnemonic.ofToken?_eq_some_iff.mpr statement.spelled
    have denotes : ∀ argument ∈ arguments, ∀ operand,
        Operand.parse argument = .ok operand → Denotes argument operand :=
      fun argument member operand =>
        denotes_of_parse (single argument (List.mem_cons_of_mem token member))
    rw [Line.readStatement, known] at failed
    dsimp only at failed
    cases parsed : Statement.parse mnemonic token arguments with
    | ok inner =>
        rw [parsed] at failed
        cases failed
    | error other =>
        rcases Statement.parse_error parsed with ⟨count, -⟩ | ⟨argument, member, bad⟩ |
          ⟨destination, source, operand, isMove, rfl, readDestination, readSource, -⟩
        · exact count statement.admitted
        · obtain ⟨operand, denoted⟩ := statement.operands argument member
          rw [denoted.parse (single argument (List.mem_cons_of_mem token member))] at bad
          cases bad
        · refine statement.moves isMove operand fun argument member => ?_
          rcases List.mem_pair.mp member with rfl | rfl
          · exact denotes argument member operand readDestination
          · exact denotes argument member operand readSource

/-- Statements are never complained of for the length of a numeral. -/
theorem readStatement_ne_tooLong {code : List String}
    (short : ∀ token ∈ code, ShortRuns token.toList) {reason : Reason}
    (failed : Line.readStatement code = .error reason) (long : Text.TooLong) :
    reason ≠ .tooLong long := by
  unfold Line.readStatement at failed
  split at failed
  next => cases failed
  next token arguments =>
    split at failed
    next =>
      cases failed
      exact Reason.noConfusion
    next mnemonic known =>
      cases parsed : Statement.parse mnemonic token arguments with
      | ok inner =>
          rw [parsed] at failed
          cases failed
      | error other =>
          rw [parsed] at failed
          cases failed
          rcases Statement.parse_error parsed with ⟨-, rfl⟩ | ⟨argument, member, bad⟩ |
            ⟨_, _, _, -, -, -, -, rfl⟩
          · exact Reason.noConfusion
          · exact parse_ne_tooLong (short argument (List.mem_cons_of_mem token member)) bad long
          · exact Reason.noConfusion

/-- What a line has from its tokens: the name it defines, and the names its operands refer to, with
offsets that are numbers. -/
structure Conveys (tokens : List String) (line : Line) : Prop where
  label : ∀ name, line.label = some name ↔ Defines tokens name
  cites : ∀ name, Cites tokens name ↔
    ∃ target, Operand.reference target ∈ line.operands ∧ target.name = name
  offset : ∀ target, Operand.reference target ∈ line.operands →
    ∃ value, target.offsetValue = .ok value

/-- The names that a line of the right form refers to are in the tokens behind its mnemonic. -/
theorem cites_iff (single : ∀ token ∈ tokens, '\n' ∉ token.toList)
    (isCode : IsCode (parted tokens).2) {name : String} :
    Cites tokens name ↔ ∃ argument ∈ (parted tokens).2.tail, ∃ target,
      Denotes argument (.reference target) ∧ target.name = name := by
  constructor
  · rintro ⟨label, mnemonic, token, arguments, splits, statement, cited⟩
    rw [parted_of_splits single splits (.statement statement)]
    exact cited
  · rintro ⟨argument, member, cited⟩
    have splits := splits_parted single
    generalize (parted tokens).1 = label at splits
    generalize (parted tokens).2 = code at splits isCode member
    cases isCode with
    | nothing => cases member
    | statement statement => exact ⟨label, _, _, _, splits, statement, argument, member, cited⟩

theorem mem_parted {token : String} (member : token ∈ (parted tokens).2) : token ∈ tokens := by
  cases tokens with
  | nil => exact member
  | cons first tokens =>
      rw [parted] at member
      cases named : labelName? first with
      | none =>
          rw [named] at member
          exact member
      | some name =>
          rw [named] at member
          exact List.mem_cons_of_mem first member

variable {defined : List String} {taken : String → Prop}

/-- The lines that are accepted are well-formed, and they are read as they are written. -/
theorem Line.wellFormed_of_read (single : ∀ token ∈ tokens, '\n' ∉ token.toList)
    (short : ∀ token ∈ tokens, ShortRuns token.toList) (same : ∀ name, name ∈ defined ↔ taken name)
    {line : Line} (accepted : Line.read defined tokens = .ok line) :
    WellFormed taken tokens ∧ Conveys tokens line := by
  rw [Line.read_eq_parted] at accepted
  obtain ⟨_, judged, accepted⟩ := exists_of_bind_eq_ok accepted
  obtain ⟨statement, read, rfl⟩ := exists_of_map_eq_ok accepted
  obtain ⟨isCode, operands⟩ := isCode_of_readStatement
    (fun token member => single token (mem_parted member)) read
  have own : ∀ operand, operand ∈ Line.operands { label := (parted tokens).1, statement } ↔
      ∃ argument ∈ (parted tokens).2.tail, Denotes argument operand := by
    intro operand
    rw [← operands operand, Line.operands]
    cases statement <;> simp
  refine ⟨(wellFormed_iff single).mpr ⟨?_, isCode⟩, ?_, ?_, ?_⟩
  · intro name named
    rw [named] at judged
    obtain ⟨free, fresh⟩ := Line.checkLabel_eq_ok judged
    exact ⟨free, fun used => fresh ((same name).mpr used)⟩
  · exact fun name => (defines_iff single).symm
  · intro name
    rw [cites_iff single isCode]
    constructor
    · rintro ⟨argument, member, target, denotes, named⟩
      exact ⟨target, (own _).mpr ⟨argument, member, denotes⟩, named⟩
    · rintro ⟨target, member, named⟩
      obtain ⟨argument, inside, denotes⟩ := (own _).mp member
      exact ⟨argument, inside, target, denotes, named⟩
  · intro target member
    obtain ⟨argument, inside, denotes⟩ := (own _).mp member
    have run := short argument (mem_parted (List.mem_of_mem_tail inside))
    cases denotes with
    | reference fits =>
        apply exists_offsetValue
        apply run.of_infix
        rw [fits.parts, String.toList_append]
        exact (List.suffix_append ..).isInfix

/-- The lines that are refused are not well-formed, and the length of a numeral is never the
reason. -/
theorem Line.not_wellFormed_of_read (single : ∀ token ∈ tokens, '\n' ∉ token.toList)
    (short : ∀ token ∈ tokens, ShortRuns token.toList) (same : ∀ name, name ∈ defined ↔ taken name)
    {reason : Reason} (failed : Line.read defined tokens = .error reason) :
    ¬WellFormed taken tokens ∧ ∀ long, reason ≠ .tooLong long := by
  rw [Line.read_eq_parted] at failed
  rw [wellFormed_iff single]
  rcases error_of_bind failed with judged | ⟨_, -, unread⟩
  · cases named : (parted tokens).1 with
    | none =>
        rw [named] at judged
        cases judged
    | some name =>
        rw [named] at judged
        simp only [Line.checkLabel] at judged
        split at judged
        next reserved =>
          cases judged
          exact ⟨fun form => by simp [(form.1 name rfl).1] at reserved, fun _ => Reason.noConfusion⟩
        next =>
          split at judged
          next used =>
            cases judged
            refine ⟨fun form => ?_, fun _ => Reason.noConfusion⟩
            exact (form.1 name rfl).2 ((same name).mp (List.contains_iff_mem.mp used))
          next => cases judged
  · cases read : Line.readStatement (parted tokens).2 with
    | ok statement =>
        rw [read] at unread
        cases unread
    | error other =>
        rw [read] at unread
        cases unread
        refine ⟨fun form => ?_, ?_⟩
        · exact not_isCode_of_readStatement
            (fun token member => single token (mem_parted member)) read form.2
        · exact readStatement_ne_tooLong (fun token member => short token (mem_parted member)) read

end Lines

end Subleq.Assembly
