import Mathlib.Data.Nat.Digits.Defs
import Subleq.Program
import Subleq.Proofs.Basic
import Subleq.Proofs.Text.Blank

/-!
# What a program text says

A program text is read line by line, but its lines do not matter: the words of its lines are the
words of the whole text. `Spells` says which words are numerals and what they denote, and a text is
read exactly if all its words spell integers, which are then its values in order.
-/

namespace Subleq.Program

/-! ## Numerals -/

/-- The number that a row of the digits `0` to `9` denotes. -/
def numberOf (digits : List Char) : Nat :=
  Nat.ofDigits 10 (digits.reverse.map fun c => c.toNat - '0'.toNat)

/-- A token spells an integer if it is an optional sign and one or more of the digits `0` to `9`, of
which there are not too many. -/
def Spells (token : List Char) (value : Int) : Prop :=
  ∃ sign digits, token = sign ++ digits ∧ digits ≠ [] ∧ (∀ c ∈ digits, '0' ≤ c ∧ c ≤ '9') ∧
    digits.length ≤ 4300 ∧
    ((sign = [] ∨ sign = ['+']) ∧ value = numberOf digits ∨
      sign = ['-'] ∧ value = -(numberOf digits : Int))

theorem magnitude_eq_numberOf (negative : Bool) (digits : List Char) :
    Text.Numeral.magnitude ⟨negative, digits.map Text.asciiDigitValue⟩ = numberOf digits := by
  rw [numberOf, Nat.ofDigits_eq_foldr, List.map_reverse, List.foldr_reverse]
  simp only [Text.Numeral.magnitude, Nat.add_comm, Nat.cast_id]
  rfl

theorem splitSign_digits {digits : List Char} (ascii : ∀ c ∈ digits, '0' ≤ c ∧ c ≤ '9') :
    Text.Numeral.splitSign digits = (false, digits) := by
  unfold Text.Numeral.splitSign
  split
  · exact absurd (ascii '-' List.mem_cons_self) (by decide)
  · exact absurd (ascii '+' List.mem_cons_self) (by decide)
  · rfl

theorem splitSign_cases {token body : List Char} {negative : Bool}
    (cut : Text.Numeral.splitSign token = (negative, body)) :
    token = '-' :: body ∧ negative = true ∨
      (token = '+' :: body ∨ token = body) ∧ negative = false := by
  unfold Text.Numeral.splitSign at cut
  split at cut
  · cases cut
    exact Or.inl ⟨rfl, rfl⟩
  · cases cut
    exact Or.inr ⟨Or.inl rfl, rfl⟩
  · cases cut
    exact Or.inr ⟨Or.inr rfl, rfl⟩

theorem ofStrict?_of_split {token digits : List Char} {negative : Bool}
    (cut : Text.Numeral.splitSign token = (negative, digits)) (content : digits ≠ [])
    (ascii : ∀ c ∈ digits, '0' ≤ c ∧ c ≤ '9') :
    Text.Numeral.ofStrict? token = some ⟨negative, digits.map Text.asciiDigitValue⟩ := by
  have all : digits.all Text.isAsciiDigit = true := by
    rw [List.all_eq_true]
    intro c member
    simpa [Text.isAsciiDigit] using ascii c member
  simp [Text.Numeral.ofStrict?, cut, content, all]

/-- The tokens that spell integers are those that are read as strict numerals. -/
theorem spells_iff {token : List Char} {value : Int} :
    Spells token value ↔
      ∃ numeral, Text.Numeral.ofStrict? token = some numeral ∧ numeral.value = .ok value := by
  constructor
  · rintro ⟨sign, digits, rfl, content, ascii, short, signed⟩
    have valued (negative : Bool) :
        Text.Numeral.value ⟨negative, digits.map Text.asciiDigitValue⟩ =
          .ok (if negative then -(numberOf digits : Int) else numberOf digits) := by
      simp only [Text.Numeral.value, Text.Numeral.digitLimit, List.length_map, short, if_true,
        Text.Numeral.toInt, magnitude_eq_numberOf]
    rcases signed with ⟨rfl | rfl, rfl⟩ | ⟨rfl, rfl⟩
    · exact ⟨_, ofStrict?_of_split (splitSign_digits ascii) content ascii, valued false⟩
    · exact ⟨_, ofStrict?_of_split rfl content ascii, valued false⟩
    · exact ⟨_, ofStrict?_of_split rfl content ascii, valued true⟩
  · rintro ⟨numeral, strict, valued⟩
    cases cut : Text.Numeral.splitSign token with
    | mk negative digits =>
        simp only [Text.Numeral.ofStrict?, cut] at strict
        split at strict
        next good =>
          cases strict
          rw [Bool.and_eq_true, List.all_eq_true] at good
          have content : digits ≠ [] := by simpa using good.1
          have ascii : ∀ c ∈ digits, '0' ≤ c ∧ c ≤ '9' := by
            intro c member
            simpa [Text.isAsciiDigit] using good.2 c member
          simp only [Text.Numeral.value, Text.Numeral.digitLimit, List.length_map,
            Text.Numeral.toInt, magnitude_eq_numberOf] at valued
          split at valued
          next short =>
            cases valued
            rcases splitSign_cases cut with ⟨rfl, rfl⟩ | ⟨rfl | rfl, rfl⟩
            · exact ⟨['-'], digits, rfl, content, ascii, short, Or.inr ⟨rfl, rfl⟩⟩
            · exact ⟨['+'], digits, rfl, content, ascii, short, Or.inl ⟨Or.inr rfl, rfl⟩⟩
            · exact ⟨[], token, rfl, content, ascii, short, Or.inl ⟨Or.inl rfl, rfl⟩⟩
          next => cases valued
        next => cases strict

theorem isDigit_of_mem_toString {number : Nat} {c : Char} (member : c ∈ (toString number).toList) :
    c.isDigit = true := by
  rw [Nat.toString_eq_repr, Nat.toList_repr] at member
  exact Nat.isDigit_of_mem_toDigits (by decide) (by decide) member

/-- Writing a number in decimal and taking the number of its digits gives it back. -/
theorem numberOf_toString (number : Nat) : numberOf (toString number).toList = number := by
  rw [Nat.toString_eq_repr, Nat.toList_repr, ← magnitude_eq_numberOf false]
  simp only [Text.Numeral.magnitude, List.foldl_map]
  exact Nat.ofDigitChars_ten_toDigits

theorem numberOf_zeros_append (zeros : Nat) (digits : List Char) :
    numberOf (List.replicate zeros '0' ++ digits) = numberOf digits := by
  simp only [← magnitude_eq_numberOf false, Text.Numeral.magnitude, List.map_append,
    List.map_replicate, List.foldl_append]
  congr 1
  induction zeros with
  | zero => rfl
  | succ zeros ih => exact ih

/-- Zeros with a number in decimal behind them are a row of digits. -/
theorem ascii_zeros_append (zeros number : Nat) :
    ∀ c ∈ List.replicate zeros '0' ++ (toString number).toList, '0' ≤ c ∧ c ≤ '9' := by
  intro c member
  rcases List.mem_append.mp member with zero | written
  · rw [List.eq_of_mem_replicate zero]
    decide
  · have digit := isDigit_of_mem_toString written
    simpa [Char.isDigit, Char.le_def] using digit

theorem toList_toString_ne_nil (number : Nat) : (toString number).toList ≠ [] := by
  rw [Nat.toString_eq_repr, Nat.toList_repr]
  exact Nat.toDigits_ne_nil

theorem spells_toString {number : Nat} (short : (toString number).length ≤ 4300) :
    Spells (toString number).toList number :=
  ⟨[], (toString number).toList, rfl, toList_toString_ne_nil number,
    ascii_zeros_append 0 number, short, Or.inl ⟨Or.inl rfl, by rw [numberOf_toString]⟩⟩

/-! ## Texts -/

/-- A token is read, wherever it stands, if it spells an integer. -/
theorem readToken_eq_ok_iff {token : List Char} {line index : Nat} {value : Int} :
    readToken token line index = .ok value ↔ Spells token value := by
  rw [spells_iff, readToken]
  cases strict : Text.Numeral.ofStrict? token with
  | none => simp
  | some numeral =>
      cases valued : numeral.value with
      | error fault => simp [valued, Except.mapError]
      | ok number => simp [valued, Except.mapError]

theorem readLine_eq_ok_iff {line index : Nat} {done result : List Int}
    {tokens : List (List Char)} :
    readLine line index done tokens = .ok result ↔
      ∃ values, List.Forall₂ Spells tokens values ∧ result = values.reverse ++ done := by
  induction tokens generalizing index done with
  | nil => simp [readLine, eq_comm]
  | cons token tokens ih =>
      rw [readLine]
      cases first : readToken token line index with
      | error fault =>
          have misspelt : ∀ value, ¬Spells token value := by
            intro value spells
            rw [readToken_eq_ok_iff.mpr spells] at first
            cases first
          simp [List.forall₂_cons_left_iff, misspelt]
      | ok value =>
          have spells : Spells token value := readToken_eq_ok_iff.mp first
          simp only [ih, List.forall₂_cons_left_iff]
          constructor
          · rintro ⟨values, rest, rfl⟩
            exact ⟨value :: values, ⟨value, values, spells, rest, rfl⟩, by simp⟩
          · rintro ⟨_, ⟨other, values, otherSpells, rest, rfl⟩, rfl⟩
            have same := (readToken_eq_ok_iff.mpr otherSpells).symm.trans first
            cases same
            exact ⟨values, rest, by simp⟩

theorem readLines_eq_ok_iff {line : Nat} {done result : List Int} {texts : List (List Char)} :
    readLines line done texts = .ok result ↔
      ∃ values, List.Forall₂ Spells (texts.flatMap Text.words) values ∧
        result = values.reverse ++ done := by
  induction texts generalizing line done with
  | nil => simp [readLines, eq_comm]
  | cons text texts ih =>
      rw [readLines, List.flatMap_cons]
      constructor
      · intro accepted
        split at accepted
        · cases accepted
        next after first =>
          obtain ⟨values, spell, rfl⟩ := readLine_eq_ok_iff.mp first
          obtain ⟨others, otherSpell, rfl⟩ := ih.mp accepted
          exact ⟨values ++ others, List.rel_append spell otherSpell, by simp⟩
      · rintro ⟨all, each, rfl⟩
        obtain ⟨values, others, spell, otherSpell, rfl⟩ := exists_of_forall₂_append each
        rw [readLine_eq_ok_iff.mpr ⟨values, spell, rfl⟩]
        exact ih.mpr ⟨others, otherSpell, by simp⟩

/-- A text is read if all its words spell integers, and these are its values in order. -/
theorem read_eq_ok_iff {text : String} {values : List Int} :
    read text = .ok values ↔ List.Forall₂ Spells (Text.words text.toList) values := by
  rw [read, ← Text.words_lines]
  constructor
  · intro accepted
    cases all : readLines 1 [] (Text.lines text.toList) with
    | error fault =>
        rw [all] at accepted
        cases accepted
    | ok result =>
        rw [all] at accepted
        cases accepted
        obtain ⟨values, spell, rfl⟩ := readLines_eq_ok_iff.mp all
        simpa using spell
  · intro spell
    rw [readLines_eq_ok_iff.mpr ⟨values, spell, rfl⟩]
    simp [Except.map]

example : read "1 -2\n+3\t4\r\n" = .ok [1, -2, 3, 4] := by decide

theorem exists_spelled_iff {tokens : List (List Char)} :
    (∃ values, List.Forall₂ Spells tokens values) ↔
      ∀ token ∈ tokens, ∃ value, Spells token value := by
  induction tokens with
  | nil => simp
  | cons token tokens ih =>
      rw [List.forall_mem_cons, ← ih]
      constructor
      · rintro ⟨_, each⟩
        cases each with
        | cons spells others => exact ⟨⟨_, spells⟩, _, others⟩
      · rintro ⟨⟨value, spells⟩, values, others⟩
        exact ⟨value :: values, .cons spells others⟩

/-- A text is refused if one of its words spells no integer. -/
theorem exists_read_eq_error_iff {text : String} :
    (∃ fault, read text = .error fault) ↔
      ∃ token ∈ Text.words text.toList, ∀ value, ¬Spells token value := by
  have accepted : (∃ values, read text = .ok values) ↔
      ∀ token ∈ Text.words text.toList, ∃ value, Spells token value := by
    simp only [read_eq_ok_iff, exists_spelled_iff]
  rw [← not_iff_not]
  push Not
  rw [← accepted]
  cases read text with
  | error fault => simp
  | ok values => simp

end Subleq.Program
