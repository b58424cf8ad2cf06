import Subleq.Proofs.Program

/-!
# Where a program text fails

A text that is not read has a first token that is at fault, and the complaint tells where it stands:
its number among all tokens, and its line, which is one more than the number of line ends before it.
Tokens are read line by line, so each of them is taken with the number of its line; that number is
found again by counting in the text.

How the tokens are set apart decides nothing else. Texts with the same words have the same values,
or fail at the same token.
-/

namespace Subleq.Text

/-- The number of line ends in a text. A carriage return followed by a line feed is one. -/
def lineEnds : List Char → Nat
  | [] => 0
  | '\r' :: '\n' :: rest => lineEnds rest + 1
  | c :: rest => if isLineEnd c then lineEnds rest + 1 else lineEnds rest

/-- The words of lines, each with the number of its line, the first of which has the number
`line`. -/
def placed (line : Nat) : List (List Char) → List (Nat × List Char)
  | [] => []
  | text :: texts => (words text).map (line, ·) ++ placed (line + 1) texts

theorem map_snd_numbered (line : Nat) (tokens : List (List Char)) :
    (tokens.map (line, ·)).map Prod.snd = tokens := by
  rw [List.map_map]
  exact List.map_id tokens

theorem map_snd_placed (line : Nat) (texts : List (List Char)) :
    (placed line texts).map Prod.snd = texts.flatMap words := by
  induction texts generalizing line with
  | nil => rfl
  | cons text texts ih =>
      rw [placed, List.map_append, ih, map_snd_numbered, List.flatMap_cons]

variable {text before token after : List Char}

/-- The line at hand is the first one, and a part of the text that follows belongs to it. -/
theorem exists_line_of_carry {carry : List Char} (content : carry ≠ []) (text : List Char) :
    ∃ rest others, linesFrom carry text = (carry.reverse ++ rest) :: others ∧ rest <+: text := by
  induction carry, text using linesFrom.induct with
  | case1 carry empty => exact absurd (List.isEmpty_iff.mp empty) content
  | case2 carry _ => exact ⟨[], [], by simp [linesFrom, content], List.prefix_rfl⟩
  | case3 carry rest => exact ⟨[], linesFrom [] rest, by simp [linesFrom], List.nil_prefix⟩
  | case4 carry c rest other ends =>
      exact ⟨[], linesFrom [] rest, by simp [linesFrom.eq_3 _ _ _ other, ends], List.nil_prefix⟩
  | case5 carry c rest other inside ih =>
      obtain ⟨line, others, found, part⟩ := ih (List.cons_ne_nil c carry)
      refine ⟨c :: line, others, ?_, List.cons_prefix_cons.mpr ⟨rfl, part⟩⟩
      rw [linesFrom.eq_3 _ _ _ other, if_neg inside, found]
      simp

/-- No token begins with the second half of a line end. -/
theorem not_split_lineEnd {c : Char} {rest : List Char} (content : token ≠ [])
    (solid : ∀ c ∈ token, isBlank c = false)
    (other : ∀ others, c = '\r' → rest = '\n' :: others → False) (after others : List Char)
    (carriage : c = '\r') (cut : rest ++ (token ++ after) = '\n' :: others) : False := by
  cases rest with
  | nil =>
      obtain ⟨first, letters, rfl⟩ := List.exists_cons_of_ne_nil content
      obtain ⟨rfl, -⟩ := List.cons_eq_cons.mp cut
      exact absurd (solid '\n' List.mem_cons_self) (by decide)
  | cons first rest =>
      obtain ⟨rfl, -⟩ := List.cons_eq_cons.mp cut
      exact other rest carriage rfl

/-- A token that is on the line at hand is read with its number, behind the words that are read of
the line already. -/
theorem exists_placed_here (content : token ≠ []) (solid : ∀ c ∈ token, isBlank c = false)
    (closed : ∀ c ∈ after.head?, isBlank c = true) (carry : List Char) (line : Nat)
    (opened : ∀ c ∈ carry.reverse.getLast?, isBlank c = true) :
    ∃ back, placed line (linesFrom carry (token ++ after)) =
      (words carry.reverse).map (line, ·) ++ (line, token) :: back := by
  obtain ⟨rest, others, found, part⟩ :=
    exists_line_of_carry (show token.reverse ++ carry ≠ [] by simp [content]) after
  have closing : ∀ c ∈ rest.head?, isBlank c = true := by
    obtain ⟨more, rfl⟩ := part
    intro c head
    exact closed c (by rw [List.head?_append, head]; rfl)
  have stands : Stands (carry.reverse ++ (token ++ rest)) carry.reverse token rest :=
    ⟨rfl, content, solid, opened, closing⟩
  have whole : ∀ c ∈ token, isLineEnd c = false :=
    fun c member => not_isLineEnd_of_solid (solid c member)
  refine ⟨(words rest).map (line, ·) ++ placed (line + 1) others, ?_⟩
  rw [linesFrom_append_of_whole whole, found, placed, List.reverse_append, List.reverse_reverse,
    List.append_assoc, stands.words_eq, List.map_append, List.map_cons, List.append_assoc,
    List.cons_append]

/-- What opens a token behind some line opens it behind the next line too. -/
theorem opened_tail {carry rest : List Char}
    (opened : ∀ c ∈ (carry ++ rest).getLast?, isBlank c = true) :
    ∀ c ∈ (([] : List Char).reverse ++ rest).getLast?, isBlank c = true := by
  intro c last
  apply opened c
  rw [List.getLast?_append, show rest.getLast? = some c from last]
  rfl

/-- A token is read with the number of the line it stands on, where `carry` holds, last character
first, what is already read of the line at hand. -/
theorem exists_placed_of_carry (content : token ≠ []) (solid : ∀ c ∈ token, isBlank c = false)
    (closed : ∀ c ∈ after.head?, isBlank c = true) (carry : List Char) (line : Nat)
    (opened : ∀ c ∈ (carry.reverse ++ before).getLast?, isBlank c = true) :
    ∃ front back, placed line (linesFrom carry (before ++ (token ++ after))) =
        front ++ (line + lineEnds before, token) :: back ∧
      front.map Prod.snd = words (carry.reverse ++ before) := by
  induction before using lineEnds.induct generalizing carry line with
  | case1 =>
      rw [List.append_nil] at opened ⊢
      obtain ⟨back, found⟩ := exists_placed_here content solid closed carry line opened
      exact ⟨_, back, found, map_snd_numbered line _⟩
  | case2 rest ih =>
      obtain ⟨front, back, found, earlier⟩ := ih [] (line + 1)
        (@opened_tail (carry.reverse ++ ['\r', '\n']) _ (by simpa using opened))
      refine ⟨(words carry.reverse).map (line, ·) ++ front, back, ?_, ?_⟩
      · rw [List.cons_append, List.cons_append, linesFrom, placed, found, lineEnds]
        simp only [List.append_assoc, Nat.add_assoc, Nat.add_comm 1]
      · rw [List.map_append, earlier, map_snd_numbered, words_append_blank (by decide),
          words_cons_blank (by decide), List.reverse_nil, List.nil_append]
  | case3 c rest other ends ih =>
      obtain ⟨front, back, found, earlier⟩ := ih [] (line + 1)
        (@opened_tail (carry.reverse ++ [c]) _ (by simpa using opened))
      refine ⟨(words carry.reverse).map (line, ·) ++ front, back, ?_, ?_⟩
      · rw [List.cons_append,
          linesFrom.eq_3 _ _ _ (not_split_lineEnd content solid other after), if_pos ends, placed,
          found, lineEnds.eq_3 _ _ other, if_pos ends]
        simp only [List.append_assoc, Nat.add_assoc, Nat.add_comm 1]
      · rw [List.map_append, earlier, map_snd_numbered,
          words_append_blank (isBlank_of_isLineEnd ends), List.reverse_nil, List.nil_append]
  | case4 c rest other inside ih =>
      obtain ⟨front, back, found, earlier⟩ := ih (c :: carry) line (by simpa using opened)
      refine ⟨front, back, ?_, by simpa using earlier⟩
      rw [List.cons_append,
        linesFrom.eq_3 _ _ _ (not_split_lineEnd content solid other after), if_neg inside, found,
        lineEnds.eq_3 _ _ other, if_neg inside]

/-- A token that stands in a text is read with the number of line ends before it. -/
theorem Stands.exists_placed (stands : Stands text before token after) :
    ∃ front back, placed 1 (lines text) = front ++ (lineEnds before + 1, token) :: back ∧
      front.map Prod.snd = words before := by
  rw [stands.cut, Nat.add_comm]
  exact exists_placed_of_carry stands.content stands.solid stands.closed [] 1 stands.opened

end Subleq.Text

namespace Subleq.Program

/-! ## Reading token by token -/

/-- Reads tokens that have the numbers of their lines; `done` holds the values read before, last one
first. -/
def readPlaced (done : List Int) : List (Nat × List Char) → Except Fault (List Int)
  | [] => .ok done
  | (line, token) :: rest =>
      match readToken token line (done.length + 1) with
      | .error fault => .error fault
      | .ok value => readPlaced (value :: done) rest

theorem readLine_append (line : Nat) (done : List Int) (tokens : List (List Char))
    (rest : List (Nat × List Char)) :
    readPlaced done (tokens.map (line, ·) ++ rest) =
      match readLine line (done.length + 1) done tokens with
      | .error fault => .error fault
      | .ok done => readPlaced done rest := by
  induction tokens generalizing done with
  | nil => rfl
  | cons token tokens ih =>
      rw [List.map_cons, List.cons_append, readPlaced, readLine]
      cases readToken token line (done.length + 1) with
      | error fault => rfl
      | ok value => exact ih (value :: done)

/-- Reading lines is reading their tokens one after the other. -/
theorem readLines_eq_readPlaced (line : Nat) (done : List Int) (texts : List (List Char)) :
    readLines line done texts = readPlaced done (Text.placed line texts) := by
  induction texts generalizing line done with
  | nil => rfl
  | cons text texts ih =>
      rw [readLines, Text.placed, readLine_append]
      cases readLine line (done.length + 1) done (Text.words text) with
      | error fault => rfl
      | ok done => exact ih (line + 1) done

/-- Tokens are refused if one of them is, of which all before it spell integers. -/
theorem readPlaced_eq_error_iff {done : List Int} {tokens : List (Nat × List Char)}
    {fault : Fault} :
    readPlaced done tokens = .error fault ↔
      ∃ front line token back, tokens = front ++ (line, token) :: back ∧
        (∀ earlier ∈ front.map Prod.snd, ∃ value, Spells earlier value) ∧
        readToken token line (done.length + front.length + 1) = .error fault := by
  induction tokens generalizing done with
  | nil => simp [readPlaced]
  | cons first tokens ih =>
      obtain ⟨line, token⟩ := first
      rw [readPlaced]
      cases read : readToken token line (done.length + 1) with
      | error other =>
          constructor
          · intro failed
            cases failed
            exact ⟨[], line, token, tokens, rfl, by simp, read⟩
          · rintro ⟨front, place, bad, back, cut, spelled, failed⟩
            cases front with
            | nil =>
                cases cut
                cases read.symm.trans failed
                rfl
            | cons earlier front =>
                cases cut
                obtain ⟨value, spells⟩ := spelled token List.mem_cons_self
                rw [readToken_eq_ok_iff.mpr spells] at read
                cases read
      | ok value =>
          have spells : Spells token value := readToken_eq_ok_iff.mp read
          rw [ih]
          constructor
          · rintro ⟨front, place, bad, back, rfl, spelled, failed⟩
            refine ⟨(line, token) :: front, place, bad, back, rfl,
              List.forall_mem_cons.mpr ⟨⟨value, spells⟩, spelled⟩, ?_⟩
            rw [← failed]
            congr 1
            simp only [List.length_cons]
            omega
          · rintro ⟨front, place, bad, back, cut, spelled, failed⟩
            cases front with
            | nil =>
                cases cut
                exact absurd (read.symm.trans failed) (by simp)
            | cons earlier front =>
                cases cut
                refine ⟨front, place, bad, back, rfl, (List.forall_mem_cons.mp spelled).2, ?_⟩
                rw [← failed]
                congr 1
                simp only [List.length_cons]
                omega

/-! ## Faults -/

/-- A token is an optional sign with one or more of the digits `0` to `9` behind it. -/
structure IsNumeral (token sign digits : List Char) : Prop where
  cut : token = sign ++ digits
  sign : sign = [] ∨ sign = ['+'] ∨ sign = ['-']
  content : digits ≠ []
  ascii : ∀ c ∈ digits, '0' ≤ c ∧ c ≤ '9'

/-- What is wrong with a token that has a place: it is no numeral, or one with too many digits. -/
inductive Blames (token : List Char) (line index : Nat) : Fault → Prop
  | token (shapeless : ∀ sign digits, ¬IsNumeral token sign digits) :
      Blames token line index (.token (String.ofList token) line index)
  | tooLong {sign digits : List Char} (numeral : IsNumeral token sign digits)
      (long : 4300 < digits.length) : Blames token line index (.tooLong ⟨digits.length⟩)

theorem IsNumeral.ofStrict? {token sign digits : List Char}
    (numeral : IsNumeral token sign digits) :
    ∃ negative, Text.Numeral.ofStrict? token =
      some ⟨negative, digits.map Text.asciiDigitValue⟩ := by
  obtain ⟨rfl, rfl | rfl | rfl, content, ascii⟩ := numeral
  · exact ⟨false, ofStrict?_of_split (splitSign_digits ascii) content ascii⟩
  · exact ⟨false, ofStrict?_of_split rfl content ascii⟩
  · exact ⟨true, ofStrict?_of_split rfl content ascii⟩

theorem exists_isNumeral_of_strict {token : List Char} {numeral : Text.Numeral}
    (strict : Text.Numeral.ofStrict? token = some numeral) :
    ∃ sign digits, IsNumeral token sign digits ∧ digits.length = numeral.digits.length := by
  cases cut : Text.Numeral.splitSign token with
  | mk negative digits =>
      simp only [Text.Numeral.ofStrict?, cut] at strict
      split at strict
      next good =>
        cases strict
        rw [Bool.and_eq_true, List.all_eq_true] at good
        have content : digits ≠ [] := by simpa using good.1
        have ascii : ∀ c ∈ digits, '0' ≤ c ∧ c ≤ '9' := by
          intro c member
          simpa [Text.isAsciiDigit] using good.2 c member
        have long : digits.length = (digits.map Text.asciiDigitValue).length :=
          (List.length_map _).symm
        rcases splitSign_cases cut with ⟨rfl, -⟩ | ⟨rfl | rfl, -⟩
        · exact ⟨['-'], digits, ⟨rfl, Or.inr (Or.inr rfl), content, ascii⟩, long⟩
        · exact ⟨['+'], digits, ⟨rfl, Or.inr (Or.inl rfl), content, ascii⟩, long⟩
        · exact ⟨[], token, ⟨rfl, Or.inl rfl, content, ascii⟩, long⟩
      next => cases strict

theorem readToken_eq_error_iff {token : List Char} {line index : Nat} {fault : Fault} :
    readToken token line index = .error fault ↔ Blames token line index fault := by
  constructor
  · intro failed
    rw [readToken] at failed
    cases strict : Text.Numeral.ofStrict? token with
    | none =>
        rw [strict] at failed
        cases failed
        refine .token ?_
        intro sign digits numeral
        obtain ⟨negative, read⟩ := numeral.ofStrict?
        rw [strict] at read
        cases read
    | some read =>
        obtain ⟨sign, digits, numeral, long⟩ := exists_isNumeral_of_strict strict
        rw [strict] at failed
        simp only [Text.Numeral.value, Text.Numeral.digitLimit, ← long] at failed
        split at failed
        next => cases failed
        next excess =>
          cases failed
          exact .tooLong numeral (Nat.lt_of_not_le excess)
  · intro blames
    rw [readToken]
    cases blames with
    | token shapeless =>
        cases strict : Text.Numeral.ofStrict? token with
        | none => rfl
        | some read =>
            obtain ⟨sign, digits, numeral, -⟩ := exists_isNumeral_of_strict strict
            exact absurd numeral (shapeless sign digits)
    | tooLong numeral long =>
        obtain ⟨negative, strict⟩ := numeral.ofStrict?
        rw [strict]
        simp only [Text.Numeral.value, Text.Numeral.digitLimit, List.length_map]
        rw [if_neg (Nat.not_le_of_lt long)]
        rfl

/-- The first token of a text that spells no integer is complained of, with its place. -/
theorem read_eq_error_iff {text : String} {fault : Fault} :
    read text = .error fault ↔
      ∃ before token after, Text.Stands text.toList before token after ∧
        (∀ earlier ∈ Text.words before, ∃ value, Spells earlier value) ∧
        Blames token (Text.lineEnds before + 1) ((Text.words before).length + 1) fault := by
  have refused : read text = .error fault ↔
      readPlaced [] (Text.placed 1 (Text.lines text.toList)) = .error fault := by
    rw [read, readLines_eq_readPlaced]
    cases readPlaced [] (Text.placed 1 (Text.lines text.toList)) with
    | error other => exact Iff.rfl
    | ok values => simp [Except.map]
  rw [refused, readPlaced_eq_error_iff]
  constructor
  · rintro ⟨front, line, token, back, cut, spelled, failed⟩
    have words : Text.words text.toList = front.map Prod.snd ++ token :: back.map Prod.snd := by
      rw [← Text.words_lines, ← Text.map_snd_placed 1, cut, List.map_append, List.map_cons]
    obtain ⟨before, after, stands, earlier, -⟩ := Text.exists_stands words
    obtain ⟨others, rest, found, same⟩ := stands.exists_placed
    -- As many tokens are before it in either cut, so both cuts are the same.
    have long : front.length = others.length := by
      rw [← List.length_map Prod.snd, ← earlier, ← same, List.length_map]
    obtain ⟨rfl, tail⟩ := List.append_inj (cut.symm.trans found) long
    cases tail
    refine ⟨before, token, after, stands, by rwa [earlier], ?_⟩
    rw [earlier, List.length_map]
    exact readToken_eq_error_iff.mp (by simpa using failed)
  · rintro ⟨before, token, after, stands, spelled, blames⟩
    obtain ⟨front, back, found, earlier⟩ := stands.exists_placed
    refine ⟨front, _, token, back, found, by rwa [earlier], ?_⟩
    rw [← earlier, List.length_map] at blames
    simpa using readToken_eq_error_iff.mpr blames

/-! ## Blanks between tokens -/

/-- A fault without the line it is on. -/
def Fault.withoutLine : Fault → Fault
  | .token text _ index => .token text 0 index
  | .tooLong fault => .tooLong fault

theorem readPlaced_withoutLine {done : List Int} {tokens others : List (Nat × List Char)}
    (same : tokens.map Prod.snd = others.map Prod.snd) :
    (readPlaced done tokens).mapError Fault.withoutLine =
      (readPlaced done others).mapError Fault.withoutLine := by
  induction tokens generalizing done others with
  | nil =>
      obtain rfl := List.map_eq_nil_iff.mp same.symm
      rfl
  | cons first tokens ih =>
      obtain ⟨line, token⟩ := first
      cases others with
      | nil => cases same
      | cons second others =>
          obtain ⟨place, other⟩ := second
          obtain ⟨rfl, tail⟩ := List.cons_eq_cons.mp same
          rw [readPlaced, readPlaced]
          unfold readToken
          cases Text.Numeral.ofStrict? token with
          | none => rfl
          | some numeral =>
              dsimp only
              cases numeral.value with
              | error long => rfl
              | ok value => exact ih tail

/-- Texts with the same words have the same values, or fail at the same token. -/
theorem read_of_same_words {text other : String}
    (same : Text.words text.toList = Text.words other.toList) :
    (read text).mapError Fault.withoutLine = (read other).mapError Fault.withoutLine := by
  have placed : (Text.placed 1 (Text.lines text.toList)).map Prod.snd =
      (Text.placed 1 (Text.lines other.toList)).map Prod.snd := by
    rw [Text.map_snd_placed, Text.map_snd_placed, Text.words_lines, Text.words_lines, same]
  have turned (result : Except Fault (List Int)) :
      (result.map List.reverse).mapError Fault.withoutLine =
        (result.mapError Fault.withoutLine).map List.reverse := by
    cases result with
    | error fault => rfl
    | ok values => rfl
  rw [read, read, readLines_eq_readPlaced, readLines_eq_readPlaced, turned, turned,
    readPlaced_withoutLine placed]

/-- A run of blanks that parts tokens, or stands at an end of a text, is as good as any other. -/
theorem words_exchange {before blanks others after : List Char}
    (blank : ∀ c ∈ blanks ++ others, Text.isBlank c = true)
    (parting : blanks ≠ [] ∧ others ≠ [] ∨ before = [] ∨ after = []) :
    Text.words (before ++ (blanks ++ after)) = Text.words (before ++ (others ++ after)) := by
  have own : ∀ c ∈ blanks, Text.isBlank c = true :=
    fun c member => blank c (List.mem_append_left others member)
  have other : ∀ c ∈ others, Text.isBlank c = true :=
    fun c member => blank c (List.mem_append_right blanks member)
  rcases parting with ⟨some, someOther⟩ | rfl | rfl
  · rw [Text.words_append_blanks some own, Text.words_append_blanks someOther other]
  · rw [List.nil_append, List.nil_append, Text.words_blanks_append own,
      Text.words_blanks_append other]
  · rw [List.append_nil, List.append_nil, Text.words_append_of_blanks own,
      Text.words_append_of_blanks other]

/-- Reading a program text accepts exactly the texts of signed decimals, and locates the first token
that is none. Whatever the text: the words of its lines are its words. It is read as these values if
all its words spell integers of these values, in order. It fails with a fault if a token stands in
it of which this is the fault, at the line that the line ends before it count, with the number that
the tokens before it count, all of which spell integers. And blanks part tokens, whichever they are
and however many: where a run of blanks is exchanged for another, which may be empty at the ends of
the text only, the text has the same values, or fails at the same token for the same reason, with
another line at most. -/
theorem read_locates_first_fault (text : String) :
    (Text.lines text.toList).flatMap Text.words = Text.words text.toList ∧
    (∀ values, read text = .ok values ↔
      List.Forall₂ Spells (Text.words text.toList) values) ∧
    (∀ fault, read text = .error fault ↔
      ∃ before token after, Text.Stands text.toList before token after ∧
        (∀ earlier ∈ Text.words before, ∃ value, Spells earlier value) ∧
        Blames token (Text.lineEnds before + 1) ((Text.words before).length + 1) fault) ∧
    ∀ before blanks others after (other : String),
      text.toList = before ++ (blanks ++ after) → other.toList = before ++ (others ++ after) →
      (∀ c ∈ blanks ++ others, Text.isBlank c = true) →
      (blanks ≠ [] ∧ others ≠ [] ∨ before = [] ∨ after = []) →
      (read text).mapError Fault.withoutLine = (read other).mapError Fault.withoutLine := by
  refine ⟨Text.words_lines text.toList, fun values => read_eq_ok_iff,
    fun fault => read_eq_error_iff, ?_⟩
  intro before blanks others after other cut otherCut blank parting
  apply read_of_same_words
  rw [cut, otherCut]
  exact words_exchange blank parting

/-- The fourth token of a text is no numeral. Two line ends are before it, one of them of two
characters, and another one with a tab in the place of the first space leaves it the fourth. -/
theorem read_locates_first_fault_mixed :
    let before := "1 +2\r\n-03\u2028".toList
    let text := "1 +2\r\n-03\u20284x 5"
    let other := "1\n\t+2\r\n-03\u20284x 5"
    Text.Stands text.toList before ['4', 'x'] [' ', '5'] ∧ Text.lineEnds before = 2 ∧
      Text.words before = [['1'], ['+', '2'], ['-', '0', '3']] ∧
      read text = .error (.token "4x" 3 4) ∧ read other = .error (.token "4x" 4 4) ∧
      (read text).mapError Fault.withoutLine = (read other).mapError Fault.withoutLine := by
  intro before text other
  have stands : Text.Stands text.toList before ['4', 'x'] [' ', '5'] :=
    ⟨by decide +kernel, by decide, by simp [Text.isBlank, Text.isLineEnd], by rintro _ ⟨⟩; rfl,
      by rintro _ ⟨⟩; rfl⟩
  have words : Text.words before = [['1'], ['+', '2'], ['-', '0', '3']] := by decide +kernel
  have ends : Text.lineEnds before = 2 := by decide +kernel
  have values : read "1 +2\r\n-03\u2028" = .ok [1, 2, -3] := by decide +kernel
  have spelled : ∀ earlier ∈ Text.words before, ∃ value, Spells earlier value :=
    exists_spelled_iff.mp ⟨_, read_eq_ok_iff.mp values⟩
  have blames : Blames ['4', 'x'] (Text.lineEnds before + 1) ((Text.words before).length + 1)
      (.token "4x" 3 4) := by
    rw [ends, words]
    exact readToken_eq_error_iff.mp (by decide +kernel)
  obtain ⟨-, -, fails, exchanges⟩ := read_locates_first_fault text
  exact ⟨stands, ends, words, (fails _).mpr ⟨before, _, _, stands, spelled, blames⟩,
    by decide +kernel,
    exchanges ['1'] [' '] ['\n', '\t'] "+2\r\n-03\u20284x 5".toList other (by decide +kernel)
      (by decide +kernel) (by simp [Text.isBlank, Text.isLineEnd])
      (Or.inl ⟨by decide, by decide⟩)⟩

end Subleq.Program
