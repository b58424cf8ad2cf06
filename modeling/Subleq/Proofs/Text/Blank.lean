import Mathlib.Data.List.TakeWhile
import Subleq.Proofs.Basic
import Subleq.Text.Blank

/-!
# Words and lines

What the cuts of a text into lines and words do to texts that are put together from parts. A blank
parts the words before it from those behind it, so the words of the lines of a text are the words of
the text, and a run of blanks can be exchanged for any other. Every word stands somewhere in its
text (`Stands`), and where it stands decides which words are before it.
-/

namespace Subleq.Text

/-! ## Words and lines -/

theorem wordsFrom_append_blank {c : Char} (blank : isBlank c = true) (carry text rest : List Char) :
    wordsFrom carry (text ++ c :: rest) = wordsFrom carry text ++ words rest := by
  induction text generalizing carry with
  | nil =>
      simp only [List.nil_append, wordsFrom, blank, if_true]
      split
      · rfl
      · rfl
  | cons first text ih =>
      rw [List.cons_append, wordsFrom, wordsFrom]
      split
      · split
        · exact ih []
        · rw [ih [], List.cons_append]
      · exact ih (first :: carry)

/-- A blank parts the words before it from those behind it. -/
theorem words_append_blank {c : Char} (blank : isBlank c = true) (text rest : List Char) :
    words (text ++ c :: rest) = words text ++ words rest :=
  wordsFrom_append_blank blank [] text rest

theorem words_linesFrom (carry text : List Char) :
    (linesFrom carry text).flatMap words = words (carry.reverse ++ text) := by
  fun_induction linesFrom carry text with
  | case1 carry empty => simp_all
  | case2 carry content => simp
  | case3 carry rest ih =>
      have fed : words ('\n' :: rest) = words rest := words_append_blank (by decide) [] rest
      rw [List.flatMap_cons, ih, words_append_blank (by decide), fed, List.reverse_nil,
        List.nil_append]
  | case4 carry c rest _ ends ih =>
      rw [List.flatMap_cons, ih, words_append_blank (isBlank_of_isLineEnd ends), List.reverse_nil,
        List.nil_append]
  | case5 carry c rest _ stays ih => simpa using ih

/-- The words of the lines of a text are the words of the text. -/
theorem words_lines (text : List Char) : (lines text).flatMap words = words text :=
  words_linesFrom [] text

/-! ## Lines and words of composed texts -/

/-- Characters that end no line are put to the line at hand. -/
theorem linesFrom_append_of_whole {text : List Char} (whole : ∀ c ∈ text, isLineEnd c = false)
    (carry after : List Char) :
    linesFrom carry (text ++ after) = linesFrom (text.reverse ++ carry) after := by
  induction text generalizing carry with
  | nil => rfl
  | cons c text ih =>
      have inside := whole c List.mem_cons_self
      have notReturn : c ≠ '\r' := by
        rintro rfl
        exact absurd inside (by decide)
      rw [List.cons_append, linesFrom.eq_3 _ _ _ (fun _ same _ => notReturn same),
        if_neg (by simp [inside]),
        ih fun other member => whole other (List.mem_cons_of_mem _ member)]
      simp

theorem linesFrom_append_lineFeed {text : List Char} (whole : ∀ c ∈ text, isLineEnd c = false)
    (carry rest : List Char) :
    linesFrom carry (text ++ '\n' :: rest) = (carry.reverse ++ text) :: lines rest := by
  rw [linesFrom_append_of_whole whole]
  simp [linesFrom, isLineEnd, lines]

theorem lines_of_whole {text : List Char} (content : text ≠ [])
    (whole : ∀ c ∈ text, isLineEnd c = false) : lines text = [text] := by
  have all := linesFrom_append_of_whole whole [] []
  rw [List.append_nil, List.append_nil] at all
  rw [lines, all]
  simp [linesFrom, content]

/-- A carriage return that is not paired stays so when a line feed and more is put behind the text,
unless it is the last character. -/
theorem not_pair_append {c : Char} {text rest : List Char}
    (alone : ∀ others, c = '\r' → text = '\n' :: others → False)
    (notLast : ¬(c = '\r' ∧ text = [])) :
    ∀ others, c = '\r' → text ++ '\n' :: rest = '\n' :: others → False := by
  intro others isReturn paired
  cases text with
  | nil => exact notLast ⟨isReturn, rfl⟩
  | cons first text =>
      rw [List.cons_append] at paired
      exact alone text isReturn (by rw [(List.cons.inj paired).1])

/-- A text that is put behind a line feed has its own lines behind those of the text before it. If
that text is empty or ends with a line end, the line feed may end an empty line. -/
theorem exists_linesFrom_append_lineFeed (carry text rest : List Char) :
    ∃ gap, (gap = [] ∨ gap = [[]]) ∧
      linesFrom carry (text ++ '\n' :: rest) = linesFrom carry text ++ (gap ++ lines rest) := by
  induction carry, text using linesFrom.induct with
  | case1 carry empty =>
      obtain rfl := List.isEmpty_iff.mp empty
      exact ⟨[[]], Or.inr rfl, rfl⟩
  | case2 carry content =>
      refine ⟨[], Or.inl rfl, ?_⟩
      rw [linesFrom.eq_1 carry, if_neg content]
      rfl
  | case3 carry text ih =>
      obtain ⟨gap, either, cut⟩ := ih
      exact ⟨gap, either, by simp [linesFrom, cut]⟩
  | case4 carry c text alone ends ih =>
      by_cases last : c = '\r' ∧ text = []
      · obtain ⟨rfl, rfl⟩ := last
        exact ⟨[], Or.inl rfl, rfl⟩
      · obtain ⟨gap, either, cut⟩ := ih
        refine ⟨gap, either, ?_⟩
        rw [List.cons_append, linesFrom.eq_3 _ _ _ (not_pair_append alone last), if_pos ends, cut,
          linesFrom.eq_3 _ _ _ alone, if_pos ends, List.cons_append]
  | case5 carry c text alone inside ih =>
      have notReturn : ¬(c = '\r' ∧ text = []) := by
        rintro ⟨rfl, -⟩
        exact inside rfl
      obtain ⟨gap, either, cut⟩ := ih
      refine ⟨gap, either, ?_⟩
      rw [List.cons_append, linesFrom.eq_3 _ _ _ (not_pair_append alone notReturn), if_neg inside,
        cut, linesFrom.eq_3 _ _ _ alone, if_neg inside]

theorem exists_lines_append_line {text last : List Char} (content : last ≠ [])
    (whole : ∀ c ∈ last, isLineEnd c = false) :
    ∃ gap, (gap = [] ∨ gap = [[]]) ∧
      lines (text ++ '\n' :: last) = lines text ++ (gap ++ [last]) := by
  obtain ⟨gap, either, cut⟩ := exists_linesFrom_append_lineFeed [] text last
  rw [lines_of_whole content whole] at cut
  exact ⟨gap, either, cut⟩

/-- Lines without line ends, each with a line feed behind it, are the lines of their text. -/
theorem lines_flatMap_lineFeed {texts : List (List Char)}
    (whole : ∀ text ∈ texts, ∀ c ∈ text, isLineEnd c = false) :
    lines (texts.flatMap (· ++ ['\n'])) = texts := by
  induction texts with
  | nil => rfl
  | cons text texts ih =>
      rw [List.flatMap_cons, List.append_assoc, List.singleton_append, lines,
        linesFrom_append_lineFeed (whole text List.mem_cons_self),
        ih fun other member => whole other (List.mem_cons_of_mem _ member)]
      rfl

theorem wordsFrom_of_solid {token : List Char} (solid : ∀ c ∈ token, isBlank c = false)
    {carry : List Char} (content : carry ≠ [] ∨ token ≠ []) :
    wordsFrom carry token = [carry.reverse ++ token] := by
  induction token generalizing carry with
  | nil => simp [wordsFrom, content.resolve_right (by simp)]
  | cons c token ih =>
      rw [wordsFrom, if_neg (by simp [solid c List.mem_cons_self]),
        ih (fun other member => solid other (List.mem_cons_of_mem _ member)) (Or.inl (by simp))]
      simp

theorem words_of_solid {token : List Char} (content : token ≠ [])
    (solid : ∀ c ∈ token, isBlank c = false) : words token = [token] :=
  wordsFrom_of_solid solid (Or.inr content)

/-- Words with spaces between them are the words of their text. -/
theorem words_intercalate {tokens : List (List Char)} (content : ∀ token ∈ tokens, token ≠ [])
    (solid : ∀ token ∈ tokens, ∀ c ∈ token, isBlank c = false) :
    words (List.intercalate [' '] tokens) = tokens := by
  induction tokens with
  | nil => rfl
  | cons token tokens ih =>
      have first := words_of_solid (content token List.mem_cons_self)
        (solid token List.mem_cons_self)
      have others := ih (fun other member => content other (List.mem_cons_of_mem _ member))
        (fun other member => solid other (List.mem_cons_of_mem _ member))
      cases tokens with
      | nil => simpa using first
      | cons next tokens =>
          rw [List.intercalate_cons_cons, List.append_assoc, List.singleton_append,
            words_append_blank (by decide), first, others, List.singleton_append]

/-! ## Parts of texts -/

/-- A word stands in its text, and there is no blank in it. -/
theorem infix_of_mem_wordsFrom {carry text token : List Char}
    (solid : ∀ c ∈ carry, isBlank c = false) (member : token ∈ wordsFrom carry text) :
    token <:+: carry.reverse ++ text ∧ ∀ c ∈ token, isBlank c = false := by
  induction text generalizing carry with
  | nil =>
      rw [wordsFrom] at member
      split at member
      · cases member
      · obtain rfl := List.mem_singleton.mp member
        exact ⟨by simp, fun c inside => solid c (List.mem_reverse.mp inside)⟩
  | cons c text ih =>
      have behind : token ∈ wordsFrom [] text →
          token <:+: carry.reverse ++ c :: text ∧ ∀ c ∈ token, isBlank c = false := by
        intro later
        obtain ⟨stands, whole⟩ := @ih [] (by simp) later
        exact ⟨stands.trans ⟨carry.reverse ++ [c], [], by simp⟩, whole⟩
      rw [wordsFrom] at member
      split at member
      · split at member
        · exact behind member
        · rcases List.mem_cons.mp member with rfl | later
          · exact ⟨(List.prefix_append ..).isInfix,
              fun c inside => solid c (List.mem_reverse.mp inside)⟩
          · exact behind later
      next letter =>
        have solid' : ∀ other ∈ c :: carry, isBlank other = false := by
          intro other inside
          rcases List.mem_cons.mp inside with rfl | old
          · exact Bool.eq_false_iff.mpr letter
          · exact solid other old
        have stands := ih solid' member
        rwa [List.reverse_cons, List.append_assoc, List.singleton_append] at stands

theorem infix_of_mem_words {text token : List Char} (member : token ∈ words text) :
    token <:+: text ∧ ∀ c ∈ token, isBlank c = false :=
  infix_of_mem_wordsFrom (by simp) member

theorem infix_of_mem_linesFrom {carry text line : List Char}
    (member : line ∈ linesFrom carry text) : line <:+: carry.reverse ++ text := by
  induction carry, text using linesFrom.induct with
  | case1 carry empty =>
      rw [linesFrom, if_pos empty] at member
      cases member
  | case2 carry content =>
      rw [linesFrom, if_neg content] at member
      obtain rfl := List.mem_singleton.mp member
      simp
  | case3 carry rest ih =>
      rw [linesFrom] at member
      rcases List.mem_cons.mp member with rfl | later
      · exact (List.prefix_append ..).isInfix
      · exact (ih later).trans ⟨carry.reverse ++ ['\r', '\n'], [], by simp⟩
  | case4 carry c rest other ends ih =>
      rw [linesFrom.eq_3 _ _ _ other, if_pos ends] at member
      rcases List.mem_cons.mp member with rfl | later
      · exact (List.prefix_append ..).isInfix
      · exact (ih later).trans ⟨carry.reverse ++ [c], [], by simp⟩
  | case5 carry c rest other inside ih =>
      rw [linesFrom.eq_3 _ _ _ other, if_neg inside] at member
      have stands := ih member
      rwa [List.reverse_cons, List.append_assoc, List.singleton_append] at stands

theorem infix_of_mem_lines {text line : List Char} (member : line ∈ lines text) : line <:+: text :=
  infix_of_mem_linesFrom member

theorem not_isLineEnd_of_solid {c : Char} (solid : isBlank c = false) : isLineEnd c = false := by
  rw [Bool.eq_false_iff] at solid ⊢
  exact fun ends => solid (isBlank_of_isLineEnd ends)

theorem isBlank_of_isDigit {c : Char} (digit : c.isDigit = true) : isBlank c = false := by
  obtain ⟨low, high⟩ := Char.isDigit_iff_toNat.mp digit
  change 48 ≤ c.toNat at low
  change c.toNat ≤ 57 at high
  simp only [isBlank, isLineEnd, Bool.or_eq_false_iff, Bool.and_eq_false_imp,
    decide_eq_true_eq, decide_eq_false_iff_not, beq_eq_false_iff_ne]
  omega

/-! ## Blanks around words -/

/-- A text is blank if nothing of it is left without its leading blanks. -/
theorem isEmpty_trim (text : List Char) : (trim text).isEmpty = (trimLeft text).isEmpty := by
  have head := List.head?_dropWhile_not isBlank text
  unfold trim trimLeft trimRight
  cases rest : text.dropWhile isBlank with
  | nil => rfl
  | cons c others =>
      rw [rest] at head
      have solid : isBlank c = false := by simpa using head
      have content : ((c :: others).reverse.dropWhile isBlank).reverse ≠ [] := by
        intro blank
        have all := List.dropWhile_eq_nil_iff.mp (List.reverse_eq_nil_iff.mp blank)
        have fault := all c (List.mem_reverse.mpr List.mem_cons_self)
        rw [solid] at fault
        cases fault
      rw [List.isEmpty_eq_false_iff.mpr content, List.isEmpty_cons]

/-- Leading blanks are what a text is stripped of if it goes on with another character. -/
theorem trimLeft_blanks_append {blanks text : List Char}
    (blank : ∀ c ∈ blanks, isBlank c = true) (solid : ∀ c ∈ text.head?, isBlank c = false) :
    trimLeft (blanks ++ text) = text := by
  rw [trimLeft, List.dropWhile_append_of_pos blank]
  cases text with
  | nil => rfl
  | cons c text => rw [List.dropWhile_cons_of_neg (by simp [solid c rfl])]

theorem trimRight_of_solid {text : List Char} (solid : ∀ c ∈ text.getLast?, isBlank c = false) :
    trimRight text = text := by
  have same := @trimLeft_blanks_append [] text.reverse (by simp) (by simpa using solid)
  rw [List.nil_append, trimLeft] at same
  rw [trimRight, same, List.reverse_reverse]

/-- A text that neither starts nor ends with a blank is what is left of it behind blanks. -/
theorem trim_blanks_append {blanks text : List Char} (blank : ∀ c ∈ blanks, isBlank c = true)
    (opening : ∀ c ∈ text.head?, isBlank c = false)
    (closing : ∀ c ∈ text.getLast?, isBlank c = false) : trim (blanks ++ text) = text := by
  rw [trim, trimLeft_blanks_append blank opening, trimRight_of_solid closing]

/-- A text that was stripped of its leading blanks does not start with any. -/
theorem eq_nil_of_trimLeft {text front back : List Char} (cut : trimLeft text = front ++ back)
    (blank : ∀ c ∈ front, isBlank c = true) : front = [] := by
  cases front with
  | nil => rfl
  | cons c front =>
      have head := List.head?_dropWhile_not isBlank text
      rw [show text.dropWhile isBlank = c :: (front ++ back) from cut] at head
      simp [blank c List.mem_cons_self] at head

theorem wordsFrom_eq_nil {carry text : List Char} (none : wordsFrom carry text = []) :
    carry = [] ∧ ∀ c ∈ text, isBlank c = true := by
  induction text generalizing carry with
  | nil => simpa [wordsFrom] using none
  | cons c text ih =>
      rw [wordsFrom] at none
      split at none
      next blank =>
        split at none
        next empty =>
          exact ⟨List.isEmpty_iff.mp empty, List.forall_mem_cons.mpr ⟨blank, (ih none).2⟩⟩
        next => cases none
      next => cases (ih none).1

variable {text before token after : List Char}

theorem words_cons_blank {c : Char} (blank : isBlank c = true) (text : List Char) :
    words (c :: text) = words text :=
  words_append_blank blank [] text

theorem words_blanks_append {blanks : List Char} (blank : ∀ c ∈ blanks, isBlank c = true)
    (text : List Char) : words (blanks ++ text) = words text := by
  induction blanks with
  | nil => rfl
  | cons c blanks ih =>
      rw [List.cons_append, words_cons_blank (blank c List.mem_cons_self)]
      exact ih fun other member => blank other (List.mem_cons_of_mem c member)

/-- A run of blanks parts the words before it from those behind it, however long it is. -/
theorem words_append_blanks {blanks : List Char} (content : blanks ≠ [])
    (blank : ∀ c ∈ blanks, isBlank c = true) (before after : List Char) :
    words (before ++ (blanks ++ after)) = words before ++ words after := by
  cases blanks with
  | nil => exact absurd rfl content
  | cons c blanks =>
      rw [List.cons_append, words_append_blank (blank c List.mem_cons_self),
        words_blanks_append fun other member => blank other (List.mem_cons_of_mem c member)]

theorem words_append_of_blanks {blanks : List Char} (blank : ∀ c ∈ blanks, isBlank c = true)
    (text : List Char) : words (text ++ blanks) = words text := by
  cases blanks with
  | nil => rw [List.append_nil]
  | cons c blanks =>
      have parted := words_append_blanks (List.cons_ne_nil c blanks) blank text []
      rwa [List.append_nil, words_nil, List.append_nil] at parted

/-! ## Where words stand -/

/-- A token stands in a text between two parts of it: it is a run of characters that are not blank,
and where the text goes on at either side there is a blank. -/
structure Stands (text before token after : List Char) : Prop where
  cut : text = before ++ (token ++ after)
  content : token ≠ []
  solid : ∀ c ∈ token, isBlank c = false
  opened : ∀ c ∈ before.getLast?, isBlank c = true
  closed : ∀ c ∈ after.head?, isBlank c = true

/-- Where a token stands at the front of a text, it is the first word. -/
theorem words_token_append (content : token ≠ []) (solid : ∀ c ∈ token, isBlank c = false)
    (closed : ∀ c ∈ after.head?, isBlank c = true) :
    words (token ++ after) = token :: words after := by
  cases after with
  | nil => rw [List.append_nil, words_of_solid content solid, words_nil]
  | cons c after =>
      have blank : isBlank c = true := closed c rfl
      rw [words_append_blank blank, words_of_solid content solid, words_cons_blank blank,
        List.singleton_append]

/-- Where a token stands in a text, it is a word behind those of the text before it. -/
theorem Stands.words_eq (stands : Stands text before token after) :
    words text = words before ++ token :: words after := by
  rw [stands.cut, ← words_token_append stands.content stands.solid stands.closed]
  rcases List.eq_nil_or_concat before with rfl | ⟨earlier, c, rfl⟩
  · rfl
  · have blank : isBlank c = true := stands.opened c (by simp)
    rw [List.concat_eq_append, List.append_assoc, List.singleton_append,
      words_append_blank blank, words_append_blank blank, words_nil, List.append_nil]

/-- A text is blank, or its first word stands behind blanks. -/
theorem exists_stands_first (text : List Char) :
    words text = [] ∨ ∃ before token after, Stands text before token after ∧ words before = [] := by
  have blank : ∀ c ∈ text.takeWhile isBlank, isBlank c = true :=
    fun _ member => List.mem_takeWhile_imp member
  have cut : text = text.takeWhile isBlank ++ text.dropWhile isBlank :=
    List.takeWhile_append_dropWhile.symm
  cases rest : text.dropWhile isBlank with
  | nil =>
      rw [rest] at cut
      left
      rw [cut, words_blanks_append blank, words_nil]
  | cons first others =>
      right
      have letter : isBlank first = false := by
        have head := List.head?_dropWhile_not isBlank text
        rw [rest] at head
        exact head
      refine ⟨text.takeWhile isBlank, (first :: others).takeWhile (!isBlank ·),
        (first :: others).dropWhile (!isBlank ·), ⟨?_, ?_, ?_, ?_, ?_⟩, ?_⟩
      · rw [List.takeWhile_append_dropWhile, ← rest]
        exact cut
      · simp [letter]
      · intro c member
        simpa using List.mem_takeWhile_imp member
      · intro c last
        exact blank c (List.mem_of_getLast? last)
      · intro c head
        have found := List.head?_dropWhile_not (!isBlank ·) (first :: others)
        rw [show ((first :: others).dropWhile (!isBlank ·)).head? = some c from head] at found
        simpa using found
      · have none := words_blanks_append blank []
        rwa [List.append_nil] at none

/-- Every word of a text stands in it, between the words before it and those behind it. -/
theorem exists_stands {front back : List (List Char)} (cut : words text = front ++ token :: back) :
    ∃ before after, Stands text before token after ∧ words before = front ∧ words after = back := by
  induction front generalizing text with
  | nil =>
      rcases exists_stands_first text with none | ⟨before, first, after, stands, nothing⟩
      · rw [none] at cut
        cases cut
      · have all := stands.words_eq
        rw [cut, nothing] at all
        cases all
        exact ⟨before, after, stands, nothing, rfl⟩
  | cons word front ih =>
      rcases exists_stands_first text with none | ⟨blanks, first, rest, stands, nothing⟩
      · rw [none] at cut
        cases cut
      · have all := stands.words_eq
        rw [cut, nothing] at all
        obtain ⟨rfl, others⟩ := List.cons_eq_cons.mp all
        obtain ⟨between, after, later, earlier, behind⟩ := ih others.symm
        -- Something stands between two words, since no word begins where another one ends.
        have parted : between ≠ [] := by
          rintro rfl
          obtain ⟨c, letters, rfl⟩ := List.exists_cons_of_ne_nil later.content
          have blank := stands.closed c (by rw [later.cut]; rfl)
          rw [later.solid c List.mem_cons_self] at blank
          cases blank
        have opening : ∀ c ∈ between.head?, isBlank c = true := by
          intro c head
          apply stands.closed c
          rw [later.cut, List.head?_append, head]
          rfl
        have own : Stands (blanks ++ (word ++ between)) blanks word between :=
          ⟨rfl, stands.content, stands.solid, stands.opened, opening⟩
        refine ⟨blanks ++ (word ++ between), after,
          ⟨?_, later.content, later.solid, ?_, later.closed⟩, ?_, behind⟩
        · rw [stands.cut, later.cut]
          simp only [List.append_assoc]
        · intro c last
          apply later.opened c
          rwa [← List.append_assoc, List.getLast?_append_of_ne_nil _ parted] at last
        · rw [own.words_eq, nothing, earlier, List.nil_append]

end Subleq.Text
