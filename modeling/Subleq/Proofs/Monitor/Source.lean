import Subleq.Monitor.Source
import Subleq.Proofs.Assembly.Reading
import Subleq.Proofs.Monitor.WordList

/-!
# The source and the program

The monitor's source, with any word list, is read as the monitor's program, but for lines that say
nothing, and so it assembles to the image of that program. The lines before the word list are a
fixed text; those of the word list are written from the codes of its words, which are numbers in
decimal.
-/

namespace Subleq.Monitor

open Assembly

/-! ## Sources of listings -/

/-- Whether texts are the source of a listing: they are read as the listing, but for lines that say
nothing, and each of them is one line. -/
structure IsSourceOf (texts : List String) (listing : Listing) : Prop where
  read : ∃ lines, Listing.readFrom [] 1 (texts.map String.toList) = .ok lines ∧
    lines.dense = listing
  whole : ∀ text ∈ texts.map String.toList, ∀ c ∈ text, Text.isLineEnd c = false

/-- Decides whether texts are the source of a listing. -/
def checkSource (texts : List String) (listing : Listing) : Bool :=
  (match Listing.readFrom [] 1 (texts.map String.toList) with
    | .ok lines => decide (lines.dense = listing)
    | .error _ => false) &&
  (texts.map String.toList).all fun text => text.all fun c => !Text.isLineEnd c

theorem isSourceOf_of_check {texts : List String} {listing : Listing}
    (checked : checkSource texts listing = true) : IsSourceOf texts listing := by
  rw [checkSource, Bool.and_eq_true] at checked
  obtain ⟨read, whole⟩ := checked
  refine ⟨?_, by simpa only [List.all_eq_true, Bool.not_eq_true'] using whole⟩
  split at read
  next lines accepted => exact ⟨lines, accepted, of_decide_eq_true read⟩
  next => cases read

/-- Sources can be put together if no label of one is a label of the other. -/
theorem IsSourceOf.append {texts others : List String} {first second : Listing}
    (source : IsSourceOf texts first) (other : IsSourceOf others second)
    (distinct : (first ++ second).labels.Nodup) :
    IsSourceOf (texts ++ others) (first ++ second) := by
  obtain ⟨lines, accepted, rfl⟩ := source.read
  obtain ⟨more, acceptedMore, rfl⟩ := other.read
  rw [Listing.labels_append, Listing.labels_dense, Listing.labels_dense,
    List.nodup_append] at distinct
  have fresh : ∀ name ∈ more.labels, name ∉ lines.labels.reverse ++ [] := by
    intro name later earlier
    rw [List.append_nil, List.mem_reverse] at earlier
    exact distinct.2.2 name earlier name later rfl
  constructor
  · refine ⟨lines ++ more, ?_, Listing.dense_append lines more⟩
    have behind :=
      Listing.readFrom_of_fresh acceptedMore fresh (1 + (texts.map String.toList).length)
    rw [List.nil_append] at behind
    rw [List.map_append, Listing.readFrom_append accepted, behind]
    rfl
  · intro text member
    rw [List.map_append, List.mem_append] at member
    exact member.elim (source.whole text) (other.whole text)

theorem isSourceOf_flatMap {parts : List (List String × Listing)}
    (each : ∀ part ∈ parts, IsSourceOf part.1 part.2)
    (distinct : (Listing.labels (parts.flatMap Prod.snd)).Nodup) :
    IsSourceOf (parts.flatMap Prod.fst) (parts.flatMap Prod.snd) := by
  induction parts with
  | nil => exact isSourceOf_of_check (by decide)
  | cons part parts ih =>
      obtain ⟨here, others⟩ := List.forall_mem_cons.mp each
      rw [List.flatMap_cons] at distinct ⊢
      rw [List.flatMap_cons]
      have later := distinct
      rw [Listing.labels_append, List.nodup_append] at later
      exact here.append (ih others later.2.1) distinct

/-! ## The lines before the word list -/

/-- The routines and the cells with their sources. -/
def sourceParts : List (List String × Listing) :=
  [(dispatchLines, dispatch), (unknownWordLines, unknownWord), (echoLines, echo),
    (commentLines, comment), (lineCommentLines, lineComment), (lineFeedLines, lineFeed),
    (byeLines, bye), (hereLines, here), (printStartLines, printStart),
    (printDigitsLines, printDigits), (listWordsLines, listWords), (doneLines, done),
    (storageLines, storage)]

/-- No label of the routines, the cells and the word list is defined twice. -/
theorem nodup_labels : ((routines ++ storage).labels ++ ["wlist", "wlend"]).Nodup := by
  decide +kernel

/-- The fixed lines are those of the routines and the cells. -/
theorem isSourceOf_sourceLines : IsSourceOf sourceLines (routines ++ storage) := by
  have each : ∀ part ∈ sourceParts, IsSourceOf part.1 part.2 := by
    simp only [sourceParts, List.forall_mem_cons]
    -- Each routine is a computation of its own: the texts take the time, long ones the most.
    refine ⟨?_, ?_, ?_, ?_, ?_, ?_, ?_, ?_, ?_, ?_, ?_, ?_, ?_, by simp⟩
    all_goals exact isSourceOf_of_check (by decide +kernel)
  have listing : sourceParts.flatMap Prod.snd = routines ++ storage := by
    simp [sourceParts, routines]
  have texts : sourceParts.flatMap Prod.fst = sourceLines := by
    simp [sourceParts, sourceLines]
  have distinct : (Listing.labels (sourceParts.flatMap Prod.snd)).Nodup := by
    rw [listing]
    exact (List.nodup_append.mp nodup_labels).1
  have whole := isSourceOf_flatMap each distinct
  rwa [listing, texts] at whole

/-! ## The lines of the word list -/

/-- The numbers of a word list: the codes of its words, with a blank before each word. -/
def wordNumbers (words : List String) : List Nat :=
  words.flatMap fun word => (' ' :: word.toList).map Char.toNat

theorem wordListLines_eq (words : List String) :
    wordListLines words = ["wlist:",
      "    DATA " ++ String.intercalate " " ((wordNumbers words).map toString), "wlend:"] := by
  simp [wordListLines, wordNumbers, List.map_flatMap, Function.comp_def]

theorem wordCodes_eq (words : List String) :
    wordCodes words = (wordNumbers words).map fun number : Nat => (number : Int) := by
  simp only [wordCodes, codesOf, wordNumbers, List.map_flatMap, List.map_cons, List.map_map]
  rfl

theorem wordNumbers_ne_nil {words : List String} (nonempty : words ≠ []) :
    wordNumbers words ≠ [] := by
  obtain ⟨word, words, rfl⟩ := List.exists_cons_of_ne_nil nonempty
  simp [wordNumbers]

theorem length_toString_le {words : List String} {number : Nat}
    (member : number ∈ wordNumbers words) : (toString number).length ≤ 4300 := by
  obtain ⟨word, -, inside⟩ := List.mem_flatMap.mp member
  obtain ⟨c, -, rfl⟩ := List.mem_map.mp inside
  have small : c.toNat < 10 ^ 7 := by
    have valid := c.valid
    simp only [UInt32.isValidChar, Nat.isValidChar] at valid
    change c.val.toNat < _
    omega
  have short : (toString c.toNat).length ≤ 7 := (Nat.length_repr_le_iff (by decide)).mpr small
  exact short.trans (by decide)

theorem solid_of_isDigit {c : Char} (digit : c.isDigit = true) :
    Text.isBlank c = false ∧ c ≠ ';' := by
  refine ⟨Text.isBlank_of_isDigit digit, ?_⟩
  rintro rfl
  exact absurd digit (by decide)

theorem tokens_dataLine (numbers : List Nat) :
    Line.tokens ("    DATA " ++ String.intercalate " " (numbers.map toString)).toList =
      "DATA" :: numbers.map toString := by
  have solid : ∀ token ∈ (numbers.map toString).map String.toList, ∀ c ∈ token,
      Text.isBlank c = false ∧ c ≠ ';' := by
    intro token member c inside
    obtain ⟨text, written, rfl⟩ := List.mem_map.mp member
    obtain ⟨number, -, rfl⟩ := List.mem_map.mp written
    exact solid_of_isDigit (Program.isDigit_of_mem_toString inside)
  have content : ∀ token ∈ (numbers.map toString).map String.toList, token ≠ [] := by
    intro token member
    obtain ⟨text, written, rfl⟩ := List.mem_map.mp member
    obtain ⟨number, -, rfl⟩ := List.mem_map.mp written
    rw [Nat.toString_eq_repr, Nat.toList_repr]
    exact Nat.toDigits_ne_nil
  have cut : Text.words ("    DATA " ++ String.intercalate " " (numbers.map toString)).toList =
      ("DATA" :: numbers.map toString).map String.toList := by
    have before : ("    DATA " : String).toList = "    DATA".toList ++ [' '] := rfl
    rw [String.toList_append, before, List.append_assoc, List.singleton_append,
      Text.words_append_blank (by decide), String.toList_intercalate,
      show (" " : String).toList = [' '] from rfl,
      Text.words_intercalate content fun token member c inside => (solid token member c inside).1]
    rfl
  apply Line.tokens_of_words cut
  intro token member
  rcases List.mem_cons.mp member with rfl | written
  · decide
  · intro starts
    exact (solid token.toList (List.mem_map_of_mem written) ';'
      (List.mem_of_mem_head? starts)).2 rfl

theorem readStatement_data {numbers : List Nat} (content : numbers ≠ [])
    (short : ∀ number ∈ numbers, (toString number).length ≤ 4300) :
    Line.readStatement ("DATA" :: numbers.map toString) =
      .ok (some (.data (numbers.map fun number : Nat => .literal number))) := by
  have known : Mnemonic.ofToken? "DATA" = some .data := by decide
  have read := Statement.parseOperands_toString short
  obtain ⟨number, others, rfl⟩ := List.exists_cons_of_ne_nil content
  rw [List.map_cons] at read ⊢
  rw [Line.readStatement, known]
  simp only [Statement.parse, read]
  rfl

theorem read_label (defined : List String) (token name : String)
    (names : labelName? token = some name) (free : isReserved name = false)
    (fresh : name ∉ defined) : Line.read defined [token] = .ok (label name) := by
  simp [Line.read, names, Line.checkLabel, free, fresh, Line.readStatement, Except.map, label]

theorem readFrom_wordListLines {words : List String} (nonempty : words ≠ []) :
    Listing.readFrom [] 1 ((wordListLines words).map String.toList) = .ok (wordList words) := by
  have start := read_label [] "wlist:" "wlist" (by decide) (by decide) (by decide)
  have stop := read_label ["wlist"] "wlend:" "wlend" (by decide) (by decide) (by decide)
  have codes := readStatement_data (wordNumbers_ne_nil nonempty)
    fun _ member => length_toString_le member
  have row : Line.read ["wlist"] ("DATA" :: (wordNumbers words).map toString) =
      .ok (does (.data ((wordNumbers words).map fun number : Nat => .literal number))) := by
    rw [Line.read, show labelName? "DATA" = none by decide]
    simp only [codes]
    rfl
  rw [wordListLines_eq, wordList_eq, wordCodes_eq]
  simp only [List.map_cons, List.map_nil, Listing.readFrom, tokens_dataLine]
  rw [show Line.tokens "wlist:".toList = ["wlist:"] by decide, start]
  dsimp only
  rw [show (label "wlist").label.toList ++ [] = ["wlist"] from rfl, row]
  dsimp only
  rw [show Line.tokens "wlend:".toList = ["wlend:"] by decide,
    show (does _).label.toList ++ ["wlist"] = ["wlist"] from rfl, stop]
  simp [Except.map, Function.comp_def]

/-! ## The whole source -/

theorem toList_textOf (lines : List String) :
    (textOf lines).toList = (lines.map String.toList).flatMap (· ++ ['\n']) := by
  simp [textOf, String.toList_join, List.flatMap_map]

theorem lines_textOf {texts : List String}
    (whole : ∀ text ∈ texts.map String.toList, ∀ c ∈ text, Text.isLineEnd c = false) :
    Text.lines (textOf texts).toList = texts.map String.toList := by
  rw [toList_textOf]
  exact Text.lines_flatMap_lineFeed whole

theorem whole_wordListLines (words : List String) :
    ∀ text ∈ (wordListLines words).map String.toList, ∀ c ∈ text,
      Text.isLineEnd c = false := by
  have codes : ∀ c ∈ (String.intercalate " " ((wordNumbers words).map toString)).toList,
      Text.isLineEnd c = false := by
    intro c member
    rw [String.toList_intercalate] at member
    rcases mem_intercalate member with between | ⟨token, written, inside⟩
    · obtain rfl := List.mem_singleton.mp between
      decide
    · obtain ⟨text, printed, rfl⟩ := List.mem_map.mp written
      obtain ⟨number, -, rfl⟩ := List.mem_map.mp printed
      have solid := (solid_of_isDigit (Program.isDigit_of_mem_toString inside)).1
      rw [← Bool.not_eq_true] at solid ⊢
      exact fun ends => solid (Text.isBlank_of_isLineEnd ends)
  have fixed : ∀ text ∈ ["wlist:", "    DATA ", "wlend:"], ∀ c ∈ text.toList,
      Text.isLineEnd c = false := by
    have checked : ∀ text ∈ ["wlist:", "    DATA ", "wlend:"],
        (text.toList.all fun c => !Text.isLineEnd c) = true := by decide
    simpa only [List.all_eq_true, Bool.not_eq_true'] using checked
  intro text member c inside
  rw [wordListLines_eq, List.map_cons, List.map_cons, List.map_singleton, List.mem_cons,
    List.mem_cons, List.mem_singleton] at member
  rcases member with rfl | rfl | rfl
  · exact fixed "wlist:" (by simp) c inside
  · rw [String.toList_append, List.mem_append] at inside
    rcases inside with before | behind
    · exact fixed "    DATA " (by simp) c before
    · exact codes c behind
  · exact fixed "wlend:" (by simp) c inside

theorem isSourceOf_wordListLines {words : List String} (nonempty : words ≠ []) :
    IsSourceOf (wordListLines words) (wordList words) :=
  ⟨⟨wordList words, readFrom_wordListLines nonempty, rfl⟩, whole_wordListLines words⟩

/-- The source is read as the program, but for lines that say nothing. -/
theorem read_sourceWith {words : List String} (nonempty : words ≠ []) :
    ∃ listing, Listing.read (sourceWith words) = .ok listing ∧
      listing.dense = programWith words := by
  have distinct : (routines ++ storage ++ wordList words).labels.Nodup := by
    rw [Listing.labels_append]
    exact nodup_labels
  have source := isSourceOf_sourceLines.append (isSourceOf_wordListLines nonempty) distinct
  obtain ⟨listing, accepted, dense⟩ := source.read
  refine ⟨listing, ?_, ?_⟩
  · rw [Listing.read, sourceWith, lines_textOf source.whole]
    exact accepted
  · rw [dense, programWith_eq, cellsWith, List.append_assoc]

theorem assemble_sourceWith {words : List String} (nonempty : words ≠ []) :
    ∃ image sizes, assemble (sourceWith words) 0 = .ok (image, sizes) ∧
      (programWith words).image (.ofListing (programWith words)) 0 = .ok image := by
  obtain ⟨listing, accepted, dense⟩ := read_sourceWith nonempty
  obtain ⟨image, built⟩ := exists_image words
  refine ⟨image, _, assemble_eq_ok_iff.mpr ⟨Int.le_refl 0, listing, accepted, ?_, rfl⟩, built⟩
  apply Listing.image_of_dense
  rw [dense]
  exact built

end Subleq.Monitor
