import Subleq.Proofs.Text.Blank
import Subleq.Session.Completion

/-!
# Accepted completions

Where a command line asks for a command, every name that begins with the fragment before the cursor
is proposed, in the place of as many characters as the fragment has. These are the last ones of the
text, so that the fragment has to stand at its end. Yet only a space is looked for behind it: names
are proposed as well when the fragment is parted from the cursor by blanks of another kind. What is
replaced then are those blanks and a part of the fragment, whose rest stays before the name, and the
line asks for another command or for none at all.
-/

namespace Subleq

/-! ## Shell words of unquoted texts -/

namespace Text.ShellWords

/-- Whether a character is no quote and no backslash. -/
def isUnquoted (c : Char) : Bool := c != '\x5c' && c != '\x27' && c != '\x22'

theorem isBlank_of_isSeparator {c : Char} (parts : isSeparator c = true) : isBlank c = true := by
  simp only [isSeparator, Bool.or_eq_true, beq_iff_eq] at parts
  rcases parts with ((rfl | rfl) | rfl) | rfl <;> decide

theorem isUnquoted_of_isBlank {c : Char} (blank : isBlank c = true) : isUnquoted c = true := by
  simp only [isUnquoted, Bool.and_eq_true, bne_iff_ne]
  refine ⟨⟨?_, ?_⟩, ?_⟩ <;>
  · rintro rfl
    exact absurd blank (by decide)

/-- The word at hand is closed with all that was read of it. -/
theorem flatMap_close (carry : Carry) :
    (Carry.close carry).flatMap String.toList = (carry.getD []).reverse := by
  cases carry with
  | none => rfl
  | some letters => simp [Carry.close]

/-- The words of a text without quotes are, one behind the other, its characters that do not part
words. -/
theorem flatMap_of_scan {carry : Carry} {text : List Char} {words : List String}
    (unquoted : ∀ c ∈ text, isUnquoted c = true) (scanned : scan .plain carry text = .ok words) :
    words.flatMap String.toList = (carry.getD []).reverse ++ text.filter (!isSeparator ·) := by
  induction text generalizing carry words with
  | nil =>
      cases scanned
      rw [flatMap_close, List.filter_nil, List.append_nil]
  | cons c text ih =>
      have others := fun other member => unquoted other (List.mem_cons_of_mem c member)
      have own := unquoted c List.mem_cons_self
      simp only [isUnquoted, Bool.and_eq_true, bne_iff_ne] at own
      rw [scan] at scanned
      by_cases parts : isSeparator c = true
      · rw [if_pos parts] at scanned
        cases rest : scan .plain none text with
        | error fault => simp [rest, Except.map] at scanned
        | ok later =>
            rw [rest] at scanned
            cases scanned
            rw [List.flatMap_append, flatMap_close, ih others rest,
              List.filter_cons_of_neg (by simp [parts])]
            rfl
      · rw [if_neg parts, if_neg (by simp [own.1.1]), if_neg (by simp [own.1.2]),
          if_neg (by simp [own.2])] at scanned
        rw [ih others scanned, List.filter_cons_of_pos (by simp [parts])]
        simp [Carry.push]

end Text.ShellWords

namespace Completion

open Text

/-! ## Proposals -/

/-- A text before the cursor when a proposal was accepted: the name of the proposal stands in the
place of the characters that it replaces. -/
def Proposal.accept (proposal : Proposal) (text : String) : String :=
  String.ofList
    (text.toList.take (text.toList.length - proposal.replaces) ++ proposal.text.toList)

/-- How a text before the cursor asks for a command. Behind the mark there is at most one word, the
fragment, and the text does not end with a space behind it. -/
structure Asks (text : String) (lead gap fragment trail : List Char) : Prop where
  cut : text.toList = lead ++ (Command.mark.toList ++ (gap ++ (fragment ++ trail)))
  leading : ∀ c ∈ lead, isBlank c = true
  between : ∀ c ∈ gap, isBlank c = true
  solid : ∀ c ∈ fragment, isBlank c = false
  trailing : ∀ c ∈ trail, isBlank c = true
  begun : fragment = [] → trail = []
  unparted : trail.getLast? ≠ some ' '

variable {listing : Listing} {words : List String} {text : String}
  {lead gap fragment trail : List Char}

theorem mem_commands {proposal : Proposal} : proposal ∈ commands fragment ↔
    proposal.text ∈ Command.names ∧ fragment <+: proposal.text.toList ∧
      proposal.replaces = fragment.length := by
  obtain ⟨name, replaces⟩ := proposal
  simp only [commands, List.mem_map, List.mem_filter, List.isPrefixOf_iff_prefix, Proposal.mk.injEq]
  constructor
  · rintro ⟨_, ⟨listed, begins⟩, rfl, rfl⟩
    exact ⟨listed, begins, rfl⟩
  · rintro ⟨listed, begins, rfl⟩
    exact ⟨name, ⟨listed, begins⟩, rfl, rfl⟩

/-- A name of a command is not empty, has nothing in it that means something between words, and is a
word that is known. -/
theorem plain_of_mem_names {name : String} (listed : name ∈ Command.names) :
    name.toList ≠ [] ∧
      (∀ c ∈ name.toList, isBlank c = false ∧ ShellWords.isUnquoted c = true) ∧
      ShellWords.split name.toList = .ok [name] := by
  have all : ∀ name ∈ Command.names, name.toList ≠ [] ∧
      (name.toList.all fun c => !isBlank c && ShellWords.isUnquoted c) = true ∧
      ShellWords.split name.toList = .ok [name] := by decide
  obtain ⟨content, plain, word⟩ := all name listed
  refine ⟨content, fun c inside => ?_, word⟩
  have held := List.all_eq_true.mp plain c inside
  simpa using held

theorem ofWords_ne_unknown {name : String} (listed : name ∈ Command.names) (word : String) :
    Command.ofWords [name] ≠ .unknown word := by
  simp only [Command.names, List.mem_cons, List.not_mem_nil, or_false] at listed
  rcases listed with rfl | rfl | rfl | rfl | rfl | rfl | rfl | rfl | rfl | rfl | rfl | rfl | rfl <;>
    exact Command.noConfusion

/-- What stands before a name does not make one word with it. -/
theorem split_append_ne {kept : List Char} {name : String} (listed : name ∈ Command.names)
    (unquoted : ∀ c ∈ kept, ShellWords.isUnquoted c = true) {first : Char}
    (member : first ∈ kept) (solid : isBlank first = false) :
    ShellWords.split (kept ++ name.toList) ≠ .ok [name] := by
  obtain ⟨-, plain, -⟩ := plain_of_mem_names listed
  have separates {c : Char} (letter : isBlank c = false) : ShellWords.isSeparator c = false := by
    rw [Bool.eq_false_iff] at letter ⊢
    exact fun parts => letter (ShellWords.isBlank_of_isSeparator parts)
  intro same
  have joined := ShellWords.flatMap_of_scan (List.forall_mem_append.mpr
    ⟨unquoted, fun c inside => (plain c inside).2⟩) same
  have own : name.toList.filter (!ShellWords.isSeparator ·) = name.toList :=
    List.filter_eq_self.mpr fun c inside => by simp [separates (plain c inside).1]
  rw [List.filter_append, own] at joined
  have nothing : kept.filter (!ShellWords.isSeparator ·) = [] := by simpa using joined
  have found := List.filter_eq_nil_iff.mp nothing first member
  simp [separates solid] at found

/-- A text that a name is put behind ends with a letter of the name. -/
theorem closing_of_mem_names {name : String} (listed : name ∈ Command.names)
    (before : List Char) : ∀ c ∈ (before ++ name.toList).getLast?, isBlank c = false := by
  obtain ⟨content, plain, -⟩ := plain_of_mem_names listed
  intro c last
  rw [List.getLast?_append_of_ne_nil _ content] at last
  exact (plain c (List.mem_of_getLast? last)).1

namespace Asks

/-- What stands behind the mark and the blanks there does not start with a blank. -/
theorem opening (asks : Asks text lead gap fragment trail) :
    ∀ c ∈ (fragment ++ trail).head?, isBlank c = false := by
  cases fragment with
  | nil => simp [asks.begun rfl]
  | cons first letters =>
      rintro _ ⟨⟩
      exact asks.solid first List.mem_cons_self

/-- Without the blanks before it, the text starts with the mark. -/
theorem trimLeft_eq (asks : Asks text lead gap fragment trail) :
    trimLeft text.toList = Command.mark.toList ++ (gap ++ (fragment ++ trail)) := by
  rw [asks.cut]
  refine trimLeft_blanks_append asks.leading ?_
  rintro _ ⟨⟩
  decide

/-- Where a text asks for a command, the names that begin with the fragment are proposed. -/
theorem proposals_eq (asks : Asks text lead gap fragment trail) :
    proposals listing words text = commands fragment := by
  have after : trimLeft ((trimLeft text.toList).drop Command.mark.length) = fragment ++ trail := by
    rw [asks.trimLeft_eq, ← String.length_toList, List.drop_left]
    exact trimLeft_blanks_append asks.between asks.opening
  rw [proposals, if_pos (by rw [asks.trimLeft_eq]; simp), after, afterMark]
  cases fragment with
  | nil =>
      rw [asks.begun rfl]
      rfl
  | cons first letters =>
      have one : Text.words (first :: letters ++ trail) = [first :: letters] := by
        rw [words_append_of_blanks asks.trailing,
          words_of_solid (List.cons_ne_nil first letters) asks.solid]
      have last : ((first :: letters ++ trail).getLast? == some ' ') = false := by
        rw [beq_eq_false_iff_ne]
        rcases List.eq_nil_or_concat trail with rfl | ⟨blanks, c, rfl⟩
        · rw [List.append_nil]
          intro space
          exact absurd (asks.solid ' ' (List.mem_of_getLast? space)) (by decide)
        · rw [List.getLast?_append_of_ne_nil _ (by simp)]
          exact asks.unparted
      simp only [one, last]
      rfl

/-- What is kept of the fragment and the blanks behind it when a name is accepted. -/
theorem toList_accept (asks : Asks text lead gap fragment trail) {proposal : Proposal}
    (replaces : proposal.replaces = fragment.length) :
    (proposal.accept text).toList = lead ++ (Command.mark.toList ++
      (gap ++ ((fragment ++ trail).take trail.length ++ proposal.text.toList))) := by
  have kept : text.toList.length - proposal.replaces =
      lead.length + (Command.mark.toList.length + (gap.length + trail.length)) := by
    rw [replaces, asks.cut]
    simp only [List.length_append]
    omega
  rw [Proposal.accept, String.toList_ofList, kept, asks.cut, List.take_length_add_append,
    List.take_length_add_append, List.take_length_add_append]
  simp only [List.append_assoc]

/-- If there are blanks behind the fragment, what is kept of both starts with the fragment. -/
theorem exists_kept (asks : Asks text lead gap fragment trail) (parted : trail ≠ []) :
    ∃ first ∈ fragment, ∃ rest, (fragment ++ trail).take trail.length = first :: rest := by
  obtain ⟨first, letters, rfl⟩ := List.exists_cons_of_ne_nil (mt asks.begun parted)
  obtain ⟨c, blanks, rfl⟩ := List.exists_cons_of_ne_nil parted
  exact ⟨first, List.mem_cons_self, _, rfl⟩

/-- What stands behind the mark and the blanks there when a name was accepted does not start with a
blank either. -/
theorem opening_accept (asks : Asks text lead gap fragment trail) {name : String}
    (listed : name ∈ Command.names) :
    ∀ c ∈ ((fragment ++ trail).take trail.length ++ name.toList).head?, isBlank c = false := by
  intro c opens
  by_cases close : trail = []
  · obtain ⟨-, plain, -⟩ := plain_of_mem_names listed
    rw [close, List.length_nil, List.take_zero, List.nil_append] at opens
    exact (plain c (List.mem_of_head? opens)).1
  · obtain ⟨first, letter, rest, kept⟩ := asks.exists_kept close
    rw [kept] at opens
    cases opens
    exact asks.solid c letter

/-- The words of a line that a name was accepted for are those behind its mark. -/
theorem words_accept (asks : Asks text lead gap fragment trail) {proposal : Proposal}
    (proposed : proposal ∈ commands fragment) :
    Command.marks (proposal.accept text) = true ∧
      Command.words (proposal.accept text) =
        ShellWords.split ((fragment ++ trail).take trail.length ++ proposal.text.toList) := by
  obtain ⟨listed, -, replaces⟩ := mem_commands.mp proposed
  have closing := closing_of_mem_names listed
  have opening := asks.opening_accept listed
  have accepted := asks.toList_accept replaces
  generalize (fragment ++ trail).take trail.length = kept at accepted opening ⊢
  have trimmed : trim (proposal.accept text).toList =
      Command.mark.toList ++ (gap ++ (kept ++ proposal.text.toList)) := by
    rw [accepted]
    refine trim_blanks_append asks.leading ?_ ?_
    · rintro _ ⟨⟩
      decide
    · have last := closing (Command.mark.toList ++ (gap ++ kept))
      simpa only [List.append_assoc] using last
  refine ⟨?_, ?_⟩
  · rw [Command.marks, trimmed]
    simp
  · rw [Command.words, trimmed, ← String.length_toList, List.drop_left,
      trim_blanks_append asks.between opening (closing kept)]

/-- The line that a name is accepted for asks for that command if nothing stands between the
fragment and the cursor, and only then. -/
theorem words_accept_eq_iff (asks : Asks text lead gap fragment trail) {proposal : Proposal}
    (proposed : proposal ∈ commands fragment) :
    Command.words (proposal.accept text) = .ok [proposal.text] ↔ trail = [] := by
  obtain ⟨listed, begins, -⟩ := mem_commands.mp proposed
  obtain ⟨-, plain, word⟩ := plain_of_mem_names listed
  rw [(asks.words_accept proposed).2]
  constructor
  · intro same
    by_contra parted
    obtain ⟨first, letter, rest, kept⟩ := asks.exists_kept parted
    refine split_append_ne listed (fun c inside => ?_) (by rw [kept]; exact List.mem_cons_self)
      (asks.solid first letter) same
    rcases List.mem_append.mp (List.mem_of_mem_take inside) with letter | blank
    · exact (plain c (begins.subset letter)).2
    · exact ShellWords.isUnquoted_of_isBlank (asks.trailing c blank)
  · rintro rfl
    exact word

end Asks

/-- A command line asks for a command, or at most paths are proposed. -/
theorem exists_asks (marked : Command.mark.toList <+: trimLeft text.toList) :
    (∃ lead gap fragment trail, Asks text lead gap fragment trail) ∨
      proposals listing words text = [] ∨
        ∃ path, proposals listing words text = paths listing path := by
  obtain ⟨rest, stripped⟩ := marked
  have leading : ∀ c ∈ text.toList.takeWhile isBlank, isBlank c = true :=
    fun _ member => List.mem_takeWhile_imp member
  have between : ∀ c ∈ rest.takeWhile isBlank, isBlank c = true :=
    fun _ member => List.mem_takeWhile_imp member
  have cut {fragment trail : List Char} (found : trimLeft rest = fragment ++ trail) :
      text.toList = text.toList.takeWhile isBlank ++
        (Command.mark.toList ++ (rest.takeWhile isBlank ++ (fragment ++ trail))) := by
    rw [← found, trimLeft, List.takeWhile_append_dropWhile, stripped, trimLeft,
      List.takeWhile_append_dropWhile]
  have file {word : List Char} : afterMark.fileArgument listing (trimLeft rest) word = [] ∨
      ∃ path, afterMark.fileArgument listing (trimLeft rest) word = paths listing path := by
    unfold afterMark.fileArgument
    split
    · exact Or.inr ⟨_, rfl⟩
    · exact Or.inl rfl
  rw [proposals, if_pos (by rw [← stripped]; simp), ← stripped, ← String.length_toList,
    List.drop_left, afterMark]
  split
  next none =>
    have empty : trimLeft rest = [] :=
      eq_nil_of_trimLeft (List.append_nil _).symm (wordsFrom_eq_nil none).2
    exact Or.inl ⟨_, _, [], [], cut empty, leading, between, by simp, by simp, by simp, by simp⟩
  next fragment one =>
    obtain ⟨before, trail, stands, nothing, trailing⟩ := @exists_stands _ _ [] [] one
    obtain rfl : before = [] := eq_nil_of_trimLeft stands.cut (wordsFrom_eq_nil nothing).2
    split
    next => exact Or.inr file
    next unparted =>
      refine Or.inl ⟨_, _, fragment, trail, cut stands.cut, leading, between, stands.solid,
        (wordsFrom_eq_nil trailing).2, fun empty => absurd empty stands.content, ?_⟩
      intro space
      rw [stands.cut, List.nil_append, List.getLast?_append, space] at unparted
      exact unparted rfl
  next word _ _ => exact Or.inr file

/-- What accepting a proposal on a command line comes to. Where the text asks for a command, the
proposals are the names of commands that begin with the fragment. The line that is left when one of
them is accepted is a command line, and it asks for that command, with no arguments, if and only if
the fragment stands right before the cursor; behind blanks other than a space it does not. Where the
text does not ask for a command, there are no proposals but paths. -/
theorem accepted_name_is_command_iff (listing : Listing) (words : List String) (text : String)
    (marked : Command.mark.toList <+: trimLeft text.toList) :
    (∀ lead gap fragment trail, Asks text lead gap fragment trail →
      proposals listing words text = commands fragment ∧
      ∀ proposal ∈ proposals listing words text,
        (proposal.text ∈ Command.names ∧ fragment <+: proposal.text.toList ∧
          proposal.replaces = fragment.length) ∧
        Command.marks (proposal.accept text) = true ∧
        (Command.words (proposal.accept text) = .ok [proposal.text] ↔ trail = []) ∧
        (trail = [] → ∀ word, Command.ofLine (proposal.accept text) ≠ .unknown word)) ∧
    ((∀ lead gap fragment trail, ¬Asks text lead gap fragment trail) →
      proposals listing words text = [] ∨
        ∃ path, proposals listing words text = paths listing path) := by
  constructor
  · intro lead gap fragment trail asks
    have offered : proposals listing words text = commands fragment := asks.proposals_eq
    refine ⟨offered, ?_⟩
    rw [offered]
    intro proposal proposed
    have decides := asks.words_accept_eq_iff proposed
    refine ⟨mem_commands.mp proposed, (asks.words_accept proposed).1, decides, ?_⟩
    intro close word
    rw [Command.ofLine, decides.mpr close]
    exact ofWords_ne_unknown (mem_commands.mp proposed).1 word
  · intro none
    rcases exists_asks marked with ⟨lead, gap, fragment, trail, asks⟩ | offered
    · exact absurd asks (none lead gap fragment trail)
    · exact offered

/-- A tab stands between the fragment and the cursor: the name is proposed, but the line that it is
accepted for does not ask for it. -/
theorem accepted_name_is_command_iff_tab :
    proposals (fun _ => none) [] ":host ne\t" = commands ['n', 'e'] ∧
      ∀ proposal ∈ commands ['n', 'e'],
        Command.words (proposal.accept ":host ne\t") ≠ .ok [proposal.text] := by
  have asks : Asks ":host ne\t" [] [' '] ['n', 'e'] ['\t'] :=
    { cut := by decide
      leading := by simp
      between := List.all_eq_true.mp (by decide)
      solid := List.forall_mem_cons.mpr ⟨by decide, List.forall_mem_singleton.mpr (by decide)⟩
      trailing := List.all_eq_true.mp (by decide)
      begun := by simp
      unparted := by decide }
  obtain ⟨named, -⟩ := accepted_name_is_command_iff (fun _ => none) [] ":host ne\t"
    ⟨[' ', 'n', 'e', '\t'], by decide⟩
  obtain ⟨offered, each⟩ := named [] [' '] ['n', 'e'] ['\t'] asks
  rw [offered] at each
  refine ⟨offered, fun proposal proposed same => ?_⟩
  obtain ⟨-, -, decides, -⟩ := each proposal proposed
  exact absurd (decides.mp same) (by decide)

/-- The name that is proposed is put behind a part of the fragment, which makes a word that is no
command. -/
theorem accepted_name_is_unknown :
    proposals (fun _ => none) [] ":host ne\t" = [{ text := "new", replaces := 2 }] ∧
      Proposal.accept { text := "new", replaces := 2 } ":host ne\t" = ":host nnew" ∧
      Command.words ":host nnew" = .ok ["nnew"] ∧
      Command.ofLine ":host nnew" = .unknown "nnew" := by
  refine ⟨by decide, by decide, by decide, ?_⟩
  rw [Command.ofLine, show Command.words ":host nnew" = .ok ["nnew"] by decide]
  rfl

end Completion

end Subleq
