import Subleq.Proofs.Basic
import Subleq.Proofs.Monitor.Passages
import Subleq.Proofs.Monitor.Session

/-!
# Letters and words

How the monitor reads a word. While it reads, it stands at a station: a place in its program that
waits for the next letter of a known word, or, after a letter that fits no known word, for the blank
that ends an unknown one. The stations are given by a table, with the letters read so far, and every
fact about a single station is one about the table.

A code can be any integer. The monitor compares cells by their differences, which may overflow, so a
code may be taken for a letter, for a blank or for the end of input that it is not; `hear` says what
it is taken for.
-/

namespace Subleq.Monitor

open Assembly

/-! ## Codes -/

section Codes

variable {width : Nat}

/-- Whether a code can be told from the end of input and from all letters. -/
def InRange (width : Nat) (code : Int) : Prop := 0 ≤ code ∧ code ≤ cellBound width - 2

theorem wrap_of_inRange (wide : 16 ≤ width) {code : Int} (inRange : InRange width code) :
    wrap width code = code := by
  have bound := cellBound_of_wide wide
  obtain ⟨lower, upper⟩ := inRange
  exact wrap_of_fitsCell (by omega) ⟨by omega, by omega⟩

/-- The difference of a code and a small number is a value of a cell. -/
theorem wrap_sub_of_inRange (wide : 16 ≤ width) {code number : Int}
    (inRange : InRange width code) (lower : -1 ≤ number) (upper : number < 256) :
    wrap width (code - wrap width number) = code - number := by
  have bound := cellBound_of_wide wide
  obtain ⟨codeLower, codeUpper⟩ := inRange
  rw [wrap_sub_wrap]
  exact wrap_of_fitsCell (by omega) ⟨by omega, by omega⟩

theorem looksEqual_iff_eq (wide : 16 ≤ width) {code number : Int} (inRange : InRange width code)
    (lower : -1 ≤ number) (upper : number < 256) :
    LooksEqual width code (wrap width number) ↔ code = number := by
  have bound := cellBound_of_wide wide
  have nonneg := inRange.1
  rw [LooksEqual, wrap_sub_of_inRange wide inRange lower upper]
  constructor
  · rintro (zero | least)
    · omega
    · omega
  · intro same
    exact Or.inl (by omega)

/-- What a code is taken for: the value of the cell it is read into, the letter it looks like, and
whether it looks like a blank and like the end of input. -/
structure Heard where
  value : Int
  letter : Int
  blank : Bool
  last : Bool
  deriving Repr, DecidableEq

/-- What a code is taken for in cells of a width. A cell near the least one looks like the letter at
the same distance from zero. -/
def hear (width : Nat) (code : Int) : Heard :=
  let value := wrap width code
  { value,
    letter := if value < 256 - cellBound width then value + cellBound width else value,
    blank := wrap width (value - 32) ≤ 0,
    last := LooksEqual width value (-1) }

theorem looksEqual_wrap_iff (left right : Int) :
    LooksEqual width left (wrap width right) ↔ LooksEqual width left right := by
  rw [LooksEqual, LooksEqual, wrap_sub_wrap]

/-- A cell looks equal to a small number if it is taken for that letter. -/
theorem looksEqual_iff_letter (wide : 16 ≤ width) (code : Int) {number : Int}
    (lower : 0 ≤ number) (upper : number < 256) :
    LooksEqual width (wrap width code) number ↔ (hear width code).letter = number := by
  have bound := cellBound_of_wide wide
  obtain ⟨least, greatest⟩ := fitsCell_wrap (by omega : 0 < width) code
  simp only [LooksEqual, hear]
  by_cases low : wrap width code - number < -cellBound width
  · have shifted := wrap_add_modulus (by omega : 0 < width) (wrap width code - number)
    rw [wrap_of_fitsCell (by omega) ⟨by omega, by omega⟩] at shifted
    rw [← shifted, if_pos (by omega)]
    omega
  · rw [wrap_of_fitsCell (by omega) ⟨by omega, by omega⟩]
    split <;> omega

theorem hear_of_inRange (wide : 16 ≤ width) {code : Int} (inRange : InRange width code) :
    hear width code = { value := code, letter := code, blank := code ≤ 32, last := false } := by
  have bound := cellBound_of_wide wide
  have nonneg := inRange.1
  have difference : wrap width (code - 32) = code - 32 := by
    have same := wrap_sub_of_inRange wide inRange (by decide : -1 ≤ 32) (by decide)
    rwa [wrap_sub_wrap] at same
  have inside : ¬LooksEqual width code (-1) := by
    rw [← looksEqual_wrap_iff, looksEqual_iff_eq wide inRange (by decide) (by decide)]
    omega
  have blank : wrap width (code - 32) ≤ 0 ↔ code ≤ 32 := by
    rw [difference]
    omega
  simp only [hear, wrap_of_inRange wide inRange, if_neg (by omega : ¬code < 256 - cellBound width),
    decide_eq_false inside, blank]

theorem hear_endOfInput (wide : 16 ≤ width) :
    hear width endOfInput = { value := -1, letter := -1, blank := true, last := true } := by
  have bound := cellBound_of_wide wide
  have value : wrap width endOfInput = -1 := wrap_of_wide wide (by decide) (by decide)
  have difference : wrap width (-1 - 32) = -33 := wrap_of_wide wide (by decide) (by decide)
  have same : LooksEqual width (-1) (-1) := Or.inl (wrap_of_wide wide (by decide) (by decide))
  simp only [hear, value, difference, if_neg (by omega : ¬(-1 : Int) < 256 - cellBound width),
    decide_eq_true same]
  rfl

end Codes

/-! ## Tests of the character -/

section Tests

variable {σ : Type} {words : List String} {width : Nat} {ports : Ports σ} {store : Store}
  {staged : List Int} {env : σ} {rest : Listing} {code : Int}

theorem leads_onCode (wide : 16 ≤ width) (held : store.value .ch = wrap width code) {number : Int}
    (lower : 0 ≤ number) (upper : number < 256) {target : String} (known : target ∈ targets) :
    Leads words width ports (stand words width (onCode number target :: rest) store staged) env
      (stand words width (if (hear width code).letter = number then routine words target else rest)
        store staged) env := by
  have tested := @leads_jeq σ words width ports store staged env rest (.of .ch) (.number number)
    target known
  simp only [Source.value, held] at tested
  rw [if_congr ((looksEqual_wrap_iff _ _).trans (looksEqual_iff_letter wide code lower upper)) rfl
    rfl] at tested
  exact tested

theorem leads_onBlank (held : store.value .ch = wrap width code) {target : String}
    (known : target ∈ targets) :
    Leads words width ports (stand words width (onBlank target :: rest) store staged) env
      (stand words width (if (hear width code).blank then routine words target else rest) store
        staged) env := by
  have tested := @leads_jle σ words width ports store staged env rest (.of .ch) (.number 32)
    target known
  simp only [Source.value, held, wrap_sub_wrap] at tested
  simp only [hear, decide_eq_true_eq]
  exact tested

theorem leads_onEnd (held : store.value .ch = wrap width code) {target : String}
    (known : target ∈ targets) :
    Leads words width ports (stand words width (onEnd target :: rest) store staged) env
      (stand words width (if (hear width code).last then routine words target else rest) store
        staged) env := by
  have tested := @leads_jeq σ words width ports store staged env rest (.of .ch) (.number (-1))
    target known
  simp only [Source.value, held, looksEqual_wrap_iff] at tested
  simp only [hear, decide_eq_true_eq]
  exact tested

/-- Tests of the character read against codes, one after the other. -/
def tests (table : List (Int × String)) : Listing := table.map fun entry => onCode entry.1 entry.2

/-- Whether the codes and labels of tests are those of the monitor. -/
def Plain (table : List (Int × String)) : Prop :=
  ∀ entry ∈ table, 0 ≤ entry.1 ∧ entry.1 < 256 ∧ entry.2 ∈ targets

instance (table : List (Int × String)) : Decidable (Plain table) :=
  inferInstanceAs (Decidable (∀ entry ∈ table, 0 ≤ entry.1 ∧ entry.1 < 256 ∧ entry.2 ∈ targets))

theorem leads_tests (wide : 16 ≤ width) (held : store.value .ch = wrap width code)
    {table : List (Int × String)} (plain : Plain table) :
    Leads words width ports (stand words width (tests table ++ rest) store staged) env
      (stand words width
        (((table.lookup (hear width code).letter).map (routine words)).getD rest) store staged)
      env := by
  induction table with
  | nil => exact .refl _ env
  | cons entry table ih =>
      obtain ⟨number, target⟩ := entry
      obtain ⟨lower, upper, known⟩ := plain (number, target) List.mem_cons_self
      refine (leads_onCode wide held lower upper known).trans ?_
      by_cases same : (hear width code).letter = number
      · rw [if_pos same, same, List.lookup_cons_self]
        exact .refl _ env
      · rw [if_neg same, List.lookup_cons, beq_false_of_ne same]
        exact ih fun other member => plain other (List.mem_cons_of_mem _ member)

end Tests

/-! ## Stations -/

/-- A place where the monitor waits inside a word: the letters read so far, in lower case, the tests
for the next letter, whether the end of input is looked for, and where control goes at a blank if
the letters are a word. -/
structure Station where
  letters : List Int
  label : String
  follow : List (Int × String) := []
  guarded : Bool := false
  action : Option String := none
  deriving Repr, DecidableEq

namespace Station

def block (station : Station) : Listing :=
  Monitor.label station.label :: readChar ::
    (tests station.follow ++ ((if station.guarded then [onEnd "done"] else []) ++
      (station.action.toList.map onBlank ++ [goTo "rest"])))

end Station

/-- The tests for a letter. -/
def letterTests (c : Char) (target : String) : List (Int × String) :=
  if c.isLower then [(c.toNat, target), (c.toUpper.toNat, target)] else [(c.toNat, target)]

/-- The stations of a word that is spelled out, after the letters `seen`. -/
def spelled (stem action : String) : (state : Nat) → (seen : List Int) → List Char → List Station
  | state, seen, [] =>
      [{ letters := seen, label := stem ++ toString state, action := some action }]
  | state, seen, c :: letters =>
      { letters := seen, label := stem ++ toString state,
        follow := letterTests c (stem ++ toString (state + 1)) } ::
        spelled stem action (state + 1) (seen ++ [(c.toNat : Int)]) letters

/-- The stations of the monitor. -/
def stations : List Station :=
  [{ letters := codesOf ".", label := "dot", follow := [(40, "dotparen")] },
    { letters := codesOf ".(", label := "dotparen", guarded := true, action := some "echo" },
    { letters := codesOf "(", label := "paren", guarded := true, action := some "comment" },
    { letters := codesOf "\\", label := "backslash", guarded := true,
      action := some "linecomment" }] ++
  spelled "cr" "cr3" 1 (codesOf "c") ['r'] ++
  spelled "bye" "done" 1 (codesOf "b") ['y', 'e'] ++
  spelled "here" "here" 1 (codesOf "h") ['e', 'r', 'e'] ++
  spelled "udot" "udot" 1 (codesOf "u") ['.'] ++
  spelled "words" "words" 1 (codesOf "w") ['o', 'r', 'd', 's']

/-- The tests for the first letter of a word. -/
def firstLetters : List (Int × String) :=
  [(46, "dot"), (40, "paren"), (92, "backslash")] ++ letterTests 'c' "cr1" ++
  letterTests 'b' "bye1" ++ letterTests 'h' "here1" ++ letterTests 'u' "udot1" ++
  letterTests 'w' "words1"

/-- The station after some letters in lower case. -/
def stationOf? (letters : List Int) : Option Station :=
  stations.find? fun station => station.letters = letters

/-- The tests for the letter after some letters. -/
def followers (letters : List Int) : List (Int × String) :=
  if letters = [] then firstLetters
  else match stationOf? letters with
    | some station => station.follow
    | none => []

/-- Where the monitor waits inside a word that is not known. -/
def restLines (words : List String) : Listing :=
  readChar :: goTo "rest" :: routine words "unknown"

/-- Where the monitor waits after some letters. -/
def standby (words : List String) (letters : List Int) : Listing :=
  if letters = [] then routine words "next"
  else match stationOf? letters with
    | some station => routine words station.label
    | none => restLines words

theorem routine_station {station : Station} (member : station ∈ stations) (words : List String) :
    ∃ rest, routine words station.label = station.block ++ rest := by
  have blocks : ∀ station ∈ stations, (routines.labelled? station.label).any
      (fun lines => station.block.isPrefixOf lines) = true := by
    decide +kernel
  exact exists_routine (blocks station member) words

theorem plain_follow {station : Station} (member : station ∈ stations) :
    Plain station.follow ∧ ∀ target ∈ station.action, target ∈ targets := by
  have checked : ∀ station ∈ stations,
      Plain station.follow ∧ ∀ target ∈ station.action, target ∈ targets := by
    decide
  exact checked station member

/-- A test for a letter leads to the station behind that letter. -/
theorem stationOf?_of_lookup {letters : List Int} {code : Int} {target : String}
    (found : (followers letters).lookup code = some target) :
    ∃ station, stationOf? (letters ++ [lowerCode code]) = some station ∧
      station.label = target := by
  have first : ∀ entry ∈ firstLetters, (stationOf? [lowerCode entry.1]).any
      (fun station => station.label = entry.2) = true := by
    decide
  have later : ∀ station ∈ stations, ∀ entry ∈ station.follow,
      (stationOf? (station.letters ++ [lowerCode entry.1])).any
        (fun next => next.label = entry.2) = true := by
    decide
  have member := mem_of_lookup found
  have checked : (stationOf? (letters ++ [lowerCode code])).any
      (fun station => station.label = target) = true := by
    unfold followers at member
    split at member
    next empty =>
      subst empty
      exact first _ member
    next nonempty =>
      split at member
      next station known =>
        have same : station.letters = letters := by simpa using List.find?_some known
        rw [← same]
        exact later station (List.mem_of_find?_eq_some known) _ member
      · simp at member
  obtain ⟨station, known, label⟩ := (Option.any_eq_true _ _).mp checked
  exact ⟨station, known, of_decide_eq_true label⟩

theorem eq_or_of_lowerCode {code lower : Int} (same : lowerCode code = lower) :
    code = lower ∨ (97 ≤ lower ∧ lower ≤ 122 ∧ code = lower - 32) := by
  unfold lowerCode at same
  split at same
  · exact Or.inr ⟨by omega, by omega, by omega⟩
  · exact Or.inl same

/-- There is a test for the last letter of every station, in either case. -/
theorem lookup_of_stationOf? {letters : List Int} {code : Int} {station : Station}
    (known : stationOf? (letters ++ [lowerCode code]) = some station) :
    ∃ target, (followers letters).lookup code = some target := by
  have checked : ∀ station ∈ stations, station.letters.getLast?.all (fun last =>
      ((followers station.letters.dropLast).lookup last).isSome &&
        (!(97 ≤ last && last ≤ 122) ||
          ((followers station.letters.dropLast).lookup (last - 32)).isSome)) = true := by
    decide
  have spelled : station.letters = letters ++ [lowerCode code] := by
    simpa using List.find?_some known
  have tested := checked station (List.mem_of_find?_eq_some known)
  rw [spelled, List.getLast?_concat, List.dropLast_concat] at tested
  simp only [Option.all_some, Bool.and_eq_true, Bool.or_eq_true, Bool.not_eq_true',
    decide_eq_true_eq, Bool.and_eq_false_imp, decide_eq_false_iff_not] at tested
  obtain ⟨plain, shifted⟩ := tested
  rcases eq_or_of_lowerCode (rfl : lowerCode code = lowerCode code) with same | ⟨lower, upper, same⟩
  · rw [same]
    exact Option.isSome_iff_exists.mp plain
  · rw [same]
    refine Option.isSome_iff_exists.mp (shifted.resolve_left ?_)
    intro outside
    exact outside lower upper

theorem standby_append (words : List String) (letters : List Int) (code : Int) :
    standby words (letters ++ [lowerCode code]) =
      (((followers letters).lookup code).map (routine words)).getD (restLines words) := by
  rw [standby, if_neg (by simp)]
  cases found : (followers letters).lookup code with
  | some target =>
      obtain ⟨station, known, label⟩ := stationOf?_of_lookup found
      rw [known, ← label]
      rfl
  | none =>
      cases known : stationOf? (letters ++ [lowerCode code]) with
      | none => rfl
      | some station =>
          obtain ⟨target, present⟩ := lookup_of_stationOf? known
          rw [found] at present
          cases present

/-! ## Reading a word -/

theorem routine_next (words : List String) :
    routine words "next" =
      label "next" :: readChar :: onEnd "done" :: onBlank "next" ::
        (tests firstLetters ++ routine words "rest") :=
  @routine_eq_append "next" "rest"
    (label "next" :: readChar :: onEnd "done" :: onBlank "next" :: tests firstLetters)
    (by decide +kernel) words

section Word

variable {σ : Type} {words : List String} {width : Nat} {ports : Ports σ} {store : Store}
  {staged : List Int} {env : σ} {code : Int}

/-- A character that fits no known word: the rest of the word is skipped. -/
theorem leads_rest (held : store.value .ch = wrap width code) :
    Leads words width ports (stand words width (routine words "rest") store staged) env
      (stand words width
        (if (hear width code).blank then routine words "unknown" else restLines words) store
        staged) env :=
  (leads_enter .rest).trans (leads_onBlank held (by decide))

/-- The end of a station: at a blank the letters are acted on. -/
theorem leads_ending (held : store.value .ch = wrap width code) {action : Option String}
    (known : ∀ target ∈ action, target ∈ targets) (rest : Listing) :
    Leads words width ports
      (stand words width ((action.toList.map onBlank ++ [goTo "rest"]) ++ rest) store staged) env
      (stand words width
        (if (hear width code).blank then routine words (action.getD "unknown")
          else restLines words) store staged) env := by
  cases action with
  | none => exact (leads_goTo (by decide)).trans (leads_rest held)
  | some target =>
      refine (leads_onBlank held (known target rfl)).trans ?_
      cases blank : (hear width code).blank with
      | true => exact .refl _ env
      | false =>
          have skipped := @leads_rest σ words width ports store staged env code held
          rw [blank] at skipped
          exact (leads_goTo (by decide)).trans skipped

/-- A station looks for its letters, then for the end of input if it is guarded, then for a blank,
and leaves the rest to `rest`. -/
theorem leads_station (wide : 16 ≤ width) {station : Station} (member : station ∈ stations) :
    Leads words width ports
      (stand words width (routine words station.label) store (code :: staged)) env
      (stand words width
        (((station.follow.lookup (hear width code).letter).map (routine words)).getD
          (if station.guarded && (hear width code).last then routine words "done"
            else if (hear width code).blank then routine words (station.action.getD "unknown")
            else restLines words))
        (store.set .ch (wrap width code)) staged) env := by
  obtain ⟨rest, lines⟩ := routine_station member words
  obtain ⟨plain, known⟩ := plain_follow member
  have held : (store.set .ch (wrap width code)).value .ch = wrap width code := by simp
  rw [lines]
  simp only [Station.block, List.cons_append, List.append_assoc]
  refine (leads_label station.label).trans ((leads_readChar code).trans ?_)
  refine (leads_tests wide held plain).trans ?_
  cases station.follow.lookup (hear width code).letter with
  | some target => exact .refl _ env
  | none =>
      simp only [Option.map_none, Option.getD_none]
      have ended := @leads_ending σ words width ports (store.set .ch (wrap width code)) staged env
        code held station.action known rest
      rw [List.append_assoc] at ended
      cases station.guarded with
      | false => exact ended
      | true =>
          refine (leads_onEnd held (by decide)).trans ?_
          cases (hear width code).last with
          | true => exact .refl _ env
          | false => exact ended

/-- The first character of a word, or another blank, or the end of input. -/
theorem leads_next (wide : 16 ≤ width) :
    Leads words width ports
      (stand words width (routine words "next") store (code :: staged)) env
      (stand words width
        (if (hear width code).last then routine words "done"
          else if (hear width code).blank then routine words "next"
          else ((firstLetters.lookup (hear width code).letter).map (routine words)).getD
            (restLines words))
        (store.set .ch (wrap width code)) staged) env := by
  have held : (store.set .ch (wrap width code)).value .ch = wrap width code := by simp
  have plain : Plain firstLetters := by decide
  nth_rewrite 1 [routine_next]
  refine (leads_label "next").trans ((leads_readChar code).trans ?_)
  refine (leads_onEnd held (by decide)).trans ?_
  cases (hear width code).last with
  | true => exact .refl _ env
  | false =>
      refine (leads_onBlank held (by decide)).trans ?_
      cases blank : (hear width code).blank with
      | true => exact .refl _ env
      | false =>
          refine (leads_tests wide held plain).trans ?_
          cases firstLetters.lookup (hear width code).letter with
          | some target => exact .refl _ env
          | none =>
              have skipped := @leads_rest σ words width ports (store.set .ch (wrap width code))
                staged env code held
              simp only [blank, Bool.false_eq_true, if_false] at skipped ⊢
              exact skipped

theorem leads_restLines :
    Leads words width ports (stand words width (restLines words) store (code :: staged)) env
      (stand words width
        (if (hear width code).blank then routine words "unknown" else restLines words)
        (store.set .ch (wrap width code)) staged) env :=
  (leads_readChar code).trans ((leads_goTo (by decide)).trans (leads_rest (by simp)))

/-- What a code is to the letters before it: one more letter, the blank behind them, or the end of
input that is looked for. -/
inductive Turn where
  | letter
  | blank
  | stop
  deriving Repr, DecidableEq

/-- Whether the end of input is looked for after some letters. -/
def guarded (letters : List Int) : Bool :=
  letters = [] || (stationOf? letters).any Station.guarded

/-- What a code is to the letters before it. Inside a known word its next letter is looked for
before anything else. -/
def turn (letters : List Int) (heard : Heard) : Turn :=
  if letters ≠ [] ∧ ((followers letters).lookup heard.letter).isSome = true then .letter
  else if guarded letters && heard.last then .stop
  else if heard.blank then .blank
  else .letter

/-- The letters of a word are neither blanks nor large. -/
theorem bounds_followers (letters : List Int) :
    ∀ entry ∈ followers letters, 32 < entry.1 ∧ entry.1 < 256 := by
  have first : ∀ entry ∈ firstLetters, 32 < entry.1 ∧ entry.1 < 256 := by decide
  have later : ∀ station ∈ stations, ∀ entry ∈ station.follow, 32 < entry.1 ∧ entry.1 < 256 := by
    decide
  unfold followers
  split
  · exact first
  · cases known : stationOf? letters with
    | none => simp
    | some station => exact later station (List.mem_of_find?_eq_some known)

theorem lookup_followers_of_blank (letters : List Int) {code : Int} (blank : code ≤ 32) :
    (followers letters).lookup code = none := by
  rw [List.lookup_eq_none_iff]
  intro entry listed
  have above := (bounds_followers letters entry listed).1
  exact bne_iff_ne.mpr (by omega)

theorem lookup_followers_of_large (letters : List Int) {code : Int} (large : 256 ≤ code) :
    (followers letters).lookup code = none := by
  rw [List.lookup_eq_none_iff]
  intro entry listed
  have below := (bounds_followers letters entry listed).2
  exact bne_iff_ne.mpr (by omega)

theorem turn_of_inRange (letters : List Int) (code : Int) :
    turn letters { value := code, letter := code, blank := code ≤ 32, last := false } =
      if code ≤ 32 then .blank else .letter := by
  by_cases blank : code ≤ 32
  · simp [turn, lookup_followers_of_blank letters blank, blank]
  · simp [turn, blank]

/-- The end of input is a blank where it is not looked for. -/
theorem turn_endOfInput (letters : List Int) :
    turn letters { value := -1, letter := -1, blank := true, last := true } =
      if guarded letters then .stop else .blank := by
  simp [turn, lookup_followers_of_blank letters (by decide : (-1 : Int) ≤ 32)]

/-- Where the end of input is looked for, the blank behind letters is not it. -/
theorem heeded_of_turn {letters : List Int} {heard : Heard} (turns : turn letters heard = .blank) :
    (guarded letters && heard.last) = false := by
  unfold turn at turns
  split at turns
  · cases turns
  · split at turns
    · cases turns
    next heeded => exact Bool.eq_false_iff.mpr heeded

/-- Where control goes at the blank behind letters. -/
def ending (letters : List Int) : String :=
  if letters = [] then "next"
  else ((stationOf? letters).bind Station.action).getD "unknown"

/-- Where a code takes the monitor. -/
def Turn.lines (words : List String) (letters : List Int) (code : Int) : Turn → Listing
  | letter => standby words (letters ++ [lowerCode code])
  | blank => routine words (ending letters)
  | stop => routine words "done"

/-- Between words, the end of input is looked for first, then a blank. -/
theorem turn_nil (heard : Heard) :
    turn [] heard =
      if heard.last then .stop else if heard.blank then .blank else .letter := by
  simp [turn, guarded]

/-- Inside a word that is not known, only a blank is looked for. -/
theorem turn_of_none {letters : List Int} (nonempty : letters ≠ [])
    (unknown : stationOf? letters = none) (heard : Heard) :
    turn letters heard = if heard.blank then .blank else .letter := by
  simp [turn, followers, guarded, nonempty, unknown]

/-- At a station its letters are looked for, then the end of input if it is guarded, then a blank.
-/
theorem turn_of_some {letters : List Int} (nonempty : letters ≠ []) {station : Station}
    (known : stationOf? letters = some station) (heard : Heard) :
    turn letters heard =
      if (station.follow.lookup heard.letter).isSome then .letter
      else if station.guarded && heard.last then .stop
      else if heard.blank then .blank
      else .letter := by
  have follow : followers letters = station.follow := by simp [followers, nonempty, known]
  simp only [turn, follow, guarded, known, ne_eq, nonempty, not_false_eq_true, true_and,
    decide_false, Bool.false_or, Option.any_some]

theorem leads_turn_nil (wide : 16 ≤ width) :
    Leads words width ports (stand words width (routine words "next") store (code :: staged)) env
      (stand words width ((turn [] (hear width code)).lines words [] (hear width code).letter)
        (store.set .ch (wrap width code)) staged) env := by
  have first := @leads_next σ words width ports store staged env code wide
  have grown := standby_append words [] (hear width code).letter
  rw [turn_nil]
  cases last : (hear width code).last with
  | true =>
      rw [last] at first
      exact first
  | false =>
      cases blank : (hear width code).blank with
      | true =>
          rw [last, blank] at first
          exact first
      | false =>
          rw [last, blank] at first
          simp only [Bool.false_eq_true, if_false, Turn.lines, grown]
          exact first

theorem leads_turn_of_none {letters : List Int} (nonempty : letters ≠ [])
    (unknown : stationOf? letters = none) :
    Leads words width ports (stand words width (restLines words) store (code :: staged)) env
      (stand words width
        ((turn letters (hear width code)).lines words letters (hear width code).letter)
        (store.set .ch (wrap width code)) staged) env := by
  have skipped := @leads_restLines σ words width ports store staged env code
  have nothing : followers letters = [] := by simp [followers, nonempty, unknown]
  have grown := standby_append words letters (hear width code).letter
  rw [nothing] at grown
  rw [turn_of_none nonempty unknown]
  cases blank : (hear width code).blank with
  | true =>
      rw [blank] at skipped
      simpa [Turn.lines, ending, nonempty, unknown] using skipped
  | false =>
      rw [blank] at skipped
      simpa [Turn.lines, grown] using skipped

theorem leads_turn_of_some (wide : 16 ≤ width) {letters : List Int} (nonempty : letters ≠ [])
    {station : Station} (known : stationOf? letters = some station) :
    Leads words width ports
      (stand words width (routine words station.label) store (code :: staged)) env
      (stand words width
        ((turn letters (hear width code)).lines words letters (hear width code).letter)
        (store.set .ch (wrap width code)) staged) env := by
  have there := @leads_station σ words width ports store staged env code wide station
    (List.mem_of_find?_eq_some known)
  have follow : followers letters = station.follow := by simp [followers, nonempty, known]
  have grown := standby_append words letters (hear width code).letter
  rw [follow] at grown
  rw [turn_of_some nonempty known]
  cases found : station.follow.lookup (hear width code).letter with
  | some target =>
      rw [found] at there grown
      simpa [Turn.lines, grown] using there
  | none =>
      rw [found] at there grown
      simp only [Option.map_none, Option.getD_none] at there
      simp only [Option.isSome_none, Bool.false_eq_true, if_false]
      cases ends : station.guarded && (hear width code).last with
      | true =>
          rw [ends] at there
          exact there
      | false =>
          rw [ends] at there
          cases blank : (hear width code).blank with
          | true =>
              rw [blank] at there
              simpa [Turn.lines, ending, nonempty, known] using there
          | false =>
              rw [blank] at there
              simpa [Turn.lines, grown] using there

/-- A code takes the monitor to where it waits after one more letter, to where it acts on the
letters before, or to its end. -/
theorem leads_turn (wide : 16 ≤ width) (letters : List Int) :
    Leads words width ports
      (stand words width (standby words letters) store (code :: staged)) env
      (stand words width
        ((turn letters (hear width code)).lines words letters (hear width code).letter)
        (store.set .ch (wrap width code)) staged) env := by
  by_cases empty : letters = []
  · subst empty
    exact leads_turn_nil wide
  · rw [standby, if_neg empty]
    cases known : stationOf? letters with
    | none => exact leads_turn_of_none empty known
    | some station => exact leads_turn_of_some wide empty known

end Word

end Subleq.Monitor
