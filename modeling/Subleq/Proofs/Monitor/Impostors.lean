import Mathlib.Data.List.Infix
import Subleq.Proofs.Monitor.EndOfInput

/-!
# Codes that pass for the end of input

The monitor is to go on as long as there is input and no `bye` is read. It tells the end of input
from other codes by a comparison of cells, and cells are narrow: a code may be wrapped to the end of
input, or its difference from it may overflow, and codes that are no letters may pass for those of
`bye`. This module says at which code a session halts, for every code and for everything that may
have been read before, and that codes in range never halt a session that is not told `bye`.
-/

namespace Subleq.Monitor

open Assembly

/-! ## Codes that look like the end of input -/

section Heard

variable {width : Nat} {code : Int}

/-- A code that is wrapped to the end of input is taken for it. -/
theorem hear_of_wrapped (wide : 16 ≤ width) (value : wrap width code = -1) :
    hear width code = hear width endOfInput := by
  have ended : wrap width endOfInput = -1 := wrap_of_wide wide (by decide) (by decide)
  simp only [hear, value, ended]

/-- The greatest cell looks like the end of input, but not like a blank. -/
theorem hear_of_greatest (wide : 16 ≤ width) (value : wrap width code = cellBound width - 1) :
    hear width code =
      { value := cellBound width - 1, letter := cellBound width - 1, blank := false,
        last := true } := by
  have bound := cellBound_of_wide wide
  have difference : wrap width (cellBound width - 1 - 32) = cellBound width - 33 := by
    rw [wrap_of_fitsCell (by omega) ⟨by omega, by omega⟩]
    omega
  -- The difference from the end of input is one above the greatest cell.
  have overflows : wrap width (cellBound width - 1 - -1) = -cellBound width := by
    have shifted := wrap_add_modulus (by omega : 0 < width) (-cellBound width)
    rw [show -cellBound width + 2 * cellBound width = cellBound width - 1 - -1 by omega] at shifted
    rw [shifted]
    exact wrap_of_fitsCell (by omega) ⟨by omega, by omega⟩
  have looks : LooksEqual width (cellBound width - 1) (-1) := Or.inr overflows
  simp only [hear, value, difference, decide_eq_true looks]
  rw [if_neg (by omega), decide_eq_false (by omega)]

theorem last_hear_of_other (wide : 16 ≤ width) (unwrapped : wrap width code ≠ -1)
    (other : wrap width code ≠ cellBound width - 1) : (hear width code).last = false := by
  have bound := cellBound_of_wide wide
  obtain ⟨least, greatest⟩ := fitsCell_wrap (by omega : 0 < width) code
  refine decide_eq_false ?_
  rw [LooksEqual, wrap_of_fitsCell (by omega) ⟨by omega, by omega⟩]
  omega

theorem blank_hear_iff : (hear width code).blank = true ↔ wrap width (code - 32) ≤ 0 := by
  simp only [hear, wrap_wrap_sub, decide_eq_true_eq]

end Heard

/-! ## Codes that halt a session -/

namespace Session

variable {words : List String} {here width : Nat}

/-- Whether the end of input is looked for before anything else: between words, behind a word that
opens a text, and inside a text. -/
def Attentive (session : Session) : Prop :=
  match session.reading with
  | .word letters =>
      letters = [] ∨ Spells letters ".(" ∨ Spells letters "(" ∨ Spells letters "\\"
  | .echo => True
  | .comment => True
  | .lineComment => True

/-- The greatest cell halts a session that is attentive; to another one it is a letter. -/
theorem halted_sense_greatest (large : 256 ≤ cellBound width - 1) {session : Session}
    (active : session.halted = false) :
    (session.sense words here
      { value := cellBound width - 1, letter := cellBound width - 1, blank := false,
        last := true }).1.halted = true ↔ session.Attentive := by
  have closing (number : Int) (small : number < 256) : cellBound width - 1 ≠ number := by omega
  rw [sense, if_neg (by simp [active]), Attentive]
  cases session.reading with
  | word letters =>
      have none := lookup_followers_of_large (letters.map lowerCode) large
      dsimp only
      rw [← guarded_iff]
      cases looked : guarded (letters.map lowerCode) with
      | true => simp [turn, none, looked, haltIf]
      | false => simp [turn, none, looked, goOn, active]
  | echo => simp [senseText, closing 41, haltIf]
  | comment => simp [senseText, closing 41, haltIf]
  | lineComment => simp [senseText, closing 10, haltIf]

theorem halted_act_of_bye (session : Session) {letters : List Int} (spelled : Spells letters "bye")
    (blank : Int) : (session.act words here letters blank).1.halted = true := by
  have nonempty : letters ≠ [] := by
    rintro rfl
    exact absurd spelled (by decide)
  have other (word : String) (differs : codesOf "bye" ≠ codesOf word) : ¬Spells letters word := by
    rw [Spells, spelled]
    exact differs
  simp [act, nonempty, other ".(" (by decide), other "(" (by decide), other "\\" (by decide),
    other "cr" (by decide), spelled]

theorem lookup_followers_of_bye {letters : List Int} (spelled : Spells letters "bye")
    (letter : Int) : (followers (letters.map lowerCode)).lookup letter = none := by
  rw [spelled]
  rfl

/-- A code that does not look like the end of input is a letter or a blank. -/
theorem turn_of_unended {heard : Heard} (unended : heard.last = false) (letters : List Int) :
    turn letters heard = .letter ∨ turn letters heard = .blank ∧ heard.blank = true := by
  unfold turn
  rw [unended, Bool.and_false]
  split
  · exact Or.inl rfl
  · cases blank : heard.blank with
    | true => exact Or.inr ⟨rfl, rfl⟩
    | false => exact Or.inl rfl

/-- A code that does not look like the end of input halts a session only as the blank behind
`bye`. -/
theorem halted_sense_other {session : Session} (active : session.halted = false) {heard : Heard}
    (unended : heard.last = false) :
    (session.sense words here heard).1.halted = true ↔
      heard.blank = true ∧ ∃ letters, session.reading = .word letters ∧ Spells letters "bye" := by
  have text (closing : Int) (emitted : List Int) :
      (session.senseText heard closing emitted).1.halted = false := by
    rw [senseText, unended]
    split
    · exact active
    · exact active
  rw [sense, if_neg (by simp [active])]
  cases session.reading with
  | word letters =>
      dsimp only
      constructor
      · intro halts
        rcases turn_of_unended unended (letters.map lowerCode) with turns | ⟨turns, blank⟩
        · rw [turns] at halts
          exact absurd (active.symm.trans halts) Bool.false_ne_true
        · rw [turns, unended] at halts
          dsimp only at halts
          rw [haltIf_false] at halts
          exact ⟨blank, letters, rfl, bye_of_act active halts⟩
      · rintro ⟨blank, _, same, spelled⟩
        cases same
        have turns : turn (letters.map lowerCode) heard = .blank := by
          simp [turn, lookup_followers_of_bye spelled, unended, blank]
        rw [turns]
        simp [haltIf, halted_act_of_bye session spelled]
  | echo => simp [text]
  | comment => simp [text]
  | lineComment => simp [text]

/-- At which codes a session halts, whatever it reads: at one that is wrapped to the end of input,
at one that is wrapped to the greatest cell if it is attentive, and at one that looks like a blank
behind letters that look like `bye`. -/
theorem halted_sense_iff (wide : 16 ≤ width) {session : Session} (active : session.halted = false)
    (code : Int) :
    (session.sense words here (hear width code)).1.halted = true ↔
      wrap width code = -1 ∨
      (wrap width code = cellBound width - 1 ∧ session.Attentive) ∨
      (wrap width (code - 32) ≤ 0 ∧
        ∃ letters, session.reading = .word letters ∧ Spells letters "bye") := by
  have bound := cellBound_of_wide wide
  by_cases wrapped : wrap width code = -1
  · rw [hear_of_wrapped wide wrapped, sense_endOfInput wide active]
    simp [halted_close, wrapped]
  by_cases greatest : wrap width code = cellBound width - 1
  · have solid : ¬wrap width (code - 32) ≤ 0 := by
      rw [← blank_hear_iff, hear_of_greatest wide greatest]
      exact Bool.false_ne_true
    rw [hear_of_greatest wide greatest, halted_sense_greatest (by omega) active]
    constructor
    · intro attentive
      exact Or.inr (Or.inl ⟨greatest, attentive⟩)
    · rintro (ended | ⟨-, attentive⟩ | ⟨blank, -⟩)
      · exact absurd ended wrapped
      · exact attentive
      · exact absurd blank solid
  · rw [halted_sense_other active (last_hear_of_other wide wrapped greatest), blank_hear_iff]
    simp [wrapped, greatest]

theorem senseAll_cons {session : Session} (active : session.halted = false) (code : Int)
    (codes : List Int) :
    (session.senseAll words here width (code :: codes)).1 =
      ((session.sense words here (hear width code)).1.senseAll words here width codes).1 := by
  rw [senseAll, if_neg (by simp [active])]

/-- A session that runs in the end has run all the time. -/
theorem active_of_senseAll {session : Session} {codes : List Int}
    (active : (session.senseAll words here width codes).1.halted = false) :
    session.halted = false := by
  cases halt : session.halted with
  | false => rfl
  | true =>
      rw [senseAll_of_halted halt, halt] at active
      cases active

theorem fst_senseAll_append (first second : List Int) (session : Session) :
    (session.senseAll words here width (first ++ second)).1 =
      ((session.senseAll words here width first).1.senseAll words here width second).1 := by
  rw [senseAll_append]
  cases halt : (session.senseAll words here width first).1.halted with
  | true => simp [halt, senseAll_of_halted halt]
  | false => simp [halt]

/-- A session that has halted has halted at one of the codes it was given. -/
theorem halted_senseAll_iff (codes : List Int) {session : Session}
    (active : session.halted = false) :
    (session.senseAll words here width codes).1.halted = true ↔
      ∃ read code rest, codes = read ++ code :: rest ∧
        (session.senseAll words here width read).1.halted = false ∧
        ((session.senseAll words here width read).1.sense words here (hear width code)).1.halted =
          true := by
  induction codes generalizing session with
  | nil => simp [senseAll, active]
  | cons first codes ih =>
      rw [senseAll_cons active]
      constructor
      · intro halts
        cases stops : (session.sense words here (hear width first)).1.halted with
        | true => exact ⟨[], first, codes, rfl, active, stops⟩
        | false =>
            obtain ⟨read, code, rest, split, still, halted⟩ := (ih stops).mp halts
            refine ⟨first :: read, code, rest, congrArg (first :: ·) split, ?_, ?_⟩
            · rw [senseAll_cons active]
              exact still
            · rw [senseAll_cons active]
              exact halted
      · rintro ⟨read, code, rest, split, still, halted⟩
        cases read with
        | nil =>
            obtain ⟨rfl, rfl⟩ := List.cons.inj split
            have stops : (session.sense words here (hear width first)).1.halted = true := halted
            rw [senseAll_of_halted stops]
            exact stops
        | cons other read =>
            obtain ⟨rfl, rfl⟩ := List.cons.inj split
            rw [senseAll_cons active] at still halted
            exact (ih (active_of_senseAll still)).mpr ⟨read, code, rest, rfl, still, halted⟩

/-! ## The letters of a word -/

/-- The letters of the word a session reads are those that the last codes read are taken for. -/
def Retains (width : Nat) (read : List Int) (session : Session) : Prop :=
  ∀ letters, session.reading = .word letters →
    ∃ before word, read = before ++ word ∧ letters = word.map fun code => (hear width code).letter

theorem reading_act {session : Session} {letters after : List Int} {blank : Int}
    (reading : session.reading = .word letters)
    (next : (session.act words here letters blank).1.reading = .word after) : after = [] := by
  unfold act at next
  split at next
  next empty =>
    rw [reading, empty] at next
    exact (Reading.word.inj next).symm
  next =>
    repeat' split at next
    all_goals cases next
    all_goals rfl

/-- The letter that a code is taken for comes last; every other code leaves no letter. -/
theorem Retains.sense {read : List Int} {session : Session} (retains : Retains width read session)
    (code : Int) (active : (session.sense words here (hear width code)).1.halted = false) :
    Retains width (read ++ [code]) (session.sense words here (hear width code)).1 := by
  have running : session.halted = false := by
    cases halt : session.halted with
    | false => rfl
    | true =>
        rw [Session.sense, if_pos halt, halt] at active
        cases active
  have none {next : Session}
      (fresh : ∀ letters, next.reading = .word letters → letters = []) :
      Retains width (read ++ [code]) next := by
    intro letters reading
    exact ⟨read ++ [code], [], (List.append_nil _).symm, fresh letters reading⟩
  have text (closing : Int) (emitted : List Int)
      (inText : ∀ letters, session.reading ≠ .word letters) :
      Retains width (read ++ [code])
        (session.senseText (hear width code) closing emitted).1 := by
    apply none
    intro letters reading
    unfold senseText at reading
    split at reading
    · exact (Reading.word.inj reading).symm
    · split at reading
      · exact absurd reading (inText letters)
      · exact absurd reading (inText letters)
  rw [Session.sense, if_neg (by simp [running])] at active ⊢
  cases reads : session.reading with
  | word letters =>
      simp only [reads] at active ⊢
      cases turns : turn (letters.map lowerCode) (hear width code) with
      | letter =>
          intro after reading
          obtain ⟨before, word, rfl, rfl⟩ := retains letters reads
          refine ⟨before, word ++ [code], List.append_assoc .., ?_⟩
          rw [← Reading.word.inj reading, List.map_append]
          rfl
      | blank => exact none fun after reading => reading_act reads reading
      | stop =>
          simp [turns, haltIf] at active
  | echo => exact text 41 [(hear width code).value] (by simp [reads])
  | comment => exact text 41 [] (by simp [reads])
  | lineComment => exact text 10 [] (by simp [reads])

theorem Retains.senseAll {read : List Int} (codes : List Int) {session : Session}
    (retains : Retains width read session)
    (active : (session.senseAll words here width codes).1.halted = false) :
    Retains width (read ++ codes) (session.senseAll words here width codes).1 := by
  induction codes generalizing read session with
  | nil =>
      rw [List.append_nil]
      exact retains
  | cons code codes ih =>
      have running := active_of_senseAll active
      rw [senseAll_cons running] at active ⊢
      have others := ih (retains.sense code (active_of_senseAll active)) active
      rw [List.append_assoc] at others
      exact others

end Session

/-! ## Texts that do not name a word -/

/-- Whether the letters of a word stand in a text one behind the other, in any mix of case. -/
def Names (word text : String) : Prop := codesOf word <:+: (codesOf text).map lowerCode

instance (word text : String) : Decidable (Names word text) :=
  inferInstanceAs (Decidable (codesOf word <:+: (codesOf text).map lowerCode))

/-- The codes that evaluations of texts read, each text with a line feed behind it. -/
def inputOf (texts : List String) : List Int :=
  texts.flatMap fun text => codesOf (Machine.terminated "\n" text)

/-- A word that is read from texts stands in one of them. -/
theorem exists_names {texts : List String} {word : List Int} {name : String}
    (spelled : Spells word name) (nonempty : codesOf name ≠ []) (unbroken : 10 ∉ codesOf name)
    (stands : word <:+: inputOf texts) : ∃ text ∈ texts, Names name text := by
  have oneLine : 10 ∉ word := by
    intro member
    have lowered := List.mem_map_of_mem (f := lowerCode) member
    rw [spelled] at lowered
    exact unbroken lowered
  induction texts with
  | nil =>
      rw [List.infix_nil.mp stands] at spelled
      exact absurd spelled.symm nonempty
  | cons text texts ih =>
      obtain ⟨line, ended, inside⟩ : ∃ line,
          codesOf (Machine.terminated "\n" text) = line ++ [10] ∧ line <:+: codesOf text := by
        rw [codesOf_terminated]
        split
        next ends =>
          obtain ⟨line, split⟩ := List.getLast?_eq_some_iff.mp ends
          exact ⟨line, split, [], [10], split.symm⟩
        next => exact ⟨codesOf text, rfl, List.infix_refl _⟩
      rw [inputOf, List.flatMap_cons, ended, List.append_assoc] at stands
      rcases infix_of_separated oneLine stands with here | later
      · refine ⟨text, List.mem_cons_self, ?_⟩
        rw [Names, ← spelled]
        exact (here.trans inside).map lowerCode
      · obtain ⟨other, member, names⟩ := ih later
        exact ⟨other, List.mem_cons_of_mem text member, names⟩

/-! ## Deceptions -/

/-- How a code halts a session that has read other codes, though it is not the end of input and no
`bye` was read: it is wrapped to the end of input; it is wrapped to the greatest cell, where the end
of input is looked for; or it looks like the blank behind letters that look like `bye`, and one of
them is not what it looks like. -/
inductive Deceives (width : Nat) (read : List Int) (session : Session) (code : Int) : Prop where
  | wrapped (value : wrap width code = -1)
  | overflowing (value : wrap width code = cellBound width - 1) (attentive : session.Attentive)
  | misspelled (before word : List Int) (split : read = before ++ word)
      (reading : session.reading = .word (word.map fun code => (hear width code).letter))
      (spelled : Spells (word.map fun code => (hear width code).letter) "bye")
      (outside : ∃ letter ∈ word, ¬InRange width letter) (blank : wrap width (code - 32) ≤ 0)

section Deceptions

variable {words : List String} {here width : Nat}

theorem Deceives.exists_outside (wide : 16 ≤ width) {read : List Int} {session : Session}
    {code : Int} (deceives : Deceives width read session code) :
    ∃ other ∈ read ++ [code], ¬InRange width other := by
  have bound := cellBound_of_wide wide
  cases deceives with
  | wrapped value =>
      refine ⟨code, by simp, fun inRange => ?_⟩
      rw [wrap_of_inRange wide inRange] at value
      have nonneg := inRange.1
      omega
  | overflowing value attentive =>
      refine ⟨code, by simp, fun inRange => ?_⟩
      rw [wrap_of_inRange wide inRange] at value
      have below := inRange.2
      omega
  | misspelled before word split reading spelled outside blank =>
      obtain ⟨letter, member, outside⟩ := outside
      exact ⟨letter, by simp [split, member], outside⟩

/-- A session halts on texts without `bye` at a code that deceives it, and at no other. -/
theorem halted_senseAll_inputOf_iff (wide : 16 ≤ width) {texts : List String}
    (without : ∀ text ∈ texts, ¬Names "bye" text) :
    (Session.senseAll words here width (inputOf texts) {}).1.halted = true ↔
      ∃ read code rest, inputOf texts = read ++ code :: rest ∧
        (Session.senseAll words here width read {}).1.halted = false ∧
        Deceives width read (Session.senseAll words here width read {}).1 code := by
  rw [Session.halted_senseAll_iff (inputOf texts) rfl]
  constructor
  · rintro ⟨read, code, rest, split, active, halts⟩
    refine ⟨read, code, rest, split, active, ?_⟩
    rcases (Session.halted_sense_iff wide active code).mp halts with
      value | ⟨value, attentive⟩ | ⟨blank, letters, reading, spelled⟩
    · exact .wrapped value
    · exact .overflowing value attentive
    · have start : Session.Retains width [] {} := by
        intro letters reading
        exact ⟨[], [], rfl, (Reading.word.inj reading).symm⟩
      obtain ⟨before, word, whole, rfl⟩ := start.senseAll read active letters reading
      rw [List.nil_append] at whole
      refine .misspelled before word whole reading spelled ?_ blank
      -- Letters in range would be what they look like, and stand in one of the texts.
      by_contra inRange
      have same : (word.map fun code => (hear width code).letter) = word := by
        refine (List.map_congr_left fun code member => ?_).trans (List.map_id word)
        have inside : InRange width code := by
          by_contra outside
          exact inRange ⟨code, member, outside⟩
        rw [hear_of_inRange wide inside]
        rfl
      rw [same] at spelled
      have stands : word <:+: inputOf texts := ⟨before, code :: rest, by rw [split, whole]⟩
      obtain ⟨text, member, names⟩ := exists_names spelled (by decide) (by decide) stands
      exact without text member names
  · rintro ⟨read, code, rest, split, active, deceives⟩
    refine ⟨read, code, rest, split, active, (Session.halted_sense_iff wide active code).mpr ?_⟩
    cases deceives with
    | wrapped value => exact Or.inl value
    | overflowing value attentive => exact Or.inr (Or.inl ⟨value, attentive⟩)
    | misspelled before word whole reading spelled outside blank =>
        exact Or.inr (Or.inr ⟨blank, _, reading, spelled⟩)

end Deceptions

/-! ## Evaluations -/

section Evaluations

variable {σ : Type} {words : List String} {here width : Nat} {ports : Ports σ} {image : List Int}
  {assembled : (programWith words).image (.ofListing (programWith words)) 0 = .ok image}
  {small : (image.length : Int) ≤ cellBound width} {session : Session} {machine : Machine}

/-- Evaluations of any texts return one after the other, and after each of them the machine mirrors
the session that has read these texts. -/
theorem Mirrors.evalAll
    (mirrors : Mirrors words here width image assembled small session machine)
    (setting : Setting words here width ports) (texts : List String) (env : σ) :
    ∃ bound, ∀ fuel, bound ≤ fuel → ∀ count,
      let progress := machine.evalAll ports fuel "\n" (texts.take count) env
      progress.ending = .stopped ∧
        Mirrors words here width image assembled small
          (session.senseAll words here width (inputOf (texts.take count))).1 progress.machine := by
  induction texts generalizing session machine env with
  | nil =>
      refine ⟨0, fun fuel _ count => ?_⟩
      rw [List.take_nil]
      exact ⟨rfl, mirrors⟩
  | cons text texts ih =>
      obtain ⟨first, evaluates⟩ := mirrors.evalAny setting "\n" text env
      obtain ⟨stopped, -, next⟩ := evaluates first (le_refl first)
      obtain ⟨rest, others⟩ := ih next (machine.eval ports first "\n" text env).env
      refine ⟨max first rest, fun fuel enough count => ?_⟩
      cases count with
      | zero => exact ⟨rfl, mirrors⟩
      | succ count =>
          have same := Machine.eval_of_le ports ((le_max_left first rest).trans enough) "\n"
            text machine env (by rw [stopped]; exact Machine.Ending.noConfusion)
          obtain ⟨returned, mirrored⟩ := others fuel ((le_max_right first rest).trans enough) count
          rw [List.take_succ_cons, Machine.evalAll_cons, same, stopped]
          refine ⟨returned, ?_⟩
          rw [inputOf, List.flatMap_cons, Session.fst_senseAll_append]
          exact mirrored

end Evaluations

/-- The codes of texts are below the bound of a cell of 22 bits. -/
theorem inRange_of_wide {width : Nat} (wide : 22 ≤ width) (text : String) :
    ∀ code ∈ codesOf text, InRange width code := by
  intro code member
  obtain ⟨c, -, rfl⟩ := List.mem_map.mp member
  have bound : (2097152 : Int) ≤ cellBound width := cellBound_le_cellBound wide
  have below : c.toNat < 0xd800 ∨ 0xdfff < c.toNat ∧ c.toNat < 0x110000 := c.valid
  exact ⟨by omega, by omega⟩

/-- Where the monitor halts while input keeps arriving. A machine with cells of at least 16 bits
that is loaded with the monitor and given any texts one after the other, none of which has the
letters `bye` one behind the other, with a sink that accepts every code: every evaluation returns,
and the machine has halted if and only if a code of the texts has deceived the session that has read
the codes before it. So it has not halted if all codes are in range, which for a cell of 16 bits is
up to 32766, and never with cells of at least 22 bits. -/
theorem evalAll_load_halted_iff {σ : Type} {width : Nat} (wide : 16 ≤ width) {ports : Ports σ}
    (accepts : Accepts ports) (texts : List String) (without : ∀ text ∈ texts, ¬Names "bye" text)
    (env : σ) :
    ∃ bound, ∀ fuel, bound ≤ fuel → ∀ count,
      let machine := ((Machine.ofWidth width).load image 0).2
      let progress := machine.evalAll ports fuel "\n" (texts.take count) env
      progress.ending = .stopped ∧
      (progress.machine.halted = true ↔
        ∃ read code rest, inputOf (texts.take count) = read ++ code :: rest ∧
          (Session.senseAll wordNames image.length width read {}).1.halted = false ∧
          Deceives width read (Session.senseAll wordNames image.length width read {}).1 code) ∧
      ((∀ text ∈ texts.take count, ∀ code ∈ codesOf text, InRange width code) →
        progress.machine.halted = false) ∧
      (22 ≤ width → progress.machine.halted = false) := by
  have bound := cellBound_of_wide wide
  have length := length_image
  have small : (image.length : Int) ≤ cellBound width := by omega
  obtain ⟨enough, evaluates⟩ := (@mirrors_load wordNames width image assembled_image small
    wide).evalAll (setting_image wide accepts) texts env
  refine ⟨enough, fun fuel le count => ?_⟩
  obtain ⟨returned, mirrors⟩ := evaluates fuel le count
  have halts := @halted_senseAll_inputOf_iff wordNames image.length width wide (texts.take count)
    (fun text member => without text (List.mem_of_mem_take member))
  rw [← mirrors.halted_eq] at halts
  have unmoved (inRange : ∀ text ∈ texts.take count, ∀ code ∈ codesOf text, InRange width code) :
      (((Machine.ofWidth width).load image 0).2.evalAll ports fuel "\n" (texts.take count)
        env).machine.halted = false := by
    rw [Bool.eq_false_iff, Ne, halts]
    rintro ⟨read, code, rest, split, -, deceives⟩
    obtain ⟨other, member, outside⟩ := deceives.exists_outside wide
    have listed : other ∈ inputOf (texts.take count) := by
      rw [split, List.append_cons]
      exact List.mem_append_left rest member
    obtain ⟨text, present, written⟩ := List.mem_flatMap.mp listed
    exact outside (inRange_terminated wide (inRange text present) other written)
  exact ⟨returned, halts, unmoved, fun wider => unmoved fun text _ => inRange_of_wide wider text⟩

/-- Two lines of which only the second one has a code out of range, between words: the machine runs
after the first line and has halted after the second one. -/
theorem evalAll_load_halted_iff_overflowing :
    let texts := ["by e", "\u7fff"]
    16 ≤ 16 ∧ Accepts recorder ∧ (∀ text ∈ texts, ¬Names "bye" text) ∧
      ∃ bound, ∀ fuel, bound ≤ fuel →
        let machine := ((Machine.ofWidth 16).load image 0).2
        (machine.evalAll recorder fuel "\n" (texts.take 1) []).machine.halted = false ∧
          (machine.evalAll recorder fuel "\n" (texts.take 2) []).machine.halted = true := by
  intro texts
  have without : ∀ text ∈ texts, ¬Names "bye" text := by decide
  obtain ⟨bound, evaluates⟩ :=
    evalAll_load_halted_iff (le_refl 16) (fun _ _ => rfl : Accepts recorder) texts without []
  refine ⟨le_refl 16, fun _ _ => rfl, without, bound, fun fuel enough => ⟨?_, ?_⟩⟩
  · obtain ⟨-, -, unmoved, -⟩ := evaluates fuel enough 1
    refine unmoved ?_
    unfold InRange
    decide
  · obtain ⟨-, halts, -⟩ := evaluates fuel enough 2
    rw [length_image] at halts
    have between : (Session.senseAll wordNames 2214 16 [98, 121, 32, 101, 10] {}).1 = {} := by
      decide
    refine halts.mpr ⟨[98, 121, 32, 101, 10], 32767, [10], by decide, ?_⟩
    rw [between]
    exact ⟨rfl, .overflowing (by decide) (Or.inl rfl)⟩

/-- Whether a line without `bye` halts the monitor in cells of 16 bits. -/
def Misleads (text : String) : Prop :=
  ¬Names "bye" text ∧ ∃ bound, ∀ fuel, bound ≤ fuel →
    let machine := ((Machine.ofWidth 16).load image 0).2
    let progress := machine.evalAll recorder fuel "\n" [text] []
    progress.ending = .stopped ∧ progress.machine.halted = true

theorem misleads_of_senseAll {text : String} (unnamed : ¬Names "bye" text)
    (halts : (Session.senseAll wordNames 2214 16 (inputOf [text]) {}).1.halted = true) :
    Misleads text := by
  have small : (image.length : Int) ≤ cellBound 16 := by
    rw [length_image]
    decide
  have setting := setting_image (le_refl 16) (fun _ _ => rfl : Accepts recorder)
  obtain ⟨bound, evaluates⟩ := (@mirrors_load wordNames 16 image assembled_image small
    (le_refl 16)).evalAll setting [text] []
  refine ⟨unnamed, bound, fun fuel enough => ?_⟩
  obtain ⟨returned, mirrors⟩ := evaluates fuel enough 1
  refine ⟨returned, mirrors.halted_eq.trans ?_⟩
  rw [length_image, List.take_of_length_le (le_refl 1)]
  exact halts

/-- The monitor halts while input keeps arriving. None of three lines has `bye`: the first one has a
character whose difference from the end of input overflows, the second one a character that is
wrapped to the end of input, and the third one a character that looks like the letter `y`. -/
theorem exists_deceiving_line :
    Misleads "\u7fff" ∧ Misleads "\uffff" ∧ Misleads "b\u8079e" := by
  refine ⟨?_, ?_, ?_⟩
  · exact misleads_of_senseAll (by decide) (by decide)
  · exact misleads_of_senseAll (by decide) (by decide)
  · exact misleads_of_senseAll (by decide) (by decide)

end Subleq.Monitor
