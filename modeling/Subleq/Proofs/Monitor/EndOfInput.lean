import Subleq.Proofs.Machine.Environments
import Subleq.Proofs.Machine.Feeding
import Subleq.Proofs.Monitor.Evaluation

/-!
# The end of input

A run of the monitor ends when its input does. The end of input is looked for in some of the places
where the monitor waits, and in the others it is a blank, behind which it is looked for again. So it
is read once at most: the word before it is acted on as if a blank stood there, and then the machine
halts. After `bye` it is not read at all.
-/

namespace Subleq.Monitor

open Assembly
open Abstract (Fed Records Supplied)

/-! ## Sessions at the end of input -/

namespace Session

variable {words : List String} {here width : Nat}

/-- Reads the end of input: the word before it is acted on as if a blank stood behind it, unless it
opens a text, and the session halts. Inside a text and between words nothing else is done. -/
def close (words : List String) (here : Nat) (session : Session) : Session × List Int :=
  match session.reading with
  | .word letters =>
      if letters = [] ∨ Spells letters ".(" ∨ Spells letters "(" ∨ Spells letters "\\" then
        (session.haltIf true, [])
      else
        let (next, emitted) := session.act words here letters 32
        (next.haltIf true, emitted)
  | .echo => (session.haltIf true, [])
  | .comment => (session.haltIf true, [])
  | .lineComment => (session.haltIf true, [])

theorem halted_close (session : Session) : (session.close words here).1.halted = true := by
  unfold close
  split
  · split
    · exact Bool.or_true _
    · exact Bool.or_true _
  · exact Bool.or_true _
  · exact Bool.or_true _
  · exact Bool.or_true _

theorem tos_close_le {limit : Nat} (near : here ≤ limit) {session : Session}
    (low : session.tos ≤ limit) : (session.close words here).1.tos ≤ limit := by
  unfold close
  split
  · split
    · exact low
    · exact tos_act_le words here near low _ 32
  · exact low
  · exact low
  · exact low

/-- The end of input is looked for between words and after the words that open a text. -/
theorem guarded_iff (letters : List Int) :
    guarded (letters.map lowerCode) = true ↔
      letters = [] ∨ Spells letters ".(" ∨ Spells letters "(" ∨ Spells letters "\\" := by
  have opening : ∀ station ∈ stations, station.guarded = true →
      station.letters = codesOf ".(" ∨ station.letters = codesOf "(" ∨
        station.letters = codesOf "\\" := by
    decide
  constructor
  · intro looked
    rw [guarded, Bool.or_eq_true, decide_eq_true_eq, List.map_eq_nil_iff] at looked
    refine looked.imp_right fun found => ?_
    obtain ⟨station, known, isGuarded⟩ := (Option.any_eq_true _ _).mp found
    have same : station.letters = letters.map lowerCode := by simpa using List.find?_some known
    have spelled := opening station (List.mem_of_find?_eq_some known) isGuarded
    rw [same] at spelled
    exact spelled
  · rintro (rfl | spelled | spelled | spelled)
    · rfl
    · rw [spelled]
      decide
    · rw [spelled]
      decide
    · rw [spelled]
      decide

/-- The blank behind a word does not matter but to a line comment. -/
theorem act_of_blank {letters : List Int} (other : ¬Spells letters "\\") (session : Session)
    (blank another : Int) :
    session.act words here letters blank = session.act words here letters another := by
  simp only [act, if_neg other]

theorem sense_endOfInput (wide : 16 ≤ width) {session : Session}
    (active : session.halted = false) :
    session.sense words here (hear width endOfInput) = session.close words here := by
  rw [hear_endOfInput wide, sense, if_neg (by simp [active]), close]
  cases session.reading with
  | word letters =>
      dsimp only
      rw [turn_endOfInput]
      by_cases looked : guarded (letters.map lowerCode) = true
      · rw [if_pos looked, if_pos ((guarded_iff letters).mp looked)]
      · have other := (guarded_iff letters).not.mp looked
        have notLine : ¬Spells letters "\\" := by
          intro spelled
          exact other (Or.inr (Or.inr (Or.inr spelled)))
        rw [if_neg looked, if_neg other]
        dsimp only
        rw [act_of_blank notLine session (-1) 32]
  | echo => rfl
  | comment => rfl
  | lineComment => rfl

/-- Codes are read up to the halt, one part after the other. -/
theorem senseAll_append (first second : List Int) (session : Session) :
    session.senseAll words here width (first ++ second) =
      let middle := session.senseAll words here width first
      if middle.1.halted then (middle.1, middle.2.1, middle.2.2 ++ second)
      else
        let last := middle.1.senseAll words here width second
        (last.1, middle.2.1 ++ last.2.1, last.2.2) := by
  induction first generalizing session with
  | nil =>
      cases halt : session.halted with
      | true => simp [senseAll, senseAll_of_halted halt, halt]
      | false => simp [senseAll, halt]
  | cons code first ih =>
      cases halt : session.halted with
      | true => simp [senseAll_of_halted halt, halt]
      | false =>
          simp only [List.cons_append, senseAll, halt, Bool.false_eq_true, if_false, ih]
          split
          · rfl
          · simp [List.append_assoc]

/-- Only `bye` halts a session. -/
theorem bye_of_act {session : Session} (active : session.halted = false) {letters : List Int}
    {blank : Int} (halts : (session.act words here letters blank).1.halted = true) :
    Spells letters "bye" := by
  by_contra other
  have goesOn : (session.act words here letters blank).1.halted = session.halted := by
    simp only [act, if_neg other]
    repeat' split
    all_goals rfl
  rw [goesOn, active] at halts
  cases halts

/-- Only the blank behind `bye` halts a session. -/
theorem bye_of_read {session : Session} (active : session.halted = false) {code : Int}
    (halts : (session.read words here code).1.halted = true) :
    code ≤ 32 ∧ ∃ letters, session.reading = .word letters ∧ Spells letters "bye" := by
  have text : ∀ (closing : Int) (emitted : List Int),
      (if code = closing then (session.goOn (.word []), []) else (session, emitted)).1.halted =
        false := by
    intro closing emitted
    split
    · exact active
    · exact active
  rw [read, if_neg (by simp [active])] at halts
  cases reading : session.reading with
  | word letters =>
      simp only [reading] at halts
      split at halts
      next blank => exact ⟨blank, letters, rfl, bye_of_act active halts⟩
      · exact absurd (active.symm.trans halts) Bool.false_ne_true
  | echo =>
      simp only [reading, text] at halts
      cases halts
  | comment =>
      simp only [reading, text] at halts
      cases halts
  | lineComment =>
      simp only [reading, text] at halts
      cases halts

/-- A session that has halted has read `bye` with the blank behind it, and nothing more. -/
theorem exists_bye (wide : 16 ≤ width) {codes : List Int}
    (inRange : ∀ code ∈ codes, InRange width code) {session : Session}
    (active : session.halted = false)
    (halts : (session.readAll words here codes).1.halted = true) :
    ∃ read blank letters, codes = read ++ blank :: (session.senseAll words here width codes).2.2 ∧
      (session.readAll words here read).1.halted = false ∧
      (session.readAll words here read).1.reading = .word letters ∧ Spells letters "bye" ∧
      blank ≤ 32 := by
  induction codes generalizing session with
  | nil =>
      rw [readAll, active] at halts
      cases halts
  | cons code codes ih =>
      rw [senseAll, if_neg (by simp [active]),
        sense_of_inRange wide (inRange code List.mem_cons_self)]
      dsimp only
      cases stops : (session.read words here code).1.halted with
      | true =>
          obtain ⟨blank, letters, reading, spelled⟩ := bye_of_read active stops
          rw [senseAll_of_halted stops]
          exact ⟨[], code, letters, rfl, active, reading, spelled, blank⟩
      | false =>
          obtain ⟨read, blank, letters, split, still, reading, spelled, isBlank⟩ := ih
            (fun other member => inRange other (List.mem_cons_of_mem _ member)) stops halts
          exact ⟨code :: read, blank, letters, congrArg (code :: ·) split, still, reading, spelled,
            isBlank⟩

/-- Codes in range and the end of input behind them, where no `bye` is acted on before it. -/
theorem senseAll_to_end (wide : 16 ≤ width) {codes : List Int}
    (inRange : ∀ code ∈ codes, InRange width code) {session : Session}
    (active : (session.readAll words here codes).1.halted = false) :
    session.senseAll words here width (codes ++ [endOfInput]) =
      (((session.readAll words here codes).1.close words here).1,
        (session.readAll words here codes).2 ++
          ((session.readAll words here codes).1.close words here).2, []) := by
  obtain ⟨sameSession, sameEmitted⟩ := @senseAll_of_inRange words here width wide codes inRange
    session
  rw [senseAll_append]
  simp only [sameSession, sameEmitted, active, Bool.false_eq_true, if_false, senseAll,
    sense_endOfInput wide active, List.append_nil]

/-- Codes in range and the end of input behind them, where `bye` is acted on before it. -/
theorem senseAll_to_bye (wide : 16 ≤ width) {codes : List Int}
    (inRange : ∀ code ∈ codes, InRange width code) {session : Session}
    (halts : (session.readAll words here codes).1.halted = true) :
    session.senseAll words here width (codes ++ [endOfInput]) =
      ((session.readAll words here codes).1, (session.readAll words here codes).2,
        (session.senseAll words here width codes).2.2 ++ [endOfInput]) := by
  obtain ⟨sameSession, sameEmitted⟩ := @senseAll_of_inRange words here width wide codes inRange
    session
  rw [senseAll_append]
  simp only [sameSession, sameEmitted, halts, if_true]

end Session

/-! ## Runs -/

theorem records_recorder : Records recorder id where
  accepts := fun _ _ => rfl
  keeps := fun _ _ => rfl

theorem deliver_recorder (codes env : List Int) : deliver recorder codes env = env ++ codes := by
  induction codes generalizing env with
  | nil => exact (List.append_nil env).symm
  | cons code codes ih =>
      change deliver recorder codes (env ++ [code]) = _
      rw [ih, List.append_assoc]
      rfl

section Run

variable {words : List String} {here width : Nat} {image : List Int}
  {assembled : (programWith words).image (.ofListing (programWith words)) 0 = .ok image}
  {small : (image.length : Int) ≤ cellBound width} {session : Session} {machine : Machine}

/-- A run with a part of the input staged and the rest on a tape, if the session halts when it reads
all of the input and the end of input behind it. -/
theorem Mirrors.run_tape
    (mirrors : Mirrors words here width image assembled small session machine)
    (setting : Setting words here width recorder) (staged : List Int) (tape : Tape)
    (endless : tape.atEnd = none) (roomy : tape.room = none) :
    let heard := session.senseAll words here width (staged ++ tape.inputs ++ [endOfInput])
    heard.1.halted = true →
    ∃ bound, ∀ fuel, bound ≤ fuel →
      let progress := (machine.stage staged).run Tape.ports fuel tape
      progress.ending = .stopped ∧ progress.machine.halted = true ∧
        progress.machine.memory.get Slot.tos.place = wrap width heard.1.tos ∧
        progress.env.outputs.toList = tape.outputs.toList ++ heard.2.1 ∧
        Supplied (tape.reads + tape.inputs.length) progress.machine.staged progress.env
          heard.2.2 := by
  intro heard halts
  obtain ⟨unlimited, store, agrees, represents⟩ := mirrors
  have empty : machine.staged = [] := represents.staged
  obtain ⟨after, leads, agreesAfter⟩ := @leads_senseAll _ words here width recorder store
    tape.outputs.toList setting (staged ++ tape.inputs ++ [endOfInput]) session agrees
  obtain ⟨count, last, path, there⟩ := leads.reaches
    (represents.restage (staged ++ tape.inputs ++ [endOfInput]))
  rw [deliver_recorder] at path
  have fed : Fed (tape.reads + tape.inputs.length) id (machine.stage staged).view tape
      { machine.view with staged := staged ++ tape.inputs ++ [endOfInput] }
      tape.outputs.toList := by
    refine ⟨rfl, endless, roomy, rfl, Or.inl ⟨?_, rfl⟩⟩
    simp [Machine.view, Machine.stage, empty]
  obtain ⟨final, finalTape, follows, finalFed⟩ := fed.reaches records_recorder path
  have same := finalFed.same
  have stops : final.halted = true := by
    have halted : last.halted = final.halted := by rw [same]; rfl
    rw [← halted, halted_of_point there]
    exact halts
  have stack : final.cell Slot.tos.place = wrap width heard.1.tos := by
    have cells : last.cell = final.cell := by rw [same]
    rw [← cells]
    exact tos_of_point agreesAfter there
  have supplied := finalFed.input
  rw [there.staged] at supplied
  refine ⟨count, fun fuel enough => ?_⟩
  have room : (machine.stage staged).memory.room = .unlimited := unlimited
  obtain ⟨stopped, left, arrived⟩ := Machine.run_of_reaches room follows stops enough
  have queue : ((machine.stage staged).run Tape.ports fuel tape).machine.staged = final.staged :=
    congrArg Abstract.staged arrived
  refine ⟨stopped, (congrArg Abstract.halted arrived).trans stops, ?_, ?_, ?_⟩
  · exact (congrArg (fun shown : Abstract => shown.cell Slot.tos.place) arrived).trans stack
  · rw [left]
    exact finalFed.output
  · rw [left, queue]
    exact supplied

end Run

/-- An environment that can be seen as a tape. -/
structure Plays {σ : Type} (ports : Ports σ) (tape : σ → Tape) : Prop where
  sinks : SinksAgree (fun env seen => tape env = seen) ports Tape.ports
  sources : SourcesAgree (fun env seen => tape env = seen) ports Tape.ports

/-- The end of input stops the monitor, and it is read once at most. A machine with cells of at
least 16 bits that is loaded with the monitor, with any part of its input staged and the rest from
the source, which then delivers the end of input for ever, and with a sink that accepts every code:
the run to the halt returns.

If no `bye` is acted on before the end of input, all of the input and the end of input are read, the
latter once, and the session closes: the word before it is acted on, unless it opens a text.
Otherwise the run ends with the blank behind `bye`, and nothing behind that blank is read. What is
emitted and the one cell of the stack are those of the session. -/
theorem run_load_ends {σ : Type} {width : Nat} (wide : 16 ≤ width) {ports : Ports σ}
    {tape : σ → Tape} (plays : Plays ports tape) (staged : List Int) (env : σ)
    (endless : (tape env).atEnd = none) (roomy : (tape env).room = none)
    (inRange : ∀ code ∈ staged ++ (tape env).inputs, InRange width code) :
    let before := tape env
    let input := staged ++ before.inputs
    let heard := Session.readAll wordNames image.length input {}
    ∃ bound, ∀ fuel, bound ≤ fuel →
      let progress := (((Machine.ofWidth width).load image 0).2.stage staged).run ports fuel env
      let after := tape progress.env
      let tos := progress.machine.memory.get (program.address (cell "tos"))
      progress.ending = .stopped ∧ progress.machine.halted = true ∧
      (heard.1.halted = false →
        progress.machine.staged = [] ∧ after.inputs = [] ∧
        after.reads = before.reads + before.inputs.length + 1 ∧
        after.outputs.toList =
          before.outputs.toList ++ heard.2 ++ (heard.1.close wordNames image.length).2 ∧
        tos = (heard.1.close wordNames image.length).1.tos) ∧
      (heard.1.halted = true →
        after.reads + after.inputs.length = before.reads + before.inputs.length ∧
        after.outputs.toList = before.outputs.toList ++ heard.2 ∧ tos = heard.1.tos ∧
        ∃ read blank letters,
          input = read ++ blank :: (progress.machine.staged ++ after.inputs) ∧
          (Session.readAll wordNames image.length read {}).1.halted = false ∧
          (Session.readAll wordNames image.length read {}).1.reading = .word letters ∧
          Spells letters "bye" ∧ blank ≤ 32) := by
  have bound := cellBound_of_wide wide
  have length := length_image
  have small : (image.length : Int) ≤ cellBound width := by omega
  have accepts : Accepts recorder := fun _ _ => rfl
  have ran := (@mirrors_load wordNames width image assembled_image small wide).run_tape
    (setting_image wide accepts) staged (tape env) endless roomy
  generalize ((Machine.ofWidth width).load image 0).2.stage staged = machine at ran ⊢
  -- The environment is that of the tape from here on.
  have alike (fuel : Nat) := Machine.run_alike plays.sinks plays.sources fuel machine
    (rfl : tape env = tape env)
  generalize tape env = before at inRange ran alike ⊢
  have address : program.address (cell "tos") = Slot.tos.place := address_slot .tos wordNames
  have empty : ({} : Session).tos ≤ image.length := Nat.zero_le _
  have low := Session.tos_readAll_le wordNames image.length (le_refl _) (staged ++ before.inputs)
    empty
  have fits {number : Nat} (le : number ≤ image.length) : wrap width number = number :=
    wrap_of_wide wide (by omega) (by omega)
  dsimp only at ran ⊢
  rw [address]
  cases halts : (Session.readAll wordNames image.length (staged ++ before.inputs) {}).1.halted with
  | false =>
      have heard := Session.senseAll_to_end wide inRange halts
      rw [heard] at ran
      obtain ⟨bound, runs⟩ := ran (Session.halted_close _)
      refine ⟨bound, fun fuel enough => ?_⟩
      obtain ⟨stopped, halted, stack, outputs, supplied⟩ := runs fuel enough
      obtain ⟨sameMachine, sameEnv, -, sameEnding⟩ := alike fuel
      obtain ⟨unstaged, exhausted, reads⟩ := supplied.of_nil
      rw [sameMachine, sameEnv, sameEnding]
      refine ⟨stopped, halted, fun _ => ⟨unstaged, exhausted, reads, ?_, ?_⟩, Bool.noConfusion⟩
      · rw [outputs, List.append_assoc]
      · exact stack.trans (fits (Session.tos_close_le (le_refl _) low))
  | true =>
      have heard := Session.senseAll_to_bye wide inRange halts
      rw [heard] at ran
      obtain ⟨bound, runs⟩ := ran halts
      refine ⟨bound, fun fuel enough => ?_⟩
      obtain ⟨stopped, halted, stack, outputs, supplied⟩ := runs fuel enough
      obtain ⟨sameMachine, sameEnv, -, sameEnding⟩ := alike fuel
      obtain ⟨unread, reads⟩ := supplied.of_concat
      obtain ⟨read, blank, letters, split, bye⟩ := Session.exists_bye wide inRange rfl halts
      rw [unread] at split
      rw [sameMachine, sameEnv, sameEnding]
      exact ⟨stopped, halted, Bool.noConfusion, fun _ => ⟨reads, outputs, stack.trans (fits low),
        read, blank, letters, split, bye⟩⟩

theorem plays_tape : Plays Tape.ports id where
  sinks := by
    rintro code tape _ rfl
    exact ⟨rfl, rfl⟩
  sources := by
    rintro tape _ rfl
    exact ⟨rfl, rfl⟩

/-- A run whose first word is partly staged, and whose last word, which is not known, is ended by
the end of input: the source is asked once more than it has codes. -/
theorem run_load_ends_unknown :
    let tape : Tape := { inputs := codesOf "re u. nop" }
    Plays Tape.ports id ∧ tape.atEnd = none ∧ tape.room = none ∧
      (∀ code ∈ codesOf "he" ++ tape.inputs, InRange 16 code) ∧
      ∃ bound, ∀ fuel, bound ≤ fuel →
        let progress :=
          (((Machine.ofWidth 16).load image 0).2.stage (codesOf "he")).run Tape.ports fuel tape
        progress.ending = .stopped ∧ progress.machine.halted = true ∧ progress.env.reads = 10 ∧
          progress.env.outputs.toList = [32, 50, 50, 49, 52, 32, 63, 10] := by
  intro tape
  have inRange : ∀ code ∈ codesOf "he" ++ tape.inputs, InRange 16 code := by
    unfold InRange
    decide
  obtain ⟨bound, runs⟩ :=
    run_load_ends (le_refl 16) plays_tape (codesOf "he") tape rfl rfl inRange
  refine ⟨plays_tape, rfl, rfl, inRange, bound, fun fuel enough => ?_⟩
  obtain ⟨stopped, halted, ends, -⟩ := runs fuel enough
  rw [length_image] at ends
  obtain ⟨-, -, reads, outputs, -⟩ := ends (by decide)
  exact ⟨stopped, halted, reads, outputs.trans (by decide)⟩

end Subleq.Monitor
