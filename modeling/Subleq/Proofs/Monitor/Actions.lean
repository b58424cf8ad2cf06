import Subleq.Proofs.Monitor.Digits
import Subleq.Proofs.Monitor.WordList

/-!
# Acting on words

The monitor follows a session. Where it waits is given by what the session is reading, and its cells
agree with the session: the stack, the end of the image and the bounds of the word list. Reading one
code keeps this, whatever the code is and whatever is being read, and so does reading any codes.

The session takes every code for what the monitor takes it for. A code in range is then read as
itself, so that `sense` is `read` on such codes.
-/

namespace Subleq.Monitor

open Assembly

/-! ## Sessions that read any code -/

namespace Session

/-- Halts, or goes on. -/
def haltIf (session : Session) (halts : Bool) : Session :=
  { session with halted := session.halted || halts }

@[simp] theorem haltIf_false (session : Session) : session.haltIf false = session := by
  simp [haltIf]

/-- Reads a code inside a text that goes on up to a closing code or the end of input. -/
def senseText (session : Session) (heard : Heard) (closing : Int) (emitted : List Int) :
    Session × List Int :=
  if heard.letter = closing then (session.goOn (.word []), [])
  else if heard.last then (session.haltIf true, [])
  else (session, emitted)

section Sense

variable (words : List String) (here : Nat)

/-- Reads what a code is taken for, and gives the codes that are emitted. -/
def sense (session : Session) (heard : Heard) : Session × List Int :=
  if session.halted then (session, [])
  else match session.reading with
    | .word letters =>
        match turn (letters.map lowerCode) heard with
        | .letter => (session.goOn (.word (letters ++ [heard.letter])), [])
        | .blank =>
            let (next, emitted) := session.act words here letters heard.letter
            (next.haltIf heard.last, emitted)
        | .stop => (session.haltIf true, [])
    | .echo => session.senseText heard 41 [heard.value]
    | .comment => session.senseText heard 41 []
    | .lineComment => session.senseText heard 10 []

/-- Reads codes in cells of a width, up to the halt. Gives the codes that are emitted, and those
that are not read. -/
def senseAll (width : Nat) : List Int → Session → Session × List Int × List Int
  | [], session => (session, [], [])
  | code :: codes, session =>
      if session.halted then (session, [], code :: codes)
      else
        let (next, emitted) := session.sense words here (hear width code)
        let (last, others, unread) := senseAll width codes next
        (last, emitted ++ others, unread)

variable {words here} {width : Nat}

theorem sense_of_inRange (wide : 16 ≤ width) {code : Int} (inRange : InRange width code)
    (session : Session) :
    session.sense words here (hear width code) = session.read words here code := by
  rw [hear_of_inRange wide inRange, sense, read]
  cases halt : session.halted with
  | true => rfl
  | false =>
      cases reading : session.reading with
      | word letters =>
          simp only [turn_of_inRange]
          by_cases blank : code ≤ 32
          · simp [blank]
          · simp [blank]
      | echo => simp [senseText]
      | comment => simp [senseText]
      | lineComment => simp [senseText]

theorem senseAll_of_halted {session : Session} (halt : session.halted = true) (codes : List Int) :
    session.senseAll words here width codes = (session, [], codes) := by
  cases codes with
  | nil => rfl
  | cons code codes => rw [senseAll, if_pos halt]

theorem senseAll_of_inRange (wide : 16 ≤ width) {codes : List Int}
    (inRange : ∀ code ∈ codes, InRange width code) (session : Session) :
    (session.senseAll words here width codes).1 = (session.readAll words here codes).1 ∧
      (session.senseAll words here width codes).2.1 = (session.readAll words here codes).2 := by
  induction codes generalizing session with
  | nil => exact ⟨rfl, rfl⟩
  | cons code codes ih =>
      cases halt : session.halted with
      | true =>
          rw [senseAll_of_halted halt, readAll_of_halted words here halt]
          exact ⟨rfl, rfl⟩
      | false =>
          have others := ih (fun other member => inRange other (List.mem_cons_of_mem _ member))
            (session.read words here code).1
          rw [senseAll, if_neg (by simp [halt]), readAll,
            sense_of_inRange wide (inRange code List.mem_cons_self)]
          exact ⟨others.1, congrArg ((session.read words here code).2 ++ ·) others.2⟩

/-- A session that has not halted has read all there is. -/
theorem unread_of_active (codes : List Int) {session : Session}
    (active : (session.senseAll words here width codes).1.halted = false) :
    (session.senseAll words here width codes).2.2 = [] := by
  induction codes generalizing session with
  | nil => rfl
  | cons code codes ih =>
      cases halt : session.halted with
      | true =>
          rw [senseAll_of_halted halt, halt] at active
          cases active
      | false =>
          rw [senseAll, if_neg (by simp [halt])] at active ⊢
          exact ih active

end Sense

end Session

/-- Where the monitor waits inside a line comment. -/
def lineLines (words : List String) : Listing :=
  readChar :: goTo "linecomment" :: routine words "cr1"

/-- Where the monitor waits for the next code. -/
def awaits (words : List String) : Reading → Listing
  | .word letters => standby words (letters.map lowerCode)
  | .echo => routine words "echo"
  | .comment => routine words "comment"
  | .lineComment => lineLines words

/-- The cells of the monitor agree with a session. -/
structure Agrees (words : List String) (here width : Nat) (session : Session) (store : Store) :
    Prop where
  tos : store.value .tos = wrap width session.tos
  unsigned : session.tos < 65536
  endp : store.value .endp = wrap width here
  listStart : store.value .wlb = listPlace
  listEnd : store.value .wle = (programWith words).size

/-- The point of the program where a session stands. -/
def point (words : List String) (width : Nat) (session : Session) (store : Store)
    (staged : List Int) : Execution :=
  { lines := if session.halted then none else some (awaits words session.reading),
    cells := store.cells words width, staged }

/-- What the monitor is run with: cells wide enough for its numbers, its addresses and its word
list, and a sink that accepts every code. -/
structure Setting {σ : Type} (words : List String) (here width : Nat) (ports : Ports σ) : Prop where
  wide : 16 ≤ width
  accepts : Accepts ports
  small : ((programWith words).size : Int) < cellBound width
  fits : ∀ code ∈ wordCodes words, wrap width code = code
  near : here < 65536

/-- Cells that are the same but for work cells agree with the same session. -/
theorem Agrees.frame {words : List String} {here width : Nat} {session : Session}
    {store after : Store} (agrees : Agrees words here width session store)
    (tos : after.value .tos = store.value .tos) (endp : after.value .endp = store.value .endp)
    (listStart : after.value .wlb = store.value .wlb)
    (listEnd : after.value .wle = store.value .wle) :
    Agrees words here width session after := by
  constructor
  · rw [tos, agrees.tos]
  · exact agrees.unsigned
  · rw [endp, agrees.endp]
  · rw [listStart, agrees.listStart]
  · rw [listEnd, agrees.listEnd]

theorem Agrees.goOn {words : List String} {here width : Nat} {session : Session} {store : Store}
    (agrees : Agrees words here width session store) (reading : Reading) :
    Agrees words here width (session.goOn reading) store :=
  ⟨agrees.tos, agrees.unsigned, agrees.endp, agrees.listStart, agrees.listEnd⟩

theorem Agrees.set_ch {words : List String} {here width : Nat} {session : Session} {store : Store}
    (agrees : Agrees words here width session store) (code : Int) :
    Agrees words here width session (store.set .ch code) := by
  apply agrees.frame
  · simp
  · simp
  · simp
  · simp

/-! ## Single words -/

section Act

variable {σ : Type} {words : List String} {here width : Nat} {ports : Ports σ} {code : Int}

/-- Control at a label takes the monitor from a session to the next one, after a code was read. -/
def Performs (words : List String) (here width : Nat) (ports : Ports σ) (code : Int)
    (name : String) (session next : Session) (emitted : List Int) : Prop :=
  ∀ (store : Store) (staged : List Int) (env : σ), Agrees words here width session store →
    store.value .ch = wrap width code →
    ∃ after,
      Leads words width ports (stand words width (routine words name) store staged) env
        (point words width next after staged) (deliver ports emitted env) ∧
      Agrees words here width next after

theorem point_of_active {session : Session} (active : session.halted = false) (store : Store)
    (staged : List Int) :
    point words width session store staged =
      stand words width (awaits words session.reading) store staged := by
  rw [point, active]
  rfl

theorem point_goOn {session : Session} (active : session.halted = false) (reading : Reading)
    (store : Store) (staged : List Int) :
    point words width (session.goOn reading) store staged =
      stand words width (awaits words reading) store staged :=
  @point_of_active words width (session.goOn reading) active store staged

theorem leads_done {session : Session} (halt : session.halted = true) {store : Store}
    {staged : List Int} {env : σ} :
    Leads words width ports (stand words width (routine words "done") store staged) env
      (point words width session store staged) env := by
  obtain ⟨rest, lines⟩ := @exists_routine "done" [label "done", does .halt] (by decide) words
  rw [lines, point, halt]
  exact (leads_label "done").trans leads_halt

theorem Agrees.haltIf {session : Session} {store : Store}
    (agrees : Agrees words here width session store) (halts : Bool) :
    Agrees words here width (session.haltIf halts) store :=
  ⟨agrees.tos, agrees.unsigned, agrees.endp, agrees.listStart, agrees.listEnd⟩

/-- A word that gets to the common end leaves the monitor between words, or halts it at the end of
input. -/
theorem performs_of_endword {name : String} {session next : Session} {emitted : List Int}
    (active : next.halted = false) (between : next.reading = .word [])
    (reaches : ∀ (store : Store) (staged : List Int) (env : σ),
      Agrees words here width session store →
      ∃ after,
        Leads words width ports (stand words width (routine words name) store staged) env
          (stand words width (routine words "endword") after staged)
          (deliver ports emitted env) ∧
        after.value .ch = store.value .ch ∧ Agrees words here width next after) :
    Performs words here width ports code name session (next.haltIf (hear width code).last)
      emitted := by
  intro store staged env agrees held
  obtain ⟨after, leads, same, agreesAfter⟩ := reaches store staged env agrees
  refine ⟨after, leads.trans ?_, agreesAfter.haltIf _⟩
  refine (leads_enter .endword).trans ((leads_onEnd (same.trans held) (by decide)).trans ?_)
  cases (hear width code).last with
  | true => exact leads_done (by simp [Session.haltIf])
  | false =>
      rw [Session.haltIf_false, point_of_active active, between]
      exact leads_goTo (by decide)

theorem performs_unknown (setting : Setting words here width ports) {session : Session}
    (active : session.halted = false) :
    Performs words here width ports code "unknown" session
      ((session.goOn (.word [])).haltIf (hear width code).last) [32, 63, 10] := by
  refine performs_of_endword active rfl ?_
  intro store staged env agrees
  refine ⟨store, ?_, rfl, agrees.goOn _⟩
  refine (leads_enter .unknown).trans ?_
  refine (leads_emitNumber setting.wide setting.accepts (by decide) (by decide)).trans ?_
  refine (leads_emitNumber setting.wide setting.accepts (by decide) (by decide)).trans ?_
  exact leads_emitNumber setting.wide setting.accepts (by decide) (by decide)

theorem performs_cr (setting : Setting words here width ports) {session : Session}
    (active : session.halted = false) :
    Performs words here width ports code "cr3" session
      ((session.goOn (.word [])).haltIf (hear width code).last) [10] := by
  refine performs_of_endword active rfl ?_
  intro store staged env agrees
  refine ⟨store, ?_, rfl, agrees.goOn _⟩
  refine (leads_enter .cr3).trans ?_
  refine (leads_emitNumber setting.wide setting.accepts (by decide) (by decide)).trans ?_
  exact leads_goTo (by decide)

theorem performs_here (setting : Setting words here width ports) {session : Session}
    (active : session.halted = false) :
    Performs words here width ports code "here" session
      (Session.haltIf { session.goOn (.word []) with tos := here } (hear width code).last) [] := by
  refine performs_of_endword active rfl ?_
  intro store staged env agrees
  refine ⟨store.set .tos (store.value .endp), ?_, by simp, ?_⟩
  · refine (leads_enter .here).trans ?_
    exact (leads_move .tos (.of .endp) (by decide)).trans (leads_goTo (by decide))
  · constructor
    · exact (Store.value_set_self ..).trans agrees.endp
    · exact setting.near
    · exact (Store.value_set_of_ne _ (by decide) _).trans agrees.endp
    · exact (Store.value_set_of_ne _ (by decide) _).trans agrees.listStart
    · exact (Store.value_set_of_ne _ (by decide) _).trans agrees.listEnd

theorem performs_print (setting : Setting words here width ports) {session : Session}
    (active : session.halted = false) :
    Performs words here width ports code "udot" session
      (Session.haltIf { session.goOn (.word []) with tos := session.tos % 10 }
        (hear width code).last)
      (32 :: codesOf (toString session.tos)) := by
  refine performs_of_endword active rfl ?_
  intro store staged env agrees
  obtain ⟨after, leads, left, frame⟩ := @leads_udot σ words width ports store staged env
    setting.wide setting.accepts session.tos agrees.unsigned agrees.tos
  refine ⟨after, leads, frame .ch (by decide), ?_⟩
  constructor
  · have digit : session.tos % 10 < 10 := Nat.mod_lt _ (by decide)
    rw [left]
    exact (wrap_of_wide setting.wide (by omega) (by omega)).symm
  · exact lt_of_le_of_lt (Nat.mod_le _ _) agrees.unsigned
  · rw [frame .endp (by decide), agrees.endp]
  · rw [frame .wlb (by decide), agrees.listStart]
  · rw [frame .wle (by decide), agrees.listEnd]

/-- What `words` needs is that the addresses and the codes of its list are values of cells. -/
theorem performs_wordList (wide : 16 ≤ width) (accepts : Accepts ports)
    (small : ((programWith words).size : Int) < cellBound width)
    (fits : ∀ code ∈ wordCodes words, wrap width code = code) {session : Session}
    (active : session.halted = false) :
    Performs words here width ports code "words" session
      ((session.goOn (.word [])).haltIf (hear width code).last) (wordCodes words) := by
  refine performs_of_endword active rfl ?_
  intro store staged env agrees
  obtain ⟨after, leads, frame⟩ := @leads_words σ words width ports store staged env wide accepts
    small fits agrees.listStart agrees.listEnd
  refine ⟨after, leads, frame .ch (by decide), (agrees.goOn _).frame ?_ ?_ ?_ ?_⟩
  · exact frame .tos (by decide)
  · exact frame .endp (by decide)
  · exact frame .wlb (by decide)
  · exact frame .wle (by decide)

theorem performs_words (setting : Setting words here width ports) {session : Session}
    (active : session.halted = false) :
    Performs words here width ports code "words" session
      ((session.goOn (.word [])).haltIf (hear width code).last) (wordCodes words) :=
  performs_wordList setting.wide setting.accepts setting.small setting.fits active

theorem performs_bye {session : Session} (halts : Bool) :
    Performs words here width ports code "done" session
      (Session.haltIf { session.goOn (.word []) with halted := true } halts) [] := by
  intro store staged env agrees _
  refine ⟨store, leads_done (by simp [Session.haltIf]), ?_⟩
  exact ⟨agrees.tos, agrees.unsigned, agrees.endp, agrees.listStart, agrees.listEnd⟩

theorem performs_text {session : Session} (active : session.halted = false) {name : String}
    {reading : Reading} (lines : awaits words reading = routine words name) :
    Performs words here width ports code name session (session.goOn reading) [] := by
  intro store staged env agrees _
  refine ⟨store, ?_, agrees.goOn _⟩
  rw [point_goOn active, lines]
  exact .refl _ env

theorem performs_lineComment (setting : Setting words here width ports)
    (inside : (hear width code).last = false) {session : Session}
    (active : session.halted = false) :
    Performs words here width ports code "linecomment" session
      (session.goOn (if (hear width code).letter = 10 then .word [] else .lineComment)) [] := by
  intro store staged env agrees held
  refine ⟨store, ?_, agrees.goOn _⟩
  have tested := @leads_onCode σ words width ports store staged env
    (onEnd "done" :: lineLines words) code setting.wide held 10 (by decide) (by decide) "next"
    (by decide)
  rw [point_goOn active]
  refine (leads_enter .linecomment).trans (tested.trans ?_)
  by_cases lineFeed : (hear width code).letter = 10
  · rw [if_pos lineFeed, if_pos lineFeed]
    exact .refl _ env
  · have onward := @leads_onEnd σ words width ports store staged env (lineLines words) code held
      "done" (by decide)
    rw [if_neg (by simp [inside])] at onward
    rw [if_neg lineFeed, if_neg lineFeed]
    exact onward

/-- Letters that spell no word of the monitor are answered as unknown. -/
theorem ending_of_unknown {letters : List Int} (nonempty : letters ≠ [])
    (unknown : ∀ word ∈ wordNames, letters ≠ codesOf word) : ending letters = "unknown" := by
  have acted : ∀ station ∈ stations, station.action.isSome = true →
      ∃ word ∈ wordNames, station.letters = codesOf word := by
    decide
  rw [ending, if_neg nonempty]
  cases known : stationOf? letters with
  | none => rfl
  | some station =>
      have same : station.letters = letters := by simpa using List.find?_some known
      have idle : station.action = none := by
        by_contra acts
        obtain ⟨word, member, spelled⟩ := acted station (List.mem_of_find?_eq_some known)
          (Option.isSome_iff_ne_none.mpr acts)
        exact unknown word member (same.symm.trans spelled)
      simp [idle]

/-- The blank behind a word takes the monitor to where it acts on that word. Where the end of input
is looked for, this blank is not it. -/
theorem performs_act (setting : Setting words here width ports) {session : Session}
    (active : session.halted = false) {letters : List Int}
    (reading : session.reading = .word letters)
    (heeded : (guarded (letters.map lowerCode) && (hear width code).last) = false) :
    Performs words here width ports code (ending (letters.map lowerCode)) session
      ((session.act words here letters (hear width code).letter).1.haltIf (hear width code).last)
      (session.act words here letters (hear width code).letter).2 := by
  have known : ∀ {word name : String}, Spells letters word → ending (codesOf word) = name →
      ending (letters.map lowerCode) = name := by
    intro word name spelled found
    rw [spelled, found]
  have inside : ∀ {word : String}, Spells letters word → guarded (codesOf word) = true →
      (hear width code).last = false := by
    intro word spelled looked
    rw [spelled, looked] at heeded
    exact heeded
  rw [Session.act]
  by_cases empty : letters = []
  · subst empty
    have same : session.goOn (.word []) = session := by rw [Session.goOn, ← reading]
    have stays := @performs_text σ words here width ports code session active "next" (.word []) rfl
    have notLast : (hear width code).last = false := heeded
    rw [same] at stays
    rw [if_pos rfl, notLast, Session.haltIf_false]
    exact stays
  rw [if_neg empty]
  by_cases echoes : Spells letters ".("
  · rw [if_pos echoes, known echoes (by decide : _ = "echo"), inside echoes (by decide),
      Session.haltIf_false]
    exact performs_text active rfl
  rw [if_neg echoes]
  by_cases comments : Spells letters "("
  · rw [if_pos comments, known comments (by decide : _ = "comment"), inside comments (by decide),
      Session.haltIf_false]
    exact performs_text active rfl
  rw [if_neg comments]
  by_cases lines : Spells letters "\\"
  · have notLast := inside lines (by decide)
    rw [if_pos lines, known lines (by decide : _ = "linecomment"), notLast, Session.haltIf_false]
    exact performs_lineComment setting notLast active
  rw [if_neg lines]
  by_cases cr : Spells letters "cr"
  · rw [if_pos cr, known cr (by decide : _ = "cr3")]
    exact performs_cr setting active
  rw [if_neg cr]
  by_cases bye : Spells letters "bye"
  · rw [if_pos bye, known bye (by decide : _ = "done")]
    exact performs_bye _
  rw [if_neg bye]
  by_cases asksHere : Spells letters "here"
  · rw [if_pos asksHere, known asksHere (by decide : _ = "here")]
    exact performs_here setting active
  rw [if_neg asksHere]
  by_cases prints : Spells letters "u."
  · rw [if_pos prints, known prints (by decide : _ = "udot")]
    exact performs_print setting active
  rw [if_neg prints]
  by_cases lists : Spells letters "words"
  · rw [if_pos lists, known lists (by decide : _ = "words")]
    exact performs_words setting active
  rw [if_neg lists]
  have unknown : ∀ word ∈ wordNames, letters.map lowerCode ≠ codesOf word := by
    intro word member
    simp only [wordNames, List.mem_cons, List.not_mem_nil, or_false] at member
    rcases member with rfl | rfl | rfl | rfl | rfl | rfl | rfl | rfl <;> assumption
  rw [ending_of_unknown (by simpa using empty) unknown]
  exact performs_unknown setting active

end Act

/-! ## Reading codes -/

section Read

variable {σ : Type} {words : List String} {here width : Nat} {ports : Ports σ} {store : Store}
  {staged : List Int} {env : σ} {code : Int}

/-- A text goes on up to a closing code or the end of input. -/
theorem leads_text (wide : 16 ≤ width) {session : Session} (active : session.halted = false)
    (agrees : Agrees words here width session store) {closing : Int} (lower : 0 ≤ closing)
    (upper : closing < 256) {rest : Listing} {emitted : List Int}
    (reads : Leads words width ports
      (stand words width (awaits words session.reading) store (code :: staged)) env
      (stand words width (onCode closing "next" :: onEnd "done" :: rest)
        (store.set .ch (wrap width code)) staged) env)
    (goesOn : Leads words width ports
      (stand words width rest (store.set .ch (wrap width code)) staged) env
      (stand words width (awaits words session.reading) (store.set .ch (wrap width code)) staged)
      (deliver ports emitted env)) :
    ∃ after,
      Leads words width ports (point words width session store (code :: staged)) env
        (point words width (session.senseText (hear width code) closing emitted).1 after staged)
        (deliver ports (session.senseText (hear width code) closing emitted).2 env) ∧
      Agrees words here width (session.senseText (hear width code) closing emitted).1 after := by
  have held : (store.set .ch (wrap width code)).value .ch = wrap width code :=
    Store.value_set_self ..
  have kept := agrees.set_ch (wrap width code)
  refine ⟨store.set .ch (wrap width code), ?_⟩
  rw [Session.senseText, point_of_active active]
  have tested := reads.trans (leads_onCode wide held lower upper (by decide))
  by_cases closed : (hear width code).letter = closing
  · rw [if_pos closed] at tested ⊢
    rw [point_goOn active]
    exact ⟨tested, kept.goOn _⟩
  · rw [if_neg closed] at tested ⊢
    replace tested := tested.trans (leads_onEnd held (by decide))
    cases last : (hear width code).last with
    | true =>
        rw [last] at tested
        exact ⟨tested.trans (leads_done (by simp [Session.haltIf])), kept.haltIf true⟩
    | false =>
        rw [last] at tested
        refine ⟨?_, kept⟩
        change Leads _ _ _ _ _ (point words width session _ staged) (deliver ports emitted env)
        rw [point_of_active active]
        exact tested.trans goesOn

/-- Reading a code takes the monitor along with the session. -/
theorem leads_session (setting : Setting words here width ports) {session : Session}
    (active : session.halted = false) (agrees : Agrees words here width session store) :
    ∃ after,
      Leads words width ports (point words width session store (code :: staged)) env
        (point words width (session.sense words here (hear width code)).1 after staged)
        (deliver ports (session.sense words here (hear width code)).2 env) ∧
      Agrees words here width (session.sense words here (hear width code)).1 after := by
  rw [Session.sense, if_neg (by simp [active])]
  cases reading : session.reading with
  | word letters =>
      have kept := agrees.set_ch (wrap width code)
      have turned := @leads_turn σ words width ports store staged env code setting.wide
        (letters.map lowerCode)
      dsimp only
      rw [point_of_active active, reading, awaits]
      cases turns : turn (letters.map lowerCode) (hear width code) with
      | letter =>
          rw [turns] at turned
          refine ⟨store.set .ch (wrap width code), ?_, kept.goOn _⟩
          dsimp only
          rw [point_goOn active, awaits, List.map_append, List.map_singleton]
          exact turned
      | blank =>
          rw [turns] at turned
          obtain ⟨after, acted, agreesAfter⟩ := performs_act setting active reading
            (heeded_of_turn turns) (store.set .ch (wrap width code)) staged env kept
            (Store.value_set_self ..)
          exact ⟨after, turned.trans acted, agreesAfter⟩
      | stop =>
          rw [turns] at turned
          exact ⟨store.set .ch (wrap width code),
            turned.trans (leads_done (by simp [Session.haltIf])), kept.haltIf true⟩
  | echo =>
      have emitted := @leads_emit σ words width ports (store.set .ch (wrap width code)) staged env
        (goTo "echo" :: routine words "paren") setting.accepts (.of .ch)
      rw [Source.value, Store.value_set_self] at emitted
      apply leads_text setting.wide active agrees (by decide) (by decide)
      · rw [reading]
        exact (leads_enter .echo).trans (leads_readChar code)
      · rw [reading]
        exact emitted.trans (leads_goTo (by decide))
  | comment =>
      apply leads_text setting.wide active agrees (by decide) (by decide)
      · rw [reading]
        exact (leads_enter .comment).trans (leads_readChar code)
      · rw [reading]
        exact leads_goTo (by decide)
  | lineComment =>
      apply leads_text setting.wide active agrees (by decide) (by decide)
      · rw [reading]
        refine (leads_readChar code).trans ((leads_goTo (by decide)).trans ?_)
        exact leads_enter .linecomment
      · rw [reading]
        exact .refl _ _

/-- Reading codes takes the monitor along with the session, up to the end of the codes or the
halt. -/
theorem leads_senseAll (setting : Setting words here width ports) (codes : List Int)
    {session : Session} (agrees : Agrees words here width session store) :
    ∃ after,
      Leads words width ports (point words width session store codes) env
        (point words width (session.senseAll words here width codes).1 after
          (session.senseAll words here width codes).2.2)
        (deliver ports (session.senseAll words here width codes).2.1 env) ∧
      Agrees words here width (session.senseAll words here width codes).1 after := by
  induction codes generalizing session store env with
  | nil => exact ⟨store, .refl _ env, agrees⟩
  | cons code codes ih =>
      rw [Session.senseAll]
      cases halt : session.halted with
      | true => exact ⟨store, .refl _ env, agrees⟩
      | false =>
          obtain ⟨middle, reads, agreesMiddle⟩ := @leads_session σ words here width ports store
            codes env code setting session halt agrees
          obtain ⟨after, others, agreesAfter⟩ := @ih middle
            (deliver ports (session.sense words here (hear width code)).2 env) _ agreesMiddle
          rw [← deliver_append] at others
          exact ⟨after, reads.trans others, agreesAfter⟩

end Read

end Subleq.Monitor
