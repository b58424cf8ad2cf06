import Subleq.Proofs.Machine.Runs
import Subleq.Proofs.Monitor.Actions

/-!
# Evaluations of the monitor

A machine that runs the monitor mirrors a session between evaluations: it has nothing staged and
rests where the session waits, or has halted with it. An evaluation of a text keeps this, so a
sequence of evaluations shows what the session shows, after each of them.
-/

namespace Subleq.Monitor

open Assembly
open Abstract (Reaches)

/-! ## Lines -/

theorem codesOf_terminated (text : String) :
    codesOf (Machine.terminated "\n" text) =
      if (codesOf text).getLast? = some 10 then codesOf text else codesOf text ++ [10] := by
  have lineFeed : ∀ c : Char, (c.toNat : Int) = 10 ↔ c = '\n' := by
    intro c
    rw [← Char.toNat_inj]
    change (c.toNat : Int) = (10 : Nat) ↔ c.toNat = 10
    exact Int.ofNat_inj
  have ends : (codesOf text).getLast? = some 10 ↔ ['\n'].isSuffixOf text.toList = true := by
    rw [List.isSuffixOf_iff_suffix, List.singleton_suffix_iff_getLast?_eq_some, codesOf,
      List.getLast?_map, Option.map_eq_some_iff]
    constructor
    · rintro ⟨c, last, code⟩
      rw [last, (lineFeed c).mp code]
    · intro last
      exact ⟨'\n', last, rfl⟩
  have listed : "\n".toList = ['\n'] := by decide
  have nonempty : "\n".isEmpty = false := by decide
  rw [Machine.terminated, listed, nonempty, Bool.false_or]
  by_cases ended : (codesOf text).getLast? = some 10
  · rw [if_pos ended, if_pos (ends.mp ended)]
  · rw [if_neg ended, if_neg (ends.not.mp ended)]
    simp [codesOf]

/-! ## Rest -/

/-- Wherever the monitor waits, it reads a character next. -/
theorem next?_awaits (words : List String) (reading : Reading) :
    ∃ rest, (awaits words reading).next? = some (.inp (cell "ch"), rest) := by
  cases reading with
  | word letters =>
      rw [awaits, standby]
      split
      · rw [routine_next]
        exact ⟨_, rfl⟩
      · cases known : stationOf? (letters.map lowerCode) with
        | none => exact ⟨_, rfl⟩
        | some station =>
            obtain ⟨rest, lines⟩ := routine_station (List.mem_of_find?_eq_some known) words
            exact ⟨_, (congrArg Listing.next? lines).trans rfl⟩
  | echo => exact ⟨_, (congrArg Listing.next? (Passage.echo.routine_eq words)).trans rfl⟩
  | comment => exact ⟨_, (congrArg Listing.next? (Passage.comment.routine_eq words)).trans rfl⟩
  | lineComment => exact ⟨_, rfl⟩

section Evaluate

variable {σ : Type} {words : List String} {here width : Nat} {ports : Ports σ} {image : List Int}
  {assembled : (programWith words).image (.ofListing (programWith words)) 0 = .ok image}
  {small : (image.length : Int) ≤ cellBound width}

theorem halted_point (session : Session) (store : Store) (staged : List Int) :
    (point words width session store staged).halted = session.halted := by
  cases halt : session.halted with
  | true => simp [point, halt, Execution.halted]
  | false => simp [point, halt, Execution.halted]

section Point

variable {machine : Abstract} {session : Session} {store : Store} {staged : List Int}

/-- A machine at the point of a session has halted when the session has. -/
theorem halted_of_point
    (represents : Represents (built words width image assembled small) machine
      (point words width session store staged)) : machine.halted = session.halted :=
  represents.halted_eq.trans (halted_point session store staged)

/-- The one cell of the stack at the point of a session. -/
theorem tos_of_point (agrees : Agrees words here width session store)
    (represents : Represents (built words width image assembled small) machine
      (point words width session store staged)) :
    machine.cell Slot.tos.place = wrap width session.tos := by
  have held : machine.cell Slot.tos.place = store.cells words width Slot.tos.place :=
    represents.written _ (Or.inl (isDatum_place .tos words))
  rw [held, Store.cells_place, agrees.tos]

/-- The monitor is at rest when the session has halted or has read all there is. -/
theorem idle_point
    (represents : Represents (built words width image assembled small) machine
      (point words width session store staged))
    (consumed : session.halted = false → staged = []) : machine.idle = true := by
  cases halt : session.halted with
  | true => rw [Abstract.idle, halted_of_point represents, halt, Bool.true_or]
  | false =>
      obtain rfl := consumed halt
      obtain ⟨rest, next⟩ := next?_awaits words session.reading
      rw [point_of_active halt] at represents
      obtain ⟨before, line, split, has, pc⟩ := represents.facing rfl next
      exact represents.idle_of_input (sound split has (by decide)) pc rfl

end Point

theorem inRange_terminated (wide : 16 ≤ width) {text : String}
    (inRange : ∀ code ∈ codesOf text, InRange width code) :
    ∀ code ∈ codesOf (Machine.terminated "\n" text), InRange width code := by
  intro code member
  rw [codesOf_terminated] at member
  split at member
  · exact inRange code member
  · rcases List.mem_append.mp member with read | added
    · exact inRange code read
    · have bound := cellBound_of_wide wide
      rw [List.mem_singleton.mp added]
      exact ⟨by decide, by omega⟩

/-- A machine that runs the monitor mirrors a session. -/
structure Mirrors (words : List String) (here width : Nat) (image : List Int)
    (assembled : (programWith words).image (.ofListing (programWith words)) 0 = .ok image)
    (small : (image.length : Int) ≤ cellBound width) (session : Session) (machine : Machine) :
    Prop where
  unlimited : machine.memory.room = .unlimited
  stands : ∃ store, Agrees words here width session store ∧
    Represents (built words width image assembled small) machine.view
      (point words width session store [])

namespace Mirrors

variable {session : Session} {machine : Machine}

theorem halted_eq (mirrors : Mirrors words here width image assembled small session machine) :
    machine.halted = session.halted := by
  obtain ⟨store, -, represents⟩ := mirrors.stands
  exact halted_of_point represents

theorem tos_eq (mirrors : Mirrors words here width image assembled small session machine) :
    machine.memory.get Slot.tos.place = wrap width session.tos := by
  obtain ⟨store, agrees, represents⟩ := mirrors.stands
  exact tos_of_point agrees represents

/-- An evaluation ends where its codes take the monitor, if that is the point of a session that has
halted or has read all of them. -/
theorem evalCodes_of_leads
    (mirrors : Mirrors words here width image assembled small session machine)
    (running : session.halted = false) {terminator codes : List Int} {next : Session}
    {unread : List Int} {env later : σ}
    (leads : ∀ store, Agrees words here width session store →
      ∃ after, Leads words width ports
        (point words width session store (Machine.terminatedCodes terminator codes)) env
        (point words width next after unread) later ∧ Agrees words here width next after)
    (consumed : next.halted = false → unread = []) :
    ∃ bound, ∀ fuel, bound ≤ fuel →
      let progress := machine.evalCodes ports fuel terminator codes env
      progress.ending = .stopped ∧ progress.env = later ∧
        Mirrors words here width image assembled small next progress.machine := by
  obtain ⟨store, agrees, represents⟩ := mirrors.stands
  have staged : machine.staged = [] := represents.staged
  obtain ⟨after, onward, agreesAfter⟩ := leads store agrees
  obtain ⟨count, last, path, there⟩ := onward.reaches
    (represents.restage (Machine.terminatedCodes terminator codes))
  have shown : (machine.stage (Machine.terminatedCodes terminator codes)).view =
      { machine.view with staged := Machine.terminatedCodes terminator codes } := by
    simp [Machine.view, Machine.stage, staged]
  rw [← shown] at path
  refine ⟨count, fun fuel enough => ?_⟩
  obtain ⟨stopped, delivered, room, arrived⟩ := Machine.evalCodes_of_reaches mirrors.unlimited
    (mirrors.halted_eq.trans running) path (idle_point there consumed) enough
  refine ⟨stopped, delivered, room, after, agreesAfter, ?_⟩
  rw [arrived, halted_of_point there]
  cases ended : next.halted with
  | true => exact there.restage []
  | false =>
      rw [consumed ended] at there
      exact there

/-- An evaluation of any codes ends, and the machine mirrors what the session is then. -/
theorem evalCodes (mirrors : Mirrors words here width image assembled small session machine)
    (setting : Setting words here width ports) (terminator codes : List Int) (env : σ) :
    let heard :=
      session.senseAll words here width (Machine.terminatedCodes terminator codes)
    ∃ bound, ∀ fuel, bound ≤ fuel →
      let progress := machine.evalCodes ports fuel terminator codes env
      progress.ending = .stopped ∧ progress.env = deliver ports heard.2.1 env ∧
        Mirrors words here width image assembled small heard.1 progress.machine := by
  intro heard
  cases halt : session.halted with
  | true =>
      refine ⟨0, fun fuel _ => ?_⟩
      have unheard : heard = _ := Session.senseAll_of_halted halt _
      have stays := mirrors.halted_eq.trans halt
      rw [Machine.evalCodes_of_halted ports fuel terminator codes stays, unheard]
      exact ⟨rfl, rfl, mirrors⟩
  | false =>
      apply mirrors.evalCodes_of_leads halt _ (Session.unread_of_active _)
      intro store agrees
      exact leads_senseAll setting _ agrees

theorem evalAny (mirrors : Mirrors words here width image assembled small session machine)
    (setting : Setting words here width ports) (terminator text : String) (env : σ) :
    let heard :=
      session.senseAll words here width (codesOf (Machine.terminated terminator text))
    ∃ bound, ∀ fuel, bound ≤ fuel →
      let progress := machine.eval ports fuel terminator text env
      progress.ending = .stopped ∧ progress.env = deliver ports heard.2.1 env ∧
        Mirrors words here width image assembled small heard.1 progress.machine := by
  rw [← Machine.terminatedCodes_codesOf]
  exact mirrors.evalCodes setting (codesOf terminator) (codesOf text) env

/-- An evaluation of a text in range ends, and the machine mirrors what the session is then. -/
theorem eval (mirrors : Mirrors words here width image assembled small session machine)
    (setting : Setting words here width ports) {text : String}
    (inRange : ∀ code ∈ codesOf text, InRange width code) (env : σ) :
    ∃ bound, ∀ fuel, bound ≤ fuel →
      let progress := machine.eval ports fuel "\n" text env
      progress.ending = .stopped ∧
        progress.env = deliver ports (session.evaluate words here text).2 env ∧
        Mirrors words here width image assembled small (session.evaluate words here text).1
          progress.machine := by
  obtain ⟨sameSession, sameEmitted⟩ := @Session.senseAll_of_inRange words here width setting.wide
    _ (inRange_terminated setting.wide inRange) session
  rw [Session.evaluate, ← codesOf_terminated, ← sameSession, ← sameEmitted]
  exact mirrors.evalAny setting "\n" text env

end Mirrors

/-! ## The loaded image -/

/-- The cells of the monitor at first. -/
def Store.initial (words : List String) (width : Nat) : Store :=
  { value := fun slot => (programWith words).initialCells width slot.place, pointer := 0 }

theorem cells_initial {position : Nat} (outside : position ≠ emitterPlace) :
    (Store.initial words width).cells words width position =
      (programWith words).initialCells width position := by
  rw [Store.cells, if_neg outside]
  cases found : Slot.all.find? fun slot => slot.place = position with
  | none => rfl
  | some slot =>
      have place : slot.place = position := by simpa using List.find?_some found
      rw [← place]
      rfl

theorem value_initial (slot : Slot) {value : Int}
    (resolved : (Layout.ofListing (programWith words)).resolve 0 slot.initial.term = .ok value) :
    (Store.initial words width).value slot = wrap width value := by
  change (programWith words).initialCells width slot.place = _
  rw [Listing.initialCells, datum?_place]
  simp only [resolved]

theorem getElem?_image_writable
    (assembled : (programWith words).image (.ofListing (programWith words)) 0 = .ok image)
    {position : Nat} (writable : Writable words position) :
    ∃ value, image[position]? = some value ∧
      (Store.initial words width).cells words width position = wrap width value := by
  rcases writable with isDatum | rfl
  · have outside : position ≠ emitterPlace := by
      rintro rfl
      obtain ⟨before, split, size⟩ := exists_emitter words
      rw [split, ← size] at isDatum
      exact @Listing.not_isDatum before _ _ _ rfl rfl 0 (by decide) isDatum
    obtain ⟨value, held, same⟩ := Listing.getElem?_image_datum assembled isDatum width
    exact ⟨value, held, (cells_initial outside).trans same⟩
  · refine ⟨0, getElem?_image_emitter assembled, ?_⟩
    rw [Store.cells_emitterPlace, wrap_zero]
    rfl

theorem length_image_eq
    (assembled : (programWith words).image (.ofListing (programWith words)) 0 = .ok image) :
    image.length = (programWith words).size + 3 + ((programWith words).poolFrom []).length := by
  rw [Listing.length_image assembled, Layout.ofListing]

/-- The first values of the cells agree with a session at its start. -/
theorem agrees_initial
    (assembled : (programWith words).image (.ofListing (programWith words)) 0 = .ok image)
    (wide : 16 ≤ width) (small : (image.length : Int) ≤ cellBound width) :
    Agrees words image.length width {} (Store.initial words width) := by
  have length := length_image_eq assembled
  have size := size_programWith words
  constructor
  · exact value_initial .tos rfl
  · decide
  · rw [value_initial .endp (resolve_endName words), length]
    rfl
  · rw [value_initial .wlb (Listing.address?_eq_some (address?_listStart words))]
    exact wrap_of_fitsCell (by omega) ⟨by omega, by omega⟩
  · rw [value_initial .wle (Listing.address?_eq_some (address?_listEnd words))]
    exact wrap_of_fitsCell (by omega) ⟨by omega, by omega⟩

theorem routine_start (words : List String) : routine words "next" = programWith words := by
  have closed : routines.labelled? "next" = some routines := rfl
  rw [routine, closed, Option.getD_some, programWith_eq]

theorem mirrors_load (wide : 16 ≤ width) :
    Mirrors words image.length width image assembled small {}
      ((Machine.ofWidth width).load image 0).2 := by
  have loaded := @Assembled.represents_load (built words width image assembled small)
    (Machine.ofWidth width) rfl rfl ((Store.initial words width).cells words width)
    (fun _ => getElem?_image_writable assembled)
  refine ⟨Machine.room_load rfl image 0, Store.initial words width,
    agrees_initial assembled wide small, ?_⟩
  have here : point words width {} (Store.initial words width) [] =
      { lines := some (programWith words), cells := (Store.initial words width).cells words width,
        staged := [] } := by
    rw [← routine_start]
    rfl
  rw [here]
  exact loaded

end Evaluate

/-! ## Sequences of evaluations -/

/-- What is seen after an evaluation: how it ended, what was done to the environment, whether the
machine has halted, and the one cell of the stack. -/
structure Outcome (σ : Type) where
  ending : Machine.Ending
  env : σ
  halted : Bool
  tos : Int
  deriving Repr, DecidableEq

/-- What is seen of a machine after each of some texts. -/
def outcomes {σ : Type} (ports : Ports σ) (fuel : Nat) :
    List String → Machine → σ → List (Outcome σ)
  | [], _, _ => []
  | text :: texts, machine, env =>
      let progress := machine.eval ports fuel "\n" text env
      { ending := progress.ending, env := progress.env, halted := progress.machine.halted,
        tos := progress.machine.memory.get (program.address (cell "tos")) } ::
        outcomes ports fuel texts progress.machine progress.env

/-- What is seen of a session after each of some texts. -/
def Session.outcomes {σ : Type} (words : List String) (here : Nat) (ports : Ports σ) :
    List String → Session → σ → List (Outcome σ)
  | [], _, _ => []
  | text :: texts, session, env =>
      let (next, emitted) := session.evaluate words here text
      { ending := .stopped, env := deliver ports emitted env, halted := next.halted,
        tos := next.tos } :: outcomes words here ports texts next (deliver ports emitted env)

/-- A machine that mirrors a session shows what the session shows. -/
theorem Mirrors.outcomes_eq {σ : Type} {words : List String} {here width : Nat} {ports : Ports σ}
    {image : List Int}
    {assembled : (programWith words).image (.ofListing (programWith words)) 0 = .ok image}
    {small : (image.length : Int) ≤ cellBound width} {session : Session} {machine : Machine}
    (mirrors : Mirrors words here width image assembled small session machine)
    (setting : Setting words here width ports) (near : here < 32768) (low : session.tos < 32768)
    (texts : List String) (inRange : ∀ text ∈ texts, ∀ code ∈ codesOf text, InRange width code)
    (env : σ) :
    ∃ bound, ∀ fuel, bound ≤ fuel →
      outcomes ports fuel texts machine env = session.outcomes words here ports texts env := by
  induction texts generalizing session machine env with
  | nil => exact ⟨0, fun _ _ => rfl⟩
  | cons text texts ih =>
      obtain ⟨first, evaluates⟩ := mirrors.eval setting (inRange text List.mem_cons_self) env
      obtain ⟨stopped, delivered, next⟩ := evaluates first (le_refl first)
      have nextLow : (session.evaluate words here text).1.tos < 32768 :=
        Nat.lt_succ_of_le (Session.tos_readAll_le words here (Nat.le_of_lt_succ near) _
          (Nat.le_of_lt_succ low))
      -- More steps do not change the first evaluation, so the bounds can be found one by one.
      obtain ⟨rest, others⟩ := ih next nextLow
        (fun other member => inRange other (List.mem_cons_of_mem _ member))
        (machine.eval ports first "\n" text env).env
      refine ⟨max first rest, fun fuel enough => ?_⟩
      have same := Machine.eval_of_le ports ((le_max_left first rest).trans enough) "\n" text
        machine env (by rw [stopped]; exact Machine.Ending.noConfusion)
      have cell : (machine.eval ports first "\n" text env).machine.memory.get
          (program.address (cell "tos")) = (session.evaluate words here text).1.tos := by
        have address : program.address (Monitor.cell "tos") = Slot.tos.place :=
          address_slot .tos wordNames
        rw [address, next.tos_eq]
        exact wrap_of_wide setting.wide (by omega) (by omega)
      rw [outcomes, same, others fuel ((le_max_right first rest).trans enough), stopped, cell,
        next.halted_eq, delivered]
      rfl

theorem assembled_image :
    (programWith wordNames).image (.ofListing (programWith wordNames)) 0 = .ok image := by
  obtain ⟨cells, assembled⟩ := exists_image wordNames
  have same : image = cells := by
    unfold image layout program
    rw [assembled]
  rw [same, assembled]

theorem length_image : image.length = 2214 := by
  have sizes : (programWith wordNames).size = 2175 ∧
      ((programWith wordNames).poolFrom []).length = 36 := by
    decide +kernel
  rw [length_image_eq assembled_image, sizes.1, sizes.2]

theorem setting_image {σ : Type} {width : Nat} (wide : 16 ≤ width) {ports : Ports σ}
    (accepts : Accepts ports) : Setting wordNames image.length width ports := by
  have bound := cellBound_of_wide wide
  have length := length_image
  have parts := length_image_eq assembled_image
  have plain : ∀ code ∈ wordCodes wordNames, -32768 ≤ code ∧ code < 32768 := by decide
  constructor
  · exact wide
  · exact accepts
  · omega
  · intro code member
    exact wrap_of_wide wide (plain code member).1 (plain code member).2
  · omega

/-- Evaluations of the monitor refine sessions. A machine with cells of at least 16 bits that is
loaded with the monitor and given texts one after the other, whose codes are not negative and below
the greatest value of a cell, with a sink that accepts every code: every evaluation returns, and
after each of them the codes that were emitted, whether the machine has halted and the one cell of
the stack are those of a session that reads the same texts. -/
theorem outcomes_load_eq_session {σ : Type} {width : Nat} (wide : 16 ≤ width) {ports : Ports σ}
    (accepts : Accepts ports) (texts : List String)
    (inRange : ∀ text ∈ texts, ∀ code ∈ codesOf text, InRange width code) (env : σ) :
    ∃ bound, ∀ fuel, bound ≤ fuel →
      outcomes ports fuel texts ((Machine.ofWidth width).load image 0).2 env =
        Session.outcomes wordNames image.length ports texts {} env := by
  have bound := cellBound_of_wide wide
  have length := length_image
  have small : (image.length : Int) ≤ cellBound width := by omega
  have mirrors := @mirrors_load wordNames width image assembled_image small wide
  exact mirrors.outcomes_eq (setting_image wide accepts) (by omega) (by decide) texts inRange env

/-- Ports that write down every code. -/
def recorder : Ports (List Int) :=
  { source := fun codes => (.ok endOfInput, codes),
    sink := fun code codes => (.ok (), codes ++ [code]) }

/-- A session in which a text goes over the end of a line, and what it shows. -/
theorem outcomes_load_eq_session_recorded :
    Accepts recorder ∧
      (∀ text ∈ ["here u. .( a", "b) xy", "u. Bye cr"], ∀ code ∈ codesOf text, InRange 16 code) ∧
      ∃ bound, ∀ fuel, bound ≤ fuel →
        outcomes recorder fuel ["here u. .( a", "b) xy", "u. Bye cr"]
          ((Machine.ofWidth 16).load image 0).2 [] =
        [{ ending := .stopped, env := [32, 50, 50, 49, 52, 97, 10], halted := false, tos := 4 },
          { ending := .stopped, env := [32, 50, 50, 49, 52, 97, 10, 98, 32, 63, 10],
            halted := false, tos := 4 },
          { ending := .stopped, env := [32, 50, 50, 49, 52, 97, 10, 98, 32, 63, 10, 32, 52],
            halted := true, tos := 4 }] := by
  have accepts : Accepts recorder := fun _ _ => rfl
  have inRange : ∀ text ∈ ["here u. .( a", "b) xy", "u. Bye cr"], ∀ code ∈ codesOf text,
      InRange 16 code := by
    unfold InRange
    decide
  obtain ⟨bound, equal⟩ := outcomes_load_eq_session (le_refl 16) accepts _ inRange []
  refine ⟨accepts, inRange, bound, fun fuel enough => ?_⟩
  rw [equal fuel enough, length_image]
  decide

end Subleq.Monitor
