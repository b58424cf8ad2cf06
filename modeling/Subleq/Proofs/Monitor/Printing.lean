import Subleq.Proofs.Monitor.Impostors

/-!
# Printing any number

What `u.` prints does not depend on how its number came to the stack. After any evaluations that
left the monitor between words, any unsigned number of 16 bits may be written into the one cell of
the stack, and anything into the work cells of `u.`: the number is printed in decimal, its last
digit stays on the stack, and the monitor is between words again.

That a machine is between words is seen at its program counter: there is one place where the monitor
waits for the first character of a word, and it waits for everything else behind it.
-/

namespace Subleq.Assembly

/-- A cell that the program may write can be written from outside. -/
theorem Represents.write {code : Assembled} {machine : Abstract} {execution : Execution}
    (represents : Represents code machine execution) {position : Nat}
    (writable : code.writable position) {value : Int} (fits : FitsCell code.width value) :
    Represents code { machine with cell := Function.update machine.cell position value }
      (execution.write position value) where
  width := represents.width
  staged := represents.staged
  placed := represents.placed
  pc := represents.pc
  fits := fitsCell_update represents.fits position fits
  written := by
    intro other otherWritable
    simp only [Execution.write, Function.update_apply, represents.written other otherWritable]
  intact := by
    intro other held inImage fixed notDifference notOpposite
    have distinct : other ≠ position := by
      rintro rfl
      exact fixed writable
    exact (Function.update_of_ne distinct _ _).trans
      (represents.intact other held inImage fixed notDifference notOpposite)

end Subleq.Assembly

namespace Subleq.Monitor

open Assembly

/-! ## Between words -/

/-- Whether a machine rests where the monitor waits for the first character of a word. -/
def BetweenWords (machine : Machine) : Prop :=
  machine.waiting = true ∧ address? "next" = some machine.pc

/-- Where the place between words and the cells are, in one computation. -/
theorem addresses_checked :
    address? "next" = some 0 ∧ ∀ slot ∈ Slot.all, address? slot.name = some slot.place := by
  decide +kernel

/-- The labels behind which the monitor waits inside a word or a text. -/
def innerWaits : List String :=
  stations.map Station.label ++ ["echo", "comment", "unknown", "cr1"]

/-- The monitor waits inside words and texts behind the place where it waits between words. -/
theorem size_routine_lt {name : String} (inner : name ∈ innerWaits) (words : List String) :
    (routine words name).size + 6 < (programWith words).size := by
  have closed : ∀ name ∈ innerWaits,
      ((routines.labelled? name).getD []).size + 6 < routines.size := by
    decide +kernel
  have behind := closed name inner
  rw [routine, programWith_eq, Listing.size_append, Listing.size_append]
  omega

theorem size_awaits_lt {reading : Reading} (inner : reading ≠ .word []) (words : List String) :
    (awaits words reading).size < (programWith words).size := by
  cases reading with
  | word letters =>
      have nonempty : letters.map lowerCode ≠ [] := by
        intro empty
        exact inner (congrArg Reading.word (List.map_eq_nil_iff.mp empty))
      rw [awaits, standby, if_neg nonempty]
      cases known : stationOf? (letters.map lowerCode) with
      | none =>
          have later := size_routine_lt (by decide : "unknown" ∈ innerWaits) words
          simp only [restLines, Listing.size, Line.size, readChar, goTo, does, Statement.size]
          omega
      | some station =>
          have member : station.label ∈ innerWaits :=
            List.mem_append_left _ (List.mem_map_of_mem (List.mem_of_find?_eq_some known))
          have later := size_routine_lt member words
          dsimp only
          omega
  | echo =>
      have later := size_routine_lt (by decide : "echo" ∈ innerWaits) words
      rw [awaits]
      omega
  | comment =>
      have later := size_routine_lt (by decide : "comment" ∈ innerWaits) words
      rw [awaits]
      omega
  | lineComment =>
      have later := size_routine_lt (by decide : "cr1" ∈ innerWaits) words
      simp only [awaits, lineLines, Listing.size, Line.size, readChar, goTo, does, Statement.size]
      omega

theorem counter_awaits (words : List String) (reading : Reading) :
    (programWith words).counter (some (awaits words reading)) = 0 ↔ reading = .word [] := by
  rw [Listing.counter]
  constructor
  · intro first
    by_contra inner
    have later := size_awaits_lt inner words
    omega
  · rintro rfl
    have start : awaits words (.word []) = programWith words := routine_start words
    rw [start, Int.sub_self]

section Mirrored

variable {σ : Type} {width : Nat} {ports : Ports σ} {small : (image.length : Int) ≤ cellBound width}
  {session : Session} {machine : Machine}

/-- A machine is between words when the session is that it mirrors. -/
theorem Mirrors.betweenWords_iff
    (mirrors : Mirrors wordNames image.length width image assembled_image small session machine) :
    BetweenWords machine ↔ session.halted = false ∧ session.reading = .word [] := by
  obtain ⟨store, agrees, represents⟩ := mirrors.stands
  have pc : machine.pc =
      (programWith wordNames).counter (point wordNames width session store []).lines :=
    represents.pc
  rw [BetweenWords, addresses_checked.1, Option.some.injEq]
  cases halt : session.halted with
  | true =>
      rw [point, halt] at pc
      have outside : machine.pc = -1 := pc
      simp [outside]
  | false =>
      rw [point, halt] at pc
      have running : machine.halted = false := mirrors.halted_eq.trans halt
      have waits : machine.waiting = true := by
        have idle : machine.idle = true :=
          (Machine.idle_view machine).trans (idle_point represents fun _ => rfl)
        rwa [Machine.idle, running, Bool.false_or] at idle
      simp only [waits, true_and, ← counter_awaits wordNames session.reading]
      rw [eq_comm, pc]
      rfl

/-! ## Writing cells -/

/-- Writes a value into the cell of the monitor with a name. -/
def poke (machine : Machine) (entry : String × Int) : Machine :=
  match address? entry.1 with
  | none => machine
  | some address => { machine with memory := (machine.memory.write address entry.2).2 }

/-- The names of the work cells of `u.`. -/
def workNames : List String := ["started", "dig", "dch", "p1", "p2", "p3", "p4", "pm1"]

theorem address?_name (slot : Slot) : address? slot.name = some slot.place :=
  addresses_checked.2 slot slot.mem_all

/-- A machine one of whose cells is written mirrors any session that agrees with what is written and
stands at the same point. -/
theorem Mirrors.poke
    (mirrors : Mirrors wordNames image.length width image assembled_image small session machine)
    (slot : Slot) (value : Int) {next : Session} (halted : next.halted = session.halted)
    (reading : next.reading = session.reading)
    (agree : ∀ store, Agrees wordNames image.length width session store →
      Agrees wordNames image.length width next (store.set slot (wrap width value))) :
    Mirrors wordNames image.length width image assembled_image small next
      (poke machine (slot.name, value)) := by
  obtain ⟨store, agrees, represents⟩ := mirrors.stands
  have positive : 0 < width :=
    Assembled.width_positive (built wordNames width image assembled_image small)
  have written : Monitor.poke machine (slot.name, value) =
      { machine with memory := machine.memory.set slot.place value } := by
    simp only [Monitor.poke, address?_name, Memory.write_of_unlimited mirrors.unlimited]
    rfl
  have wide : machine.memory.width = width := represents.width
  have shown : Machine.view { machine with memory := machine.memory.set slot.place value } =
      { machine.view with
        cell := Function.update machine.view.cell slot.place (wrap width value) } := by
    rw [Machine.view_set, ← wide]
    rfl
  have stood : (point wordNames width session store []).write slot.place (wrap width value) =
      point wordNames width next (store.set slot (wrap width value)) [] := by
    simp only [point, Execution.write, Store.update_cells_place, halted, reading]
  refine ⟨by rw [written]; exact mirrors.unlimited, store.set slot (wrap width value),
    agree store agrees, ?_⟩
  rw [written, shown, ← stood]
  exact represents.write (Or.inl (isDatum_place slot wordNames)) (fitsCell_wrap positive value)

/-- What is written into the work cells of `u.` does not matter. -/
theorem Mirrors.pokeWork
    (mirrors : Mirrors wordNames image.length width image assembled_image small session machine)
    {work : List (String × Int)} (own : ∀ entry ∈ work, entry.1 ∈ workNames) :
    Mirrors wordNames image.length width image assembled_image small session
      (work.foldl Monitor.poke machine) := by
  have slots : ∀ name ∈ workNames, ∃ slot ∈ Slot.all, slot.name = name ∧
      slot ∉ [Slot.tos, .endp, .wlb, .wle] := by
    decide
  induction work generalizing machine with
  | nil => exact mirrors
  | cons entry work ih =>
      obtain ⟨name, value⟩ := entry
      obtain ⟨slot, -, rfl, apart⟩ := slots name (own (name, value) List.mem_cons_self)
      simp only [List.mem_cons, List.not_mem_nil, or_false, not_or] at apart
      rw [List.foldl_cons]
      apply ih _ fun other member => own other (List.mem_cons_of_mem _ member)
      refine mirrors.poke slot value rfl rfl fun store agrees => agrees.frame ?_ ?_ ?_ ?_
      · exact Store.value_set_of_ne _ (Ne.symm apart.1) _
      · exact Store.value_set_of_ne _ (Ne.symm apart.2.1) _
      · exact Store.value_set_of_ne _ (Ne.symm apart.2.2.1) _
      · exact Store.value_set_of_ne _ (Ne.symm apart.2.2.2) _

/-- A number that is written into the one cell of the stack is on the stack. -/
theorem Mirrors.pokeStack
    (mirrors : Mirrors wordNames image.length width image assembled_image small session machine)
    {value : Nat} (unsigned : value < 65536) :
    Mirrors wordNames image.length width image assembled_image small
      { session with tos := value } (Monitor.poke machine ("tos", value)) := by
  refine mirrors.poke .tos value rfl rfl fun store agrees => ?_
  constructor
  · exact Store.value_set_self ..
  · exact unsigned
  · exact (Store.value_set_of_ne _ (by decide) _).trans agrees.endp
  · exact (Store.value_set_of_ne _ (by decide) _).trans agrees.listStart
  · exact (Store.value_set_of_ne _ (by decide) _).trans agrees.listEnd

/-! ## Printing -/

/-- Between words, `u.` prints what is on the stack and leaves its last digit. -/
theorem Session.evaluate_print (session : Session) (running : session.halted = false)
    (between : session.reading = .word []) (words : List String) (here : Nat) :
    session.evaluate words here "u." =
      ({ session with tos := session.tos % 10 }, 32 :: codesOf (toString session.tos)) := by
  obtain ⟨reading, tos, halted⟩ := session
  cases running
  cases between
  have codes : codesOf "u." = [117, 46] := by decide
  have others : ∀ word ∈ [".(", "(", "\\", "cr", "bye", "here"], ¬Spells [117, 46] word := by decide
  have prints : Spells [117, 46] "u." := by decide
  simp only [List.forall_mem_cons] at others
  simp [evaluate, codes, readAll, read, act, goOn, others, prints]

/-- A machine that mirrors a session between words prints what is on the stack. -/
theorem Mirrors.eval_print
    (mirrors : Mirrors wordNames image.length width image assembled_image small session machine)
    (wide : 16 ≤ width) (accepts : Accepts ports) (between : BetweenWords machine) (env : σ) :
    ∃ bound, ∀ fuel, bound ≤ fuel →
      let printed := machine.eval ports fuel "\n" "u." env
      printed.ending = .stopped ∧
        printed.env = deliver ports (32 :: codesOf (toString session.tos)) env ∧
        printed.machine.memory.get Slot.tos.place = (session.tos % 10 : Nat) ∧
        BetweenWords printed.machine := by
  obtain ⟨running, reading⟩ := mirrors.betweenWords_iff.mp between
  have inRange : ∀ code ∈ codesOf "u.", InRange width code := by
    have plain : ∀ code ∈ codesOf "u.", 0 ≤ code ∧ code ≤ 32768 - 2 := by decide
    have bound := cellBound_of_wide wide
    intro code member
    obtain ⟨lower, upper⟩ := plain code member
    exact ⟨lower, by omega⟩
  obtain ⟨bound, evaluates⟩ := mirrors.eval (setting_image wide accepts) inRange env
  rw [session.evaluate_print running reading] at evaluates
  refine ⟨bound, fun fuel enough => ?_⟩
  obtain ⟨stopped, delivered, after⟩ := evaluates fuel enough
  have digit : session.tos % 10 < 10 := Nat.mod_lt _ (by decide)
  refine ⟨stopped, delivered, ?_, after.betweenWords_iff.mpr ⟨running, reading⟩⟩
  rw [after.tos_eq]
  change wrap width (session.tos % 10 : Nat) = _
  exact wrap_of_wide wide (by omega) (by omega)

end Mirrored

/-- `u.` prints every unsigned number of 16 bits. A machine with cells of at least 16 bits is loaded
with the monitor and given any texts, with a sink that accepts every code: the evaluations return,
and if they leave the monitor between words, then whatever is written into the work cells of `u.`
and whichever number below 65536 is written into the one cell of the stack, the evaluation of `u.`
returns, it emits a blank and the decimal digits of the number, it leaves the last digit on the
stack, and the monitor is between words again. -/
theorem eval_print_unsigned {σ : Type} {width : Nat} (wide : 16 ≤ width) {ports : Ports σ}
    (accepts : Accepts ports) (texts : List String) (env : σ) :
    ∃ bound, ∀ fuel, bound ≤ fuel →
      let reached := ((Machine.ofWidth width).load image 0).2.evalAll ports fuel "\n" texts env
      reached.ending = .stopped ∧
        (BetweenWords reached.machine →
          ∀ work : List (String × Int), (∀ entry ∈ work, entry.1 ∈ workNames) →
          ∀ value : Nat, value < 65536 → ∀ later : σ,
          ∃ enough, ∀ fuel, enough ≤ fuel →
            let written := poke (work.foldl poke reached.machine) ("tos", value)
            let printed := written.eval ports fuel "\n" "u." later
            printed.ending = .stopped ∧
              printed.env = deliver ports (32 :: codesOf (toString value)) later ∧
              (∃ place, address? "tos" = some place ∧
                printed.machine.memory.read place = .ok (value % 10 : Nat)) ∧
              BetweenWords printed.machine) := by
  have length := length_image
  have small : (image.length : Int) ≤ cellBound width := by
    have bound := cellBound_of_wide wide
    omega
  obtain ⟨bound, evaluates⟩ := (@mirrors_load wordNames width image assembled_image small
    wide).evalAll (setting_image wide accepts) texts env
  refine ⟨bound, fun fuel enough => ?_⟩
  obtain ⟨stopped, mirrors⟩ := evaluates fuel enough texts.length
  rw [List.take_length] at stopped mirrors
  refine ⟨stopped, fun between work own value unsigned later => ?_⟩
  have ready := (mirrors.pokeWork own).pokeStack unsigned
  have stays : BetweenWords (poke (work.foldl poke _) ("tos", (value : Int))) :=
    ready.betweenWords_iff.mpr (mirrors.betweenWords_iff.mp between)
  obtain ⟨least, prints⟩ := ready.eval_print wide accepts stays later
  refine ⟨least, fun fuel enough => ?_⟩
  obtain ⟨returned, delivered, left, after⟩ := prints fuel enough
  refine ⟨returned, delivered, ⟨Slot.tos.place, address?_name .tos, ?_⟩, after⟩
  rw [← left]
  rfl

/-- A number with the sign bit of a cell of 16 bits, and work cells that hold anything, after texts
of which the second ends what the first begins. -/
theorem eval_print_unsigned_negative :
    ∃ bound, ∀ fuel, bound ≤ fuel →
      let texts := ["here .( a", "b) xy"]
      let reached := ((Machine.ofWidth 16).load image 0).2.evalAll recorder fuel "\n" texts []
      let work := [("dig", 7), ("p1", -3), ("started", 70000)]
      BetweenWords reached.machine ∧
        ∃ enough, ∀ fuel, enough ≤ fuel →
          let written := poke (work.foldl poke reached.machine) ("tos", 40000)
          let printed := written.eval recorder fuel "\n" "u." []
          printed.ending = .stopped ∧ printed.env = [32, 52, 48, 48, 48, 48] ∧
            (∃ place, address? "tos" = some place ∧
              printed.machine.memory.read place = .ok 0) ∧
            BetweenWords printed.machine := by
  have accepts : Accepts recorder := fun _ _ => rfl
  have small : (image.length : Int) ≤ cellBound 16 := by
    rw [length_image]
    decide
  obtain ⟨least, evaluates⟩ := (@mirrors_load wordNames 16 image assembled_image small
    (le_refl 16)).evalAll (setting_image (le_refl 16) accepts) ["here .( a", "b) xy"] []
  obtain ⟨bound, prints⟩ := eval_print_unsigned (le_refl 16) accepts ["here .( a", "b) xy"] []
  refine ⟨max least bound, fun fuel enough => ?_⟩
  have between := (evaluates fuel (by omega) 2).2.betweenWords_iff.mpr (by
    rw [length_image]
    decide)
  have digits : deliver recorder (32 :: codesOf (toString 40000)) [] =
      [32, 52, 48, 48, 48, 48] := by
    decide
  have printed := (prints fuel (by omega)).2 between
    [("dig", 7), ("p1", -3), ("started", 70000)] (by decide) 40000 (by decide) []
  rw [digits, show ((40000 % 10 : Nat) : Int) = 0 from rfl,
    show ((40000 : Nat) : Int) = 40000 from rfl] at printed
  exact ⟨between, printed⟩

end Subleq.Monitor
