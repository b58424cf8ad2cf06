import Subleq.Proofs.Assembly.Simulation
import Subleq.Proofs.Machine.Refinement

/-!
# Assembled programs mean what their source says

A disciplined listing keeps to its plain data, so that its code and its pool stay intact. From the
loaded image on, the machine therefore follows every execution of the listing, statement by
statement: it emits and reads the same codes, holds the same plain data after every statement, halts
when the execution halts and fails when a port fails.
-/

namespace Subleq.Assembly

open Abstract (Lively Reaches)

/-! ## Plain data -/

namespace Listing

theorem datum?_append (before lines : Listing) (index : Nat) :
    (before ++ lines).datum? (before.size + index) = lines.datum? index := by
  induction before with
  | nil => simp [size]
  | cons line before ih =>
      rw [List.cons_append, datum?, size, if_neg (by omega), Nat.add_assoc,
        Nat.add_sub_cancel_left, ih]

theorem datum?_append_of_lt {first : Listing} (second : Listing) {position : Nat}
    (inside : position < first.size) :
    (first ++ second).datum? position = first.datum? position := by
  induction first generalizing position with
  | nil => simp [size] at inside
  | cons line lines ih =>
      rw [size] at inside
      rw [List.cons_append, datum?, datum?]
      split
      · rfl
      · exact ih (by omega)

/-- Plain data lies among the cells of the statements, in a line of its own. -/
theorem datum?_eq_some {listing : Listing} {position : Nat} {operand : Operand}
    (found : listing.datum? position = some operand) :
    ∃ (before : Listing) (line : Line) (after : Listing) (values : List Operand) (index : Nat),
      listing = before ++ line :: after ∧
      line.statement = some (.data values) ∧ position = before.size + index ∧
      values[index]? = some operand := by
  induction listing generalizing position with
  | nil => simp [datum?] at found
  | cons line lines ih =>
      rw [datum?] at found
      split at found
      · split at found
        next values has =>
          exact ⟨[], line, lines, values, position, rfl, has, by simp [size], found⟩
        · simp at found
      next behind =>
        obtain ⟨before, other, after, values, index, rfl, has, place, element⟩ := ih found
        refine ⟨line :: before, other, after, values, index, rfl, has, ?_, element⟩
        rw [size]
        omega

theorem lt_size_of_isDatum {listing : Listing} {position : Nat}
    (isDatum : listing.IsDatum position) : position < listing.size := by
  obtain ⟨operand, found⟩ := Option.isSome_iff_exists.mp isDatum
  obtain ⟨before, line, after, values, index, rfl, has, rfl, element⟩ := datum?_eq_some found
  have inside := (List.getElem?_eq_some_iff.mp element).1
  rw [size_append, size, Line.size, has]
  simp only [Statement.size]
  omega

theorem not_isDatum {before rest : Listing} {line : Line} {statement : Statement}
    (has : line.statement = some statement) (isMacro : statement.isMacro = true) {index : Nat}
    (inside : index < statement.size) :
    ¬(before ++ line :: rest).IsDatum (before.size + index) := by
  have lineInside : index < line.size := by
    simpa [Line.size, has] using inside
  rw [IsDatum, datum?_append, datum?, if_pos lineInside, has]
  cases statement with
  | data values => simp [Statement.isMacro] at isMacro
  | _ => simp

/-- Plain data stands in the image as the cells have it at first. -/
theorem getElem?_image_datum {listing : Listing} {image : List Int}
    (assembled : listing.image (.ofListing listing) 0 = .ok image) {position : Nat}
    (isDatum : listing.IsDatum position) (width : Nat) :
    ∃ value, image[position]? = some value ∧
      listing.initialCells width position = wrap width value := by
  obtain ⟨operand, found⟩ := Option.isSome_iff_exists.mp isDatum
  obtain ⟨before, line, after, values, index, split, has, place, element⟩ := datum?_eq_some found
  have term : ((Statement.data values).terms before.size)[index]? = some operand.term := by
    simp [Statement.terms, element]
  have parts : (before ++ line :: after).image (.ofListing listing) 0 = .ok image := by
    rw [← split]
    exact assembled
  obtain ⟨value, resolved, held⟩ := getElem?_image_statement parts has term
  refine ⟨value, place ▸ held, ?_⟩
  simp [initialCells, found, resolved]

theorem run_of_halted {σ : Type} {listing : Listing} {width : Nat} (ports : Ports σ)
    {execution : Execution} (halted : execution.halted = true) (count : Nat) (env : σ) :
    listing.run width ports count execution env = some { execution, env } := by
  have ended : execution.lines = none := Option.isNone_iff_eq_none.mp halted
  induction count with
  | zero => rfl
  | succ count ih => simp [run, step, ended, ih]

end Listing

/-- A disciplined listing writes to its plain data. -/
def Assembled.ofDisciplined (listing : Listing) (image : List Int) (width : Nat)
    (unreserved : listing.Unreserved)
    (assembled : listing.image (.ofListing listing) 0 = .ok image)
    (small : (image.length : Int) ≤ cellBound width) : Assembled :=
  { listing, image, width, writable := listing.IsDatum, unreserved, assembled, small,
    inside := fun _ => Listing.lt_size_of_isDatum }

/-- The loaded image represents an execution at its start. -/
theorem Assembled.represents_load (code : Assembled) {machine : Machine}
    (sameWidth : machine.memory.width = code.width)
    (unlimited : machine.memory.room = .unlimited) {cells : Nat → Int}
    (initial : ∀ position, code.writable position →
      ∃ value, code.image[position]? = some value ∧ cells position = wrap code.width value) :
    Represents code (machine.load code.image 0).2.view
      { lines := some code.listing, cells, staged := machine.staged } := by
  have shown : (machine.load code.image 0).2.view = machine.view.reset.place 0 code.image :=
    Machine.view_load unlimited code.image 0
  have loaded : ∀ position value, code.image[position]? = some value →
      (machine.load code.image 0).2.view.cell position = wrap code.width value := by
    intro position value held
    rw [shown]
    simp [Abstract.place, Abstract.reset, overlay, held, Machine.view, sameWidth]
  rw [shown] at loaded ⊢
  constructor
  · exact sameWidth
  · rfl
  · rintro _ ⟨⟩
    exact List.suffix_rfl
  · simp [Listing.counter, Abstract.place, Abstract.reset]
  · intro position
    cases held : code.image[position]? with
    | some value =>
        rw [loaded position value held]
        exact fitsCell_wrap code.width_positive value
    | none =>
        have fits := fitsCell_wrap code.width_positive 0
        rw [wrap_zero] at fits
        simpa [Abstract.place, Abstract.reset, overlay, held] using fits
  · intro position writable
    obtain ⟨value, held, same⟩ := initial position writable
    exact (loaded position value held).trans same.symm
  · intro position value held _ _ _
    exact loaded position value held

/-- Whether every statement of a listing but plain data and bare instructions is confined to
writable cells. -/
def Assembled.Confined (code : Assembled) : Prop :=
  ∀ before line rest statement, code.listing = before ++ line :: rest →
    line.statement = some statement → statement.isMacro = true →
    Sound code before line rest statement

namespace Represents

variable {σ : Type} {code : Assembled} {machine : Abstract} {execution : Execution}
  {ports : Ports σ} {env : σ}

/-- The machine has halted exactly if the execution has. -/
theorem halted_eq (represents : Represents code machine execution) :
    machine.halted = execution.halted := by
  have pc := represents.pc
  cases here : execution.lines with
  | none =>
      rw [here] at pc
      simp [Abstract.halted, Execution.halted, here, pc, Listing.counter]
  | some lines =>
      obtain ⟨before, split⟩ := represents.placed lines here
      rw [here, ← split, Listing.counter_append] at pc
      rw [Abstract.halted_of_nonneg (by omega), Execution.halted, here]
      rfl

/-- The machine follows every statement of a confined listing. -/
theorem follows_of_confined (represents : Represents code machine execution)
    (confined : code.Confined) (running : execution.halted = false) {executed : Executed σ}
    (does : code.listing.step code.width ports execution env = some executed) :
    Follows code ports Abstract.halted machine env executed := by
  have active := represents.halted_eq.trans running
  cases here : execution.lines with
  | none => simp [Execution.halted, here] at running
  | some lines =>
      cases next : lines.next? with
      | none => simp [Listing.step, here, next] at does
      | some found =>
          obtain ⟨statement, rest⟩ := found
          have isMacro : statement.isMacro = true := by
            simp only [Listing.step, here, next] at does
            cases statement with
            | data values => simp [Listing.execute] at does
            | subleq a b target => simp [Listing.execute] at does
            | _ => rfl
          exact represents.follows_step here next
            (fun before line split has => confined before line rest statement split has isMacro)
            Abstract.lively_halted active does

end Represents

/-- The machine gets to where the execution gets, or fails where it fails. -/
def Arrives {σ : Type} (code : Assembled) (ports : Ports σ) (count : Nat) (machine : Abstract)
    (env : σ) (executed : Executed σ) : Prop :=
  ∃ steps after middle, Reaches ports Abstract.halted steps machine env after middle ∧
    Represents code after executed.execution ∧
    match executed.fault with
    | none => middle = executed.env ∧ (executed.execution.halted = true ∨ count ≤ steps)
    | some fault =>
        after.halted = false ∧
          after.step ports middle =
            { machine := after, env := executed.env, fault := some (.port fault) }

/-- The machine follows every execution of a confined listing. -/
theorem Represents.arrives {σ : Type} {code : Assembled} (confined : code.Confined)
    {ports : Ports σ} {count : Nat} {machine : Abstract} {execution : Execution} {env : σ}
    {executed : Executed σ} (represents : Represents code machine execution)
    (ran : code.listing.run code.width ports count execution env = some executed) :
    Arrives code ports count machine env executed := by
  induction count generalizing machine execution env with
  | zero =>
      cases ran
      exact ⟨0, machine, env, .refl machine env, represents, rfl, Or.inr (le_refl 0)⟩
  | succ count ih =>
      cases running : execution.halted with
      | true =>
          cases (Listing.run_of_halted ports running (count + 1) env).symm.trans ran
          exact ⟨0, machine, env, .refl machine env, represents, rfl, Or.inl running⟩
      | false =>
          rw [Listing.run] at ran
          cases stepped : code.listing.step code.width ports execution env with
          | none => simp [stepped] at ran
          | some first =>
              have followed := represents.follows_of_confined confined running stepped
              obtain ⟨next, nextEnv, fault⟩ := first
              cases fault with
              | some fault =>
                  simp only [stepped, Option.some.injEq] at ran
                  subst ran
                  obtain ⟨active, failed, kept⟩ := followed
                  exact ⟨0, machine, env, .refl machine env, kept, active, failed⟩
              | none =>
                  simp only [stepped] at ran
                  obtain ⟨begun, middle, some, path, there⟩ := followed
                  obtain ⟨steps, after, late, rest, arrived, ended⟩ := ih there ran
                  refine ⟨begun + steps, after, late, path.trans rest, arrived, ?_⟩
                  obtain ⟨last, lastEnv, fault⟩ := executed
                  cases fault with
                  | some fault => exact ended
                  | none =>
                      refine ⟨ended.1, ended.2.imp_right ?_⟩
                      intro enough
                      omega

/-! ## Sources -/

theorem Listing.confined_of_disciplined {listing : Listing} (disciplined : listing.Disciplined)
    {image : List Int} {width : Nat} (unreserved : listing.Unreserved)
    (assembled : listing.image (.ofListing listing) 0 = .ok image)
    (small : (image.length : Int) ≤ cellBound width) :
    (Assembled.ofDisciplined listing image width unreserved assembled small).Confined := by
  intro before line rest statement split has isMacro
  change listing = before ++ line :: rest at split
  have member : line ∈ listing := by
    rw [split]
    exact List.mem_append_right before List.mem_cons_self
  refine ⟨split, has, ?_, ?_⟩
  · rcases disciplined line member statement has with isData | confines
    · cases statement with
      | data values => simp [Statement.isMacro] at isMacro
      | _ => simp [Statement.isData] at isData
    · exact confines
  · intro index inside
    change ¬listing.IsDatum (before.size + index)
    rw [split]
    exact not_isDatum has isMacro inside

/-- The image of an accepted source is that of its listing. -/
theorem image_of_assemble {source : String} {listing : Listing} {origin : Int} {cells : List Int}
    {sizes : Measure} (accepted : Listing.read source = .ok listing)
    (assembled : assemble source origin = .ok (cells, sizes)) :
    listing.image (.ofListing listing) origin = .ok cells := by
  obtain ⟨-, other, read, image, -⟩ := assemble_eq_ok_iff.mp assembled
  cases accepted.symm.trans read
  exact image

/-- How a run ends that follows an execution. -/
def Executed.ending {σ : Type} (executed : Executed σ) : Machine.Ending :=
  match executed.fault with
  | some fault => .failed (.port fault)
  | none => if executed.execution.halted then .stopped else .outOfFuel

theorem Arrives.advance {σ : Type} {code : Assembled} {ports : Ports σ} {count : Nat}
    {machine : Abstract} {env : σ} {executed : Executed σ}
    (arrives : Arrives code ports count machine env executed) :
    ∃ fuel after steps, Abstract.advance ports Abstract.halted fuel 0 machine env =
        { machine := after, env := executed.env, steps, ending := executed.ending } ∧
      Represents code after executed.execution ∧
      (executed.ending = .outOfFuel → count ≤ steps) := by
  obtain ⟨steps, after, middle, path, represents, ended⟩ := arrives
  obtain ⟨execution, last, fault⟩ := executed
  cases fault with
  | none =>
      obtain ⟨rfl, enough⟩ := ended
      refine ⟨steps, after, steps, ?_, represents, ?_⟩
      · have followed := path.advance_eq 0 0
        rw [Nat.add_zero, Nat.zero_add] at followed
        rw [followed, Abstract.advance, represents.halted_eq]
        rfl
      · intro unfinished
        rcases enough with halted | enough
        · simp [Executed.ending, halted] at unfinished
        · exact enough
  | some fault =>
      obtain ⟨active, failed⟩ := ended
      refine ⟨steps + 1, after, steps, ?_, represents, ?_⟩
      · rw [path.advance_eq 1 0, Abstract.advance, active, failed, Nat.zero_add]
        rfl
      · intro unfinished
        simp [Executed.ending] at unfinished

/-- Assembled programs mean what their source says. For every execution of a disciplined source, of
any length and with any ports, some bound on its steps brings the machine from the loaded image to
where the execution ends: it has done the same to the environment, stands at the same line with the
same staged input and the same plain data, and halts or fails as the execution does. A run that does
neither has made at least one step for each statement. -/
theorem run_load_follows_source {σ : Type} {source : String} {listing : Listing} {cells : List Int}
    {sizes : Measure} {width : Nat} (accepted : Listing.read source = .ok listing)
    (assembled : assemble source 0 = .ok (cells, sizes)) (disciplined : listing.Disciplined)
    (small : cells.length ≤ 2 ^ (width - 1)) {machine : Machine}
    (sameWidth : machine.memory.width = width) (unlimited : machine.memory.room = .unlimited)
    (ports : Ports σ) (env : σ) (count : Nat) {executed : Executed σ}
    (ran : listing.run width ports count (listing.start width machine.staged) env =
      some executed) :
    ∃ fuel,
      let progress := (machine.load cells 0).2.run ports fuel env
      progress.env = executed.env ∧ progress.ending = executed.ending ∧
        progress.machine.pc = listing.counter executed.execution.lines ∧
        progress.machine.staged = executed.execution.staged ∧
        (∀ position, listing.IsDatum position →
          progress.machine.memory.get position = executed.execution.cells position) ∧
        (executed.ending = .outOfFuel → count ≤ progress.steps) := by
  have image := image_of_assemble accepted assembled
  have fits : (cells.length : Int) ≤ cellBound width := by
    rw [cellBound]
    exact_mod_cast small
  have confined := Listing.confined_of_disciplined disciplined
    (Listing.unreserved_of_read accepted) image fits
  have loaded := Assembled.represents_load (.ofDisciplined listing cells width
    (Listing.unreserved_of_read accepted) image fits) sameWidth unlimited
    (fun position isDatum => Listing.getElem?_image_datum image isDatum width)
  obtain ⟨fuel, after, steps, followed, represents, enough⟩ :=
    (loaded.arrives confined ran).advance
  have room : (machine.load cells 0).2.memory.room = .unlimited :=
    Machine.room_load unlimited cells 0
  have shown := (Machine.view_run ports fuel room env).trans followed
  have arrived : ((machine.load cells 0).2.run ports fuel env).machine.view = after :=
    congrArg Abstract.Progress.machine shown
  refine ⟨fuel, congrArg Abstract.Progress.env shown, congrArg Abstract.Progress.ending shown,
    ?_, ?_, ?_, ?_⟩
  · rw [← arrived] at represents
    exact represents.pc
  · rw [← arrived] at represents
    exact represents.staged
  · rw [← arrived] at represents
    exact represents.written
  · intro unfinished
    have counted : ((machine.load cells 0).2.run ports fuel env).steps = steps :=
      congrArg Abstract.Progress.steps shown
    rw [counted]
    exact enough unfinished

/-- A source that copies its input up to the end of input and counts the codes. -/
def copySource : String :=
  "loop: IN c\n JEQ c #-1 stop\n OUT c\n ADD n #1\n JMP loop\nstop: HALT\nc: DATA 0\nn: DATA 0"

/-- The listing of `copySource`. -/
def copyListing : Listing :=
  let name (text : String) : Operand := .reference { text, name := text, offset := "" }
  [{ label := some "loop", statement := some (.inp (name "c")) },
    { statement := some (.jeq (name "c") (.constant (-1)) (name "stop")) },
    { statement := some (.out (name "c")) },
    { statement := some (.add (name "n") (.constant 1)) },
    { statement := some (.jmp (name "loop")) },
    { label := some "stop", statement := some .halt },
    { label := some "c", statement := some (.data [.literal 0]) },
    { label := some "n", statement := some (.data [.literal 0]) }]

/-- The image of `copySource`: behind the statements at 51 and 52 the plain data, then the scratch
cells and the two constants. -/
def copyImage : List Int :=
  [-1, 51, 3, 54, 54, 6, 51, 53, 9, 53, 54, 12, 53, 53, 15, 56, 54, 18, 53, 54, 24, 53, 53, 33,
    55, 55, 27, 54, 55, 30, 53, 55, 48, 51, -1, 36, 57, 53, 39, 53, 52, 42, 53, 53, 45, 53, 53, 0,
    53, 53, -1, 0, 0, 0, 0, 0, -1, 1]

/-- The machine copies one code, counts it, and halts at the end of input. -/
theorem run_load_follows_source_copy :
    Listing.read copySource = .ok copyListing ∧ copyListing.Disciplined ∧
      assemble copySource 0 = .ok (copyImage, ⟨58, 12, 2⟩) ∧
      copyImage.length ≤ 2 ^ (16 - 1) ∧
      ∃ fuel,
        let progress := ((Machine.ofWidth 16).load copyImage 0).2.run Tape.ports fuel
          { inputs := [72] }
        progress.env.outputs = #[72] ∧ progress.ending = .stopped ∧ progress.machine.pc = -1 ∧
          progress.machine.memory.get 52 = 1 := by
  have accepted : Listing.read copySource = .ok copyListing := by decide +kernel
  have disciplined : copyListing.Disciplined := by decide +kernel
  have assembled : assemble copySource 0 = .ok (copyImage, ⟨58, 12, 2⟩) := by decide +kernel
  have small : copyImage.length ≤ 2 ^ (16 - 1) := by decide
  have executes : (copyListing.run 16 Tape.ports 8 (copyListing.start 16 [])
      { inputs := [72] }).any (fun executed =>
        executed.env.outputs = #[72] ∧ executed.ending = .stopped ∧
          copyListing.counter executed.execution.lines = -1 ∧
          executed.execution.cells 52 = 1) = true := by
    decide +kernel
  obtain ⟨executed, ran, expected⟩ := (Option.any_eq_true _ _).mp executes
  obtain ⟨outputs, ending, stands, counted⟩ := of_decide_eq_true expected
  obtain ⟨fuel, env, ended, pc, -, data, -⟩ := run_load_follows_source accepted assembled
    disciplined small (rfl : (Machine.ofWidth 16).memory.width = 16) rfl Tape.ports
    { inputs := [72] } 8 ran
  refine ⟨accepted, disciplined, assembled, small, fuel, ?_, ?_, ?_, ?_⟩
  · rw [env]
    exact outputs
  · exact ended.trans ending
  · exact pc.trans stands
  · exact (data 52 (by decide +kernel)).trans counted

end Subleq.Assembly
