import Subleq.Proofs.Monitor.Paths

/-!
# Statements of the monitor

What each kind of line of the monitor does to its cells. The cells are told apart by name: a `Store`
has a value for each of them and for the operand of the emitter, and the word list never changes.
-/

namespace Subleq.Monitor

open Assembly

/-- The values of the cells of the monitor, and the operand of the emitter. -/
structure Store where
  value : Slot → Int
  pointer : Int

namespace Store

def set (store : Store) (slot : Slot) (value : Int) : Store :=
  { store with value := Function.update store.value slot value }

@[simp] theorem value_set (store : Store) (slot other : Slot) (value : Int) :
    (store.set slot value).value other = if other = slot then value else store.value other :=
  Function.update_apply ..

theorem value_set_self (store : Store) (slot : Slot) (value : Int) :
    (store.set slot value).value slot = value := by
  simp

theorem value_set_of_ne (store : Store) {slot other : Slot} (distinct : other ≠ slot)
    (value : Int) : (store.set slot value).value other = store.value other := by
  rw [value_set, if_neg distinct]

@[simp] theorem pointer_set (store : Store) (slot : Slot) (value : Int) :
    (store.set slot value).pointer = store.pointer := rfl

theorem set_of_eq {store : Store} {slot : Slot} {value : Int} (held : store.value slot = value) :
    store.set slot value = store := by
  rw [set, ← held, Function.update_eq_self]

/-- The last value that a cell is set to is the one that counts. -/
@[simp] theorem set_set (store : Store) (slot : Slot) (value later : Int) :
    (store.set slot value).set slot later = store.set slot later := by
  simp only [set, Function.update_idem]

/-- The last values that two cells are set to are those that count. -/
theorem set_pair_set_pair {first second : Slot} (distinct : first ≠ second) (store : Store)
    (value other later last : Int) :
    (((store.set first value).set second other).set first later).set second last =
      (store.set first later).set second last := by
  simp only [set, Function.update_comm distinct, Function.update_idem]

def cells (words : List String) (width : Nat) (store : Store) (position : Nat) : Int :=
  if position = emitterPlace then store.pointer
  else match Slot.all.find? fun slot => slot.place = position with
    | some slot => store.value slot
    | none => (programWith words).initialCells width position

variable {words : List String} {width : Nat}

theorem place_ne_emitterPlace (slot : Slot) : slot.place ≠ emitterPlace := by
  rw [Slot.place, cellsStart, emitterPlace]
  omega

@[simp] theorem cells_place (store : Store) (slot : Slot) :
    store.cells words width slot.place = store.value slot := by
  have found : Slot.all.find? (fun other => other.place = slot.place) = some slot := by
    simp only [Slot.place_inj]
    cases slot <;> rfl
  rw [cells, if_neg (place_ne_emitterPlace slot), found]

@[simp] theorem cells_emitterPlace (store : Store) :
    store.cells words width emitterPlace = store.pointer := by
  simp [cells]

theorem cells_of_le (store : Store) {position : Nat} (behind : listPlace ≤ position) :
    store.cells words width position = (programWith words).initialCells width position := by
  have absent : Slot.all.find? (fun slot => slot.place = position) = none := by
    rw [List.find?_eq_none]
    intro slot _
    have upper : slot.place < listPlace := by
      cases slot <;> decide
    simp only [decide_eq_true_eq]
    omega
  rw [cells, if_neg (by rw [emitterPlace]; rw [listPlace] at behind; omega), absent]

theorem update_cells_place (store : Store) (slot : Slot) (value : Int) :
    Function.update (store.cells words width) slot.place value =
      (store.set slot value).cells words width := by
  funext position
  by_cases same : position = slot.place
  · subst same
    simp
  · rw [Function.update_of_ne same]
    simp only [cells, pointer_set, value_set]
    split
    · rfl
    · cases found : Slot.all.find? fun other => other.place = position with
      | none => rfl
      | some other =>
          have place : other.place = position := by
            simpa using List.find?_some found
          have distinct : other ≠ slot := by
            rintro rfl
            exact same place.symm
          simp [distinct]

theorem update_cells_emitterPlace (store : Store) (value : Int) :
    Function.update (store.cells words width) emitterPlace value =
      ({ store with pointer := value } : Store).cells words width := by
  funext position
  by_cases same : position = emitterPlace
  · subst same
    simp
  · rw [Function.update_of_ne same]
    simp [cells, same]

end Store

/-- What a statement of the monitor reads: a constant or a cell. -/
inductive Source where
  | number (value : Int)
  | of (slot : Slot)
  deriving DecidableEq

namespace Source

/-- The operand of a source. -/
def operand : Source → Operand
  | number value => Monitor.number value
  | of slot => cell slot.name

def value (width : Nat) (store : Store) : Source → Int
  | number value => wrap width value
  | of slot => store.value slot

end Source

theorem isCell_slot (slot : Slot) : isCell (cell slot.name) = true := by
  rw [isCell, Bool.or_eq_true, List.contains_iff_mem]
  exact Or.inl (List.mem_map_of_mem slot.mem_all)

theorem isSource_operand (source : Source) : isSource source.operand = true := by
  rw [isSource, Bool.or_eq_true]
  cases source with
  | number value => exact Or.inl rfl
  | of slot => exact Or.inr (isCell_slot slot)

theorem isTarget_cell {name : String} (target : name ∈ targets) : isTarget (cell name) = true := by
  rw [isTarget, List.contains_iff_mem]
  exact List.mem_map_of_mem target

theorem operand_ne {slot : Slot} {source : Source} (distinct : source ≠ .of slot) :
    cell slot.name ≠ source.operand := by
  intro same
  cases source with
  | number value => exact Operand.noConfusion same
  | of other =>
      have places := congrArg (programWith []).address? same
      change (programWith []).address? (cell slot.name) =
        (programWith []).address? (cell other.name) at places
      rw [address?_slot, address?_slot, Option.some.injEq, Slot.place_inj] at places
      exact distinct (places ▸ rfl)

def Accepts {σ : Type} (ports : Ports σ) : Prop := ∀ code env, (ports.sink code env).1 = .ok ()

/-- The environment after codes are emitted. -/
def deliver {σ : Type} (ports : Ports σ) (codes : List Int) (env : σ) : σ :=
  codes.foldl (fun env code => (ports.sink code env).2) env

theorem deliver_append {σ : Type} (ports : Ports σ) (first second : List Int) (env : σ) :
    deliver ports (first ++ second) env = deliver ports second (deliver ports first env) :=
  List.foldl_append

theorem Accepts.sink_eq {σ : Type} {ports : Ports σ} (accepts : Accepts ports) (code : Int)
    (env : σ) : ports.sink code env = (.ok (), deliver ports [code] env) :=
  Prod.ext (accepts code env) rfl

section Execute

variable {σ : Type} {words : List String} {width : Nat} {ports : Ports σ} {store : Store}
  {staged : List Int} {env : σ} {rest : Listing}

@[simp] theorem address_slot (slot : Slot) (words : List String) :
    (programWith words).address (cell slot.name) = slot.place := by
  rw [Listing.address, address?_slot, Option.getD_some]

@[simp] theorem value_operand (source : Source) :
    (programWith words).value width (store.cells words width) source.operand =
      source.value width store := by
  cases source with
  | number value => rfl
  | of slot =>
      change store.cells words width ((programWith words).address (cell slot.name)) = _
      rw [address_slot, Store.cells_place]
      rfl

/-- The execution of the monitor at some lines. -/
def stand (words : List String) (width : Nat) (lines : Listing) (store : Store)
    (staged : List Int) : Execution :=
  { lines := some lines, cells := store.cells words width, staged }

theorem write_slot (lines : Listing) (slot : Slot) (value : Int) :
    ((stand words width lines store staged).write slot.place value).goOn rest =
      stand words width rest (store.set slot value) staged := by
  simp only [stand, Execution.write, Execution.goOn, Store.update_cells_place]

theorem leads_label (name : String) :
    Leads words width ports (stand words width (label name :: rest) store staged) env
      (stand words width rest store staged) env :=
  .skip rfl (.refl _ env)

/-- A cell is set to a value that a statement computes. -/
theorem leads_assign {statement : Statement} (kept : keeps statement = true)
    (silent : ∀ cell, statement ≠ .inp cell) {slot : Slot} {value : Int}
    (does : ∀ execution : Execution, execution.cells = store.cells words width →
      (programWith words).execute width ports rest execution env statement =
        some { execution := (execution.write slot.place value).goOn rest, env }) :
    Leads words width ports
      (stand words width (Monitor.does statement :: rest) store staged) env
      (stand words width rest (store.set slot value) staged) env := by
  refine .step rfl kept (fun cell same => absurd same (silent cell)) (does _ rfl) ?_
  rw [← write_slot (Monitor.does statement :: rest)]
  exact .refl _ env

theorem leads_move (slot : Slot) (source : Source) (distinct : source ≠ .of slot) :
    Leads words width ports
      (stand words width (move slot.name source.operand :: rest) store staged) env
      (stand words width rest (store.set slot (source.value width store)) staged) env := by
  apply leads_assign
  · simp only [keeps, isCell_slot, isSource_operand, Bool.true_and, bne_iff_ne]
    exact operand_ne distinct
  · intro cell
    exact Statement.noConfusion
  · intro execution same
    simp only [Listing.execute, same, address_slot, value_operand]

theorem leads_increase (slot : Slot) (source : Source) :
    Leads words width ports
      (stand words width (increase slot.name source.operand :: rest) store staged) env
      (stand words width rest
        (store.set slot (wrap width (store.value slot + source.value width store))) staged)
      env := by
  apply leads_assign
  · simp only [keeps, isCell_slot, isSource_operand, Bool.true_and]
  · intro cell
    exact Statement.noConfusion
  · intro execution same
    have old : (programWith words).value width (store.cells words width) (cell slot.name) =
        store.value slot := value_operand (.of slot)
    simp only [Listing.execute, same, address_slot, value_operand, old]

theorem leads_decrease (slot : Slot) (source : Source) :
    Leads words width ports
      (stand words width (decrease slot.name source.operand :: rest) store staged) env
      (stand words width rest
        (store.set slot (wrap width (store.value slot - source.value width store))) staged)
      env := by
  apply leads_assign
  · simp only [keeps, isCell_slot, isSource_operand, Bool.true_and]
  · intro cell
    exact Statement.noConfusion
  · intro execution same
    have old : (programWith words).value width (store.cells words width) (cell slot.name) =
        store.value slot := value_operand (.of slot)
    simp only [Listing.execute, same, address_slot, value_operand, old]

theorem leads_clear (slot : Slot) :
    Leads words width ports (stand words width (clear slot.name :: rest) store staged) env
      (stand words width rest (store.set slot 0) staged) env := by
  apply leads_assign
  · exact isCell_slot slot
  · intro cell
    exact Statement.noConfusion
  · intro execution _
    simp only [Listing.execute, address_slot]

theorem leads_readChar (code : Int) :
    Leads words width ports (stand words width (readChar :: rest) store (code :: staged)) env
      (stand words width rest (store.set .ch (wrap width code)) staged) env := by
  refine .step rfl (isCell_slot .ch) (fun _ _ => List.cons_ne_nil code staged) ?_ (.refl _ env)
  have address : (programWith words).address (cell "ch") = Slot.ch.place := address_slot .ch words
  simp only [Listing.execute, Machine.nextCode, stand, address, Execution.write, Execution.goOn,
    Store.update_cells_place]

theorem leads_branch {statement : Statement} (kept : keeps statement = true)
    (silent : ∀ cell, statement ≠ .inp cell) {condition : Prop} [Decidable condition]
    {target : String} (known : target ∈ targets)
    (does : ∀ execution : Execution, execution.cells = store.cells words width →
      (programWith words).execute width ports rest execution env statement =
        (programWith words).branch condition (cell target) rest execution env) :
    Leads words width ports
      (stand words width (Monitor.does statement :: rest) store staged) env
      (stand words width (if condition then routine words target else rest) store staged) env := by
  refine .step rfl kept (fun cell same => absurd same (silent cell)) ?_ (.refl _ env)
  rw [does _ rfl, Listing.branch, target?_cell known]
  split
  · rfl
  · rfl

theorem leads_goTo {target : String} (known : target ∈ targets) :
    Leads words width ports (stand words width (goTo target :: rest) store staged) env
      (stand words width (routine words target) store staged) env := by
  have gone := @leads_branch σ words width ports store staged env rest (.jmp (cell target))
    (isTarget_cell known) (fun _ => Statement.noConfusion) True _ target known (fun _ _ => rfl)
  rw [if_pos trivial] at gone
  exact gone

theorem leads_unlessPositive (slot : Slot) {target : String} (known : target ∈ targets) :
    Leads words width ports
      (stand words width (unlessPositive slot.name target :: rest) store staged) env
      (stand words width (if store.value slot ≤ 0 then routine words target else rest) store
        staged) env := by
  apply leads_branch _ _ known
  · intro execution same
    have held : (programWith words).value width (store.cells words width) (cell slot.name) =
        store.value slot := value_operand (.of slot)
    simp only [Listing.execute, same, held]
  · have reads := isSource_operand (.of slot)
    simp only [keeps, isTarget_cell known, Bool.and_true]
    exact reads
  · intro cell
    exact Statement.noConfusion

theorem leads_jle (left right : Source) {target : String} (known : target ∈ targets) :
    Leads words width ports
      (stand words width (does (.jle left.operand right.operand (cell target)) :: rest) store
        staged) env
      (stand words width
        (if wrap width (left.value width store - right.value width store) ≤ 0 then
          routine words target else rest) store staged) env := by
  apply leads_branch _ _ known
  · intro execution same
    simp only [Listing.execute, same, value_operand]
  · simp only [keeps, isSource_operand, isTarget_cell known, Bool.and_true]
  · intro cell
    exact Statement.noConfusion

theorem leads_jeq (left right : Source) {target : String} (known : target ∈ targets) :
    Leads words width ports
      (stand words width (does (.jeq left.operand right.operand (cell target)) :: rest) store
        staged) env
      (stand words width
        (if LooksEqual width (left.value width store) (right.value width store) then
          routine words target else rest) store staged) env := by
  apply leads_branch _ _ known
  · intro execution same
    simp only [Listing.execute, same, value_operand]
  · simp only [keeps, isSource_operand, isTarget_cell known, Bool.and_true]
  · intro cell
    exact Statement.noConfusion

theorem leads_emit (accepts : Accepts ports) (source : Source) :
    Leads words width ports
      (stand words width (emit source.operand :: rest) store staged) env
      (stand words width rest store staged) (deliver ports [source.value width store] env) := by
  refine .step rfl (isSource_operand source) (fun _ same => Statement.noConfusion same) ?_
    (.refl _ _)
  have value : (programWith words).value width (store.cells words width) source.operand =
      source.value width store := value_operand source
  simp only [Listing.execute, stand, value, accepts.sink_eq]
  rfl

theorem leads_halt :
    Leads words width ports (stand words width (does .halt :: rest) store staged) env
      { lines := none, cells := store.cells words width, staged } env :=
  .step rfl rfl (fun _ same => Statement.noConfusion same) rfl (.refl _ env)

/-! ## Constants -/

theorem cellBound_of_wide (wide : 16 ≤ width) : 32768 ≤ cellBound width :=
  cellBound_le_cellBound wide

theorem wrap_of_wide (wide : 16 ≤ width) {value : Int} (lower : -32768 ≤ value)
    (upper : value < 32768) : wrap width value = value := by
  have bound := cellBound_of_wide wide
  exact wrap_of_fitsCell (by omega) ⟨by omega, by omega⟩

theorem leads_moveNumber (wide : 16 ≤ width) (slot : Slot) {number : Int}
    (lower : -32768 ≤ number) (upper : number < 32768) :
    Leads words width ports
      (stand words width (move slot.name (Monitor.number number) :: rest) store staged) env
      (stand words width rest (store.set slot number) staged) env := by
  have moved := @leads_move σ words width ports store staged env rest slot (.number number)
    Source.noConfusion
  rw [Source.value, wrap_of_wide wide lower upper] at moved
  exact moved

theorem leads_emitNumber (wide : 16 ≤ width) (accepts : Accepts ports) {number : Int}
    (lower : -32768 ≤ number) (upper : number < 32768) :
    Leads words width ports
      (stand words width (emit (Monitor.number number) :: rest) store staged) env
      (stand words width rest store staged) (deliver ports [number] env) := by
  have emitted := @leads_emit σ words width ports store staged env rest accepts (.number number)
  rw [Source.value, wrap_of_wide wide lower upper] at emitted
  exact emitted

theorem leads_increaseNumber (wide : 16 ≤ width) (slot : Slot) (number : Int) {value : Int}
    (held : store.value slot = value) (fits : FitsCell width (value + number)) :
    Leads words width ports
      (stand words width (increase slot.name (Monitor.number number) :: rest) store staged) env
      (stand words width rest (store.set slot (value + number)) staged) env := by
  have increased := @leads_increase σ words width ports store staged env rest slot (.number number)
  rw [Source.value, held, wrap_add_wrap, wrap_of_fitsCell (by omega) fits] at increased
  exact increased

theorem leads_decreaseNumber (wide : 16 ≤ width) (slot : Slot) (number : Int) {value : Int}
    (held : store.value slot = value) (fits : FitsCell width (value - number)) :
    Leads words width ports
      (stand words width (decrease slot.name (Monitor.number number) :: rest) store staged) env
      (stand words width rest (store.set slot (value - number)) staged) env := by
  have decreased := @leads_decrease σ words width ports store staged env rest slot (.number number)
  rw [Source.value, held, wrap_sub_wrap, wrap_of_fitsCell (by omega) fits] at decreased
  exact decreased

end Execute

end Subleq.Monitor
