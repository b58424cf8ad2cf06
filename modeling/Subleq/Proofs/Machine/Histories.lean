import Subleq.Proofs.Basic
import Subleq.Proofs.Machine.Refinement

/-!
# Histories of a machine

Whatever is done with a machine, one operation after the other: as long as no operation finds its
room too small, the history shows as that of the abstract machine, where complaints are told as they
can be written. The machine and its environment are compared as wholes after each operation, and so
are the replies. The abstract machine never asks for room, so want of room is the only way to part
from it; and an exact answer is missed only where a complaint has too many digits.
-/

namespace Subleq

variable {σ : Type}

/-! ## Complaints -/

theorem Complaint.written_meant (complaint : Complaint) :
    complaint.meant.written = complaint.fault := by
  cases complaint with
  | address fault => rfl
  | write fault => cases fault <;> rfl
  | load fault => cases fault <;> rfl
  | step fault => cases fault <;> rfl

theorem Complaint.meant_ne_unwritable (complaint : Complaint) : complaint.meant ≠ .unwritable := by
  cases complaint with
  | address fault => exact Fault.noConfusion
  | write fault => cases fault <;> exact Fault.noConfusion
  | load fault => cases fault <;> exact Fault.noConfusion
  | step fault => cases fault <;> exact Fault.noConfusion

/-- A fault is told as it is, or its complaint cannot be written. -/
theorem Fault.written_eq (fault : Fault) : fault.written = fault ∨ fault.written = .unwritable := by
  cases fault with
  | address fault => exact (ite_eq_or_eq _ _ _)
  | datum fault => exact (ite_eq_or_eq _ _ _)
  | _ => exact Or.inl rfl

@[simp] theorem Fault.ofAddress_ne_storage (fault : AddressFault) (tight : StorageFault) :
    ofAddress fault ≠ .storage tight := by
  unfold ofAddress
  split <;> exact Fault.noConfusion

@[simp] theorem Fault.ofDatum_ne_storage (fault : Datum.NotInteger) (tight : StorageFault) :
    ofDatum fault ≠ .storage tight := by
  unfold ofDatum
  split <;> exact Fault.noConfusion

theorem ne_storage_of_ofMachine {fault : Machine.StepFault} {tight : StorageFault}
    (fits : fault ≠ .storage tight) : Fault.ofMachine fault ≠ .storage tight := by
  cases fault with
  | address fault => exact Fault.ofAddress_ne_storage fault tight
  | port fault => exact Fault.noConfusion
  | storage other =>
      rintro same
      cases same
      exact fits rfl

theorem stepReply_ne {fault : Option Machine.StepFault} {tight : StorageFault}
    (fits : fault ≠ some (.storage tight)) :
    (stepReply fault).mapError Complaint.fault ≠ .error (.storage tight) := by
  cases fault with
  | none =>
      intro same
      cases same
  | some fault =>
      have other := ne_storage_of_ofMachine fun same => fits (congrArg some same)
      exact fun failed => other (Except.error.inj failed)

theorem runReply_ne {steps : Nat} {ending : Machine.Ending} {tight : StorageFault}
    (fits : ending ≠ .failed (.storage tight)) :
    (runReply steps ending).mapError Complaint.fault ≠ .error (.storage tight) := by
  cases ending with
  | stopped | outOfFuel =>
      intro same
      cases same
  | failed fault =>
      have other := ne_storage_of_ofMachine fun same => fits (congrArg Machine.Ending.failed same)
      exact fun failed => other (Except.error.inj failed)

theorem Performed.mapError_id {ε μ : Type} (performed : Performed ε μ σ) :
    performed.mapError id = performed := by
  obtain ⟨reply, machine, env⟩ := performed
  cases reply <;> rfl

namespace Machine

/-! ## Operations -/

theorem install_of_ne_error {machine : Machine} {base : Nat} {values : List Int}
    (fits : ∀ tight, (machine.install base values).1 ≠ .error (.storage tight)) :
    machine.install base values =
      (.ok values.length, { machine with memory := machine.memory.setBlock base values }) := by
  have stored : machine.memory.storeBlock base values =
      (.ok values.length, machine.memory.setBlock base values) := by
    refine Memory.storeBlock_eq_of_ne_error fun tight full => fits tight ?_
    exact congrArg (Except.mapError LoadFault.storage) full
  rw [install, stored]
  rfl

theorem isTight_perform {ports : Ports σ} {operation : Operation} {machine : Machine} {env : σ}
    {complaint : Complaint} {tight : StorageFault}
    (failed : (machine.attempt ports operation env).reply = .error complaint)
    (tells : complaint.fault = .storage tight) :
    (machine.perform ports operation env).IsTight := by
  refine ⟨tight, ?_⟩
  calc (machine.perform ports operation env).reply
      = (machine.attempt ports operation env).reply.mapError Complaint.fault := rfl
    _ = .error (.storage tight) := by rw [failed, mapError_error, tells]

theorem view_attempt_load (ports : Ports σ) (data : List Datum) (base : Int) {machine : Machine}
    (env : σ) (fits : ¬(machine.perform ports (.load data base) env).IsTight) :
    (machine.attempt ports (.load data base) env).view =
      machine.view.attempt ports (.load data base) env := by
  by_cases negative : base < 0
  · simp [attempt, Abstract.attempt, loadData, loadBase, negative, Performed.view, Except.map]
  · cases read : Datum.integers data with
    | error fault =>
        simp [attempt, Abstract.attempt, loadData, loadBase, negative, read, Performed.view,
          Except.map]
    | ok values =>
        have installed := @install_of_ne_error machine.reset base.toNat values fun tight full =>
          fits (isTight_perform (by
            simp only [attempt, loadData, loadBase, if_neg negative, read, full]
            rfl) rfl)
        simp [attempt, Abstract.attempt, loadData, loadBase, negative, read, installed,
          Performed.view, Except.map, view_setBlock, view_reset]

theorem view_attempt_loadText (ports : Ports σ) (text : String) (fresh : Bool) (base : Int)
    {machine : Machine} (env : σ)
    (fits : ¬(machine.perform ports (.loadText text fresh base) env).IsTight) :
    (machine.attempt ports (.loadText text fresh base) env).view =
      machine.view.attempt ports (.loadText text fresh base) env := by
  by_cases negative : base < 0
  · simp [attempt, Abstract.attempt, loadText, loadBase, negative, Performed.view, Except.map]
  · cases read : Program.read text with
    | error fault =>
        simp [attempt, Abstract.attempt, loadText, loadBase, negative, read, Performed.view,
          Except.map]
    | ok values =>
        have installed := @install_of_ne_error (if fresh then machine.reset else machine)
          base.toNat values fun tight full => fits (isTight_perform (by
            simp only [attempt, loadText, loadBase, if_neg negative, read, full]
            rfl) rfl)
        have shown : (if fresh then machine.reset else machine).view =
            if fresh then machine.view.reset else machine.view := by
          cases fresh with
          | true => exact view_reset machine
          | false => rfl
        simp [attempt, Abstract.attempt, loadText, loadBase, negative, read, installed,
          Performed.view, Except.map, view_setBlock, shown]

/-- An operation that finds room shows as the same operation of the abstract machine. -/
theorem view_attempt (ports : Ports σ) (operation : Operation) {machine : Machine} (env : σ)
    (fits : ¬(machine.perform ports operation env).IsTight) :
    (machine.attempt ports operation env).view = machine.view.attempt ports operation env := by
  cases operation with
  | read location =>
      simp only [attempt, Abstract.attempt, Memory.read_eq]
      rfl
  | write location value =>
      by_cases negative : location < 0
      · simp [attempt, Abstract.attempt, Memory.write_eq, negative, Performed.view, Except.map]
      · have stored := @Memory.store_eq_of_ne_error machine.memory location.toNat value
          fun tight full => fits (isTight_perform (by
            simp only [attempt, Memory.write_eq, if_neg negative, full]
            rfl) rfl)
        simp [attempt, Abstract.attempt, Memory.write_eq, negative, stored, Performed.view,
          Except.map, view, Abstract.assign, Memory.get_set]
  | writeBlock base values =>
      by_cases negative : base < 0
      · simp [attempt, Abstract.attempt, Memory.writeBlock_eq, negative, Performed.view,
          Except.map]
      · have stored := @Memory.storeBlock_eq_of_ne_error machine.memory base.toNat values
          fun tight full => fits (isTight_perform (by
            simp only [attempt, Memory.writeBlock_eq, if_neg negative, full]
            rfl) rfl)
        simp [attempt, Abstract.attempt, Memory.writeBlock_eq, negative, stored, Performed.view,
          Except.map, view_setBlock]
  | clear => simp [attempt, Abstract.attempt, Performed.view, view, Abstract.clear]
  | dump start count =>
      simp only [attempt, Abstract.attempt, Memory.dump_eq]
      by_cases empty : count ≤ 0
      · simp [empty, Performed.view, Except.map]
      · by_cases negative : start < 0
        · simp [empty, negative, Performed.view, Except.map]
        · simp [empty, negative, Performed.view, Except.map, view]
  | load data base => exact view_attempt_load ports data base env fits
  | loadText text fresh base => exact view_attempt_loadText ports text fresh base env fits
  | reset => simp [attempt, Abstract.attempt, Performed.view, view_reset]
  | stage codes => rfl
  | clearStaged => rfl
  | step =>
      have roomy : ¬(machine.step ports env).IsTight := by
        rintro ⟨tight, failed⟩
        have told : (machine.attempt ports .step env).reply = .error (.step (.storage tight)) := by
          simp only [attempt, failed, stepReply]
        exact fits (isTight_perform told rfl)
      simp only [attempt, Abstract.attempt, ← view_step_of_fits ports env roomy]
      rfl
  | run fuel =>
      have roomy : ∀ tight, (machine.run ports fuel env).ending ≠ .failed (.storage tight) := by
        intro tight failed
        have told : (machine.attempt ports (.run fuel) env).reply =
            .error (.step (.storage tight)) := by
          simp only [attempt, failed, runReply]
        exact fits (isTight_perform told rfl)
      have shown := @view_advance_of_fits σ ports halted Abstract.halted (fun _ => rfl) fuel 0
        machine env roomy
      simp only [attempt, Abstract.attempt, ← shown]
      rfl

@[simp] theorem room_install (machine : Machine) (base : Nat) (values : List Int) :
    (machine.install base values).2.memory.room = machine.memory.room :=
  Memory.room_storeBlock machine.memory base values

/-- An operation does not change the room a machine lives in. -/
theorem room_perform (ports : Ports σ) (operation : Operation) (machine : Machine) (env : σ) :
    (machine.perform ports operation env).machine.memory.room = machine.memory.room := by
  cases operation with
  | write location value =>
      change (machine.memory.write location value).2.room = _
      rw [Memory.write_eq]
      split
      · rfl
      · exact Memory.room_store _ _ _
  | writeBlock base values =>
      change (machine.memory.writeBlock base values).2.room = _
      rw [Memory.writeBlock_eq]
      split
      · rfl
      · exact Memory.room_storeBlock _ _ _
  | load data base =>
      change (machine.loadData data base).2.memory.room = _
      unfold loadData
      split
      · rfl
      · split
        · rfl
        · exact room_install _ _ _
  | loadText text fresh base =>
      change (machine.loadText text fresh base).2.memory.room = _
      unfold loadText
      split
      · rfl
      · split
        · rfl
        · cases fresh <;> exact room_install _ _ _
  | step => exact room_step ports machine env
  | run fuel => exact room_advance ports halted fuel 0 machine env
  | _ => rfl

theorem not_isTight_perform {machine : Machine} (unlimited : machine.memory.room = .unlimited)
    (ports : Ports σ) (operation : Operation) (env : σ) :
    ¬(machine.perform ports operation env).IsTight := by
  rintro ⟨tight, failed⟩
  have cleared : machine.reset.memory.room = .unlimited := unlimited
  change (machine.attempt ports operation env).reply.mapError Complaint.fault = _ at failed
  cases operation with
  | read location =>
      rw [attempt, Memory.read_eq] at failed
      split at failed <;> simp [Except.map, Complaint.fault] at failed
  | write location value =>
      simp only [attempt, Memory.write_of_unlimited unlimited] at failed
      split at failed <;> simp [Except.map, Complaint.fault, Fault.ofWrite] at failed
  | writeBlock base values =>
      simp only [attempt, Memory.writeBlock_of_unlimited unlimited] at failed
      split at failed <;> simp [Except.map, Complaint.fault, Fault.ofWrite] at failed
  | dump start count =>
      simp only [attempt, Memory.dump_eq] at failed
      split at failed
      · simp [Except.map] at failed
      · split at failed <;> simp [Except.map, Complaint.fault] at failed
  | load data base =>
      simp only [attempt, loadData, loadBase] at failed
      by_cases negative : base < 0
      · simp [negative, Except.map, Complaint.fault, Fault.ofLoad] at failed
      · cases read : Datum.integers data with
        | error fault => simp [negative, read, Except.map, Complaint.fault, Fault.ofLoad] at failed
        | ok values =>
            simp [negative, read, install_of_unlimited cleared, Except.map] at failed
  | loadText text fresh base =>
      simp only [attempt, loadText, loadBase] at failed
      by_cases negative : base < 0
      · simp [negative, Except.map, Complaint.fault, Fault.ofLoad] at failed
      · cases read : Program.read text with
        | error fault => simp [negative, read, Except.map, Complaint.fault, Fault.ofLoad] at failed
        | ok values =>
            have room : (if fresh then machine.reset else machine).memory.room = .unlimited := by
              split
              · exact cleared
              · exact unlimited
            simp [negative, read, install_of_unlimited room, Except.map] at failed
  | step =>
      refine stepReply_ne (fun blamed => ?_) failed
      exact not_isTight_step unlimited ports env ⟨tight, blamed⟩
  | run fuel =>
      exact runReply_ne (ending_advance_ne ports halted fuel 0 unlimited env tight) failed
  | clear | reset | stage codes | clearStaged => cases failed

end Machine

namespace Abstract

theorem fault_step_ne (ports : Ports σ) (machine : Abstract) (env : σ) (tight : StorageFault) :
    (machine.step ports env).fault ≠ some (.storage tight) := by
  intro failed
  unfold step at failed
  dsimp only at failed
  repeat' split at failed
  all_goals cases failed

theorem ending_advance_ne (ports : Ports σ) (stop : Abstract → Bool) (fuel steps : Nat)
    (machine : Abstract) (env : σ) (tight : StorageFault) :
    (advance ports stop fuel steps machine env).ending ≠ .failed (.storage tight) := by
  induction fuel generalizing steps machine env with
  | zero =>
      simp only [advance]
      split <;> exact Machine.Ending.noConfusion
  | succ fuel ih =>
      have roomy := fault_step_ne ports machine env tight
      unfold advance
      split
      · exact Machine.Ending.noConfusion
      · split
        · exact ih (steps + 1) _ _
        next stepped =>
          rw [stepped] at roomy
          rintro failed
          cases failed
          exact roomy rfl

theorem reply_attempt_ne (ports : Ports σ) (operation : Operation) (machine : Abstract) (env : σ)
    (tight : StorageFault) :
    (machine.attempt ports operation env).reply.mapError Complaint.fault ≠
      .error (.storage tight) := by
  intro failed
  cases operation with
  | read location =>
      rw [attempt, read] at failed
      split at failed <;> simp [Except.map, Complaint.fault] at failed
  | write location value =>
      rw [attempt] at failed
      split at failed <;> simp [Complaint.fault, Fault.ofWrite] at failed
  | writeBlock base values =>
      rw [attempt] at failed
      split at failed <;> simp [Complaint.fault, Fault.ofWrite] at failed
  | dump start count =>
      rw [attempt] at failed
      repeat' split at failed
      all_goals simp [Complaint.fault] at failed
  | load data base =>
      rw [attempt] at failed
      repeat' split at failed
      all_goals simp [Complaint.fault, Fault.ofLoad] at failed
  | loadText text fresh base =>
      rw [attempt] at failed
      repeat' split at failed
      all_goals simp [Complaint.fault, Fault.ofLoad] at failed
  | step => exact stepReply_ne (fault_step_ne ports machine env tight) failed
  | run fuel => exact runReply_ne (ending_advance_ne ports halted fuel 0 machine env tight) failed
  | clear | reset | stage codes | clearStaged => cases failed

/-- The reply of the abstract machine never is about room, and never about a complaint. -/
theorem reply_perform (ports : Ports σ) (operation : Operation) (machine : Abstract) (env : σ) :
    ¬(machine.perform ports operation env).IsTight ∧
      (machine.perform ports operation env).reply ≠ .error .unwritable := by
  have fits := reply_attempt_ne ports operation machine env
  have told : (machine.perform ports operation env).reply =
      (machine.attempt ports operation env).reply.mapError Complaint.meant := rfl
  rw [Performed.IsTight, told]
  cases answered : (machine.attempt ports operation env).reply with
  | ok answer =>
      constructor
      · rintro ⟨tight, failed⟩
        cases failed
      · intro failed
        cases failed
  | error complaint =>
      rw [answered] at fits
      refine ⟨?_, fun same => complaint.meant_ne_unwritable (Except.error.inj same)⟩
      rintro ⟨tight, failed⟩
      refine fits tight (congrArg Except.error ?_)
      rw [← complaint.written_meant, Except.error.inj failed]
      rfl

end Abstract

namespace Machine

/-! ## Histories -/

/-- An operation shows as the same operation of the abstract machine, with its complaint as it can
be written, exactly if it finds room. -/
theorem view_perform_iff (ports : Ports σ) (operation : Operation) (machine : Machine) (env : σ) :
    (machine.perform ports operation env).view =
        (machine.view.perform ports operation env).mapError .written ↔
      ¬(machine.perform ports operation env).IsTight := by
  have written : (machine.view.perform ports operation env).mapError .written =
      (machine.view.attempt ports operation env).mapError Complaint.fault := by
    unfold Abstract.perform Performed.mapError
    cases (machine.view.attempt ports operation env).reply with
    | ok answer => rfl
    | error complaint => simp [Complaint.written_meant]
  rw [written]
  constructor
  · rintro same ⟨tight, failed⟩
    refine Abstract.reply_attempt_ne ports operation machine.view env tight ?_
    rw [← failed]
    exact congrArg Performed.reply same.symm
  · intro fits
    rw [← view_attempt ports operation env fits]
    rfl

/-- An operation shows just as the same operation of the abstract machine exactly if it finds room
and its complaint can be written. -/
theorem view_perform_eq_iff (ports : Ports σ) (operation : Operation) (machine : Machine)
    (env : σ) :
    (machine.perform ports operation env).view = machine.view.perform ports operation env ↔
      ¬(machine.perform ports operation env).IsTight ∧
        (machine.perform ports operation env).reply ≠ .error .unwritable := by
  constructor
  · intro same
    have replied : (machine.perform ports operation env).reply =
        (machine.view.perform ports operation env).reply := congrArg Performed.reply same
    rw [Performed.IsTight, replied]
    exact Abstract.reply_perform ports operation machine.view env
  · rintro ⟨fits, writable⟩
    have shown := (view_perform_iff ports operation machine env).mpr fits
    have replied : (machine.perform ports operation env).view.reply = _ :=
      congrArg Performed.reply shown
    change (machine.perform ports operation env).reply =
      (machine.view.perform ports operation env).reply.mapError .written at replied
    rw [shown]
    rw [replied] at writable
    unfold Performed.mapError
    cases answered : (machine.view.perform ports operation env).reply with
    | ok answer => rw [mapError_ok, ← answered]
    | error fault =>
        rw [answered] at writable
        rcases fault.written_eq with same | unwritable
        · rw [mapError_error, same, ← answered]
        · rw [mapError_error, unwritable] at writable
          exact absurd rfl writable

/-- Two histories are the same, with errors changed, if every operation does the same. -/
theorem map_view_history_iff {ports : Ports σ} {change : Fault → Fault}
    {same : Performed Fault Machine σ → Prop}
    (head : ∀ operation machine env,
      (perform ports operation machine env).view =
          (Abstract.perform ports operation machine.view env).mapError change ↔
        same (perform ports operation machine env))
    (operations : List Operation) (machine : Machine) (env : σ) :
    (history (perform ports) operations machine env).map Performed.view =
        (history (Abstract.perform ports) operations machine.view env).map
          (Performed.mapError change) ↔
      ∀ performed ∈ history (perform ports) operations machine env, same performed := by
  induction operations generalizing machine env with
  | nil => simp [history]
  | cons operation operations ih =>
      simp only [history, List.map_cons, List.cons.injEq, List.forall_mem_cons, ← head]
      refine and_congr_right fun shown => ?_
      -- Where the first operation shows the same, both go on from the same machine.
      have machines : (perform ports operation machine env).machine.view =
          (Abstract.perform ports operation machine.view env).machine :=
        congrArg Performed.machine shown
      have envs : (perform ports operation machine env).env =
          (Abstract.perform ports operation machine.view env).env :=
        congrArg Performed.env shown
      rw [← machines, ← envs]
      exact ih _ _

/-- In unlimited room no operation of a history finds its room too small. -/
theorem not_isTight_history (ports : Ports σ) (operations : List Operation) {machine : Machine}
    (unlimited : machine.memory.room = .unlimited) (env : σ) :
    ∀ performed ∈ history (perform ports) operations machine env, ¬performed.IsTight := by
  induction operations generalizing machine env with
  | nil => simp [history]
  | cons operation operations ih =>
      rw [history, List.forall_mem_cons]
      exact ⟨not_isTight_perform unlimited ports operation env,
        ih ((room_perform ports operation machine env).trans unlimited) _⟩

theorem view_within (width : Nat) (room : Room) :
    ((ofWidth width).within room).view = .blank width := by
  have cells : ((ofWidth width).within room).memory.get = fun _ => 0 := by
    funext address
    exact Memory.get_empty width address
  unfold view
  rw [cells]
  rfl

/-- Two machines that are the same but for zeros at the ends of their buffers and for their room. -/
structure SameUpToZeros (left right : Machine) : Prop where
  width : left.memory.width = right.memory.width
  pc : left.pc = right.pc
  staged : left.staged = right.staged
  cells : ∃ (common : Array Int) (leftZeros rightZeros : Nat),
    left.memory.cells = common ++ Array.replicate leftZeros 0 ∧
      right.memory.cells = common ++ Array.replicate rightZeros 0

theorem SameUpToZeros.view_eq {left right : Machine} (same : SameUpToZeros left right) :
    left.view = right.view := by
  obtain ⟨common, leftZeros, rightZeros, leftCells, rightCells⟩ := same.cells
  have cells : left.memory.get = right.memory.get := by
    funext address
    unfold Memory.get
    rw [leftCells, rightCells, Memory.getD_append_zeros, Memory.getD_append_zeros]
  unfold view
  rw [same.width, same.pc, same.staged, cells]

/-- A machine refines the abstract machine, from a new one on. Whatever is done with it, in any room
and with any ports: its history shows as that of the abstract machine, replies, faults, cells,
program counter, staged codes and environment, exactly if no operation finds its room too small and
no complaint has too many digits to be written; and it shows so with these complaints replaced,
exactly if no operation finds its room too small. As the operations are any, this says of every
beginning of a history too that it shows so up to the first operation without room, and in unlimited
room there is none. Two machines that are the same but for zeros at the ends of their buffers are
not told apart by any operations that find room. The environment is any, so it may record the codes
that were emitted and count the calls of the source. -/
theorem history_refines_abstract (ports : Ports σ) (operations : List Operation) (env : σ) :
    (∀ width room, ((ofWidth width).within room).view = .blank width) ∧
    (∀ machine : Machine,
      let done := history (perform ports) operations machine env
      let meant := history (Abstract.perform ports) operations machine.view env
      (done.map Performed.view = meant ↔
        ∀ performed ∈ done, ¬performed.IsTight ∧ performed.reply ≠ .error .unwritable) ∧
      (done.map Performed.view = meant.map (Performed.mapError Fault.written) ↔
        ∀ performed ∈ done, ¬performed.IsTight) ∧
      (machine.memory.room = .unlimited → ∀ performed ∈ done, ¬performed.IsTight)) ∧
    ∀ left right : Machine, SameUpToZeros left right →
      (∀ performed ∈ history (perform ports) operations left env, ¬performed.IsTight) →
      (∀ performed ∈ history (perform ports) operations right env, ¬performed.IsTight) →
      (history (perform ports) operations left env).map Performed.view =
        (history (perform ports) operations right env).map Performed.view := by
  refine ⟨view_within, fun machine => ⟨?_, ?_, ?_⟩, ?_⟩
  · have unchanged : (Performed.mapError id : Performed Fault Abstract σ → _) = id :=
      funext Performed.mapError_id
    have exactly := @map_view_history_iff σ ports id
      (fun performed => ¬performed.IsTight ∧ performed.reply ≠ .error .unwritable)
      (by
        rw [unchanged]
        exact view_perform_eq_iff ports)
      operations machine env
    rwa [unchanged, List.map_id] at exactly
  · exact map_view_history_iff (view_perform_iff ports) operations machine env
  · exact fun unlimited => not_isTight_history ports operations unlimited env
  · intro left right same leftFits rightFits
    rw [(map_view_history_iff (view_perform_iff ports) operations left env).mpr leftFits,
      (map_view_history_iff (view_perform_iff ports) operations right env).mpr rightFits,
      same.view_eq]

/-- A program that emits one code, with zeros behind it. -/
def padded (zeros : Nat) : Machine where
  memory :=
    { width := 16, cells := #[3, -1, 3, 72] ++ Array.replicate zeros 0, room := .ordinary }

/-- Makes the second operand of the second instruction wrap to `-2`, and executes both. -/
def probe : List Operation := [.step, .write 4 65534, .read (-7), .dump 2 3, .step]

theorem history_refines_abstract_padded :
    let done := history (perform Tape.ports) probe (padded 0) {}
    SameUpToZeros (padded 0) (padded 2) ∧
      done.map (·.reply) =
        [.ok .nothing, .ok .nothing, .error (.address (.cell (-7))), .ok (.values [3, 72, -2]),
          .error (.address (.operand .b (-2) 3))] ∧
      done.map (·.machine.pc) = [3, 3, 3, 3, 3] ∧
      done.map (·.env.outputs) = [#[72], #[72], #[72], #[72], #[72]] ∧
      done.map Performed.view = history (Abstract.perform Tape.ports) probe (padded 0).view {} ∧
      done.map Performed.view =
        (history (perform Tape.ports) probe (padded 2) {}).map Performed.view := by
  have same : SameUpToZeros (padded 0) (padded 2) :=
    { width := rfl, pc := rfl, staged := rfl, cells := ⟨#[3, -1, 3, 72], 0, 2, rfl, rfl⟩ }
  let replies : List (Except Fault Answer) :=
    [.ok .nothing, .ok .nothing, .error (.address (.cell (-7))), .ok (.values [3, 72, -2]),
      .error (.address (.operand .b (-2) 3))]
  obtain ⟨counters, outputs, cellWritable, operandWritable⟩ :
      (history (perform Tape.ports) probe (padded 0) {}).map (·.machine.pc) = [3, 3, 3, 3, 3] ∧
      (history (perform Tape.ports) probe (padded 0) {}).map (·.env.outputs) =
        [#[72], #[72], #[72], #[72], #[72]] ∧
      (AddressFault.cell (-7)).isWritable = true ∧
      (AddressFault.operand .b (-2) 3).isWritable = true := by decide +kernel
  have written : [.ok .nothing, .ok .nothing, .error (.ofAddress (.cell (-7))),
      .ok (.values [3, 72, -2]), .error (.ofAddress (.operand .b (-2) 3))] = replies := by
    simp [replies, Fault.ofAddress, cellWritable, operandWritable]
  have short : (history (perform Tape.ports) probe (padded 0) {}).map (·.reply) = replies :=
    Eq.trans rfl written
  have long : (history (perform Tape.ports) probe (padded 2) {}).map (·.reply) = replies :=
    Eq.trans rfl written
  have plain : ∀ reply ∈ replies,
      (¬∃ tight, reply = .error (.storage tight)) ∧ reply ≠ .error .unwritable := by
    simp [replies]
  obtain ⟨-, refines, together⟩ := history_refines_abstract Tape.ports probe {}
  refine ⟨same, short, counters, outputs, ?_, ?_⟩
  · refine (refines (padded 0)).1.mpr fun performed member => ?_
    exact plain _ (short ▸ List.mem_map_of_mem member)
  · refine together (padded 0) (padded 2) same (fun performed member => ?_)
      fun performed member => ?_
    · exact (plain _ (short ▸ List.mem_map_of_mem member)).1
    · exact (plain _ (long ▸ List.mem_map_of_mem member)).1

theorem reply_perform_write (ports : Ports σ) (machine : Machine) (env : σ) {location : Int}
    (negative : location < 0) (value : Int) :
    (machine.perform ports (.write location value) env).reply =
        .error (.ofAddress (.cell location)) ∧
      (machine.view.perform ports (.write location value) env).reply =
        .error (.address (.cell location)) := by
  constructor
  · change Except.mapError _ (Except.mapError _ (Except.map _ (machine.memory.write _ _).1)) = _
    rw [Memory.write_eq, if_pos negative]
    rfl
  · change Except.mapError _ (machine.view.attempt ports (.write location value) env).reply = _
    rw [Abstract.attempt, if_pos negative]
    rfl

/-- Loads an instruction that reads into a cell which no buffer reaches, and executes it. -/
def farInput : List Operation :=
  [.load [.integer (-1), .integer 18446744073709551616, .integer 3] 0, .stage [97, 98], .step]

/-- A machine with cells of 70 bits loses a code that it reads into a far cell; and an address may
have too many digits for the complaint about it. -/
theorem history_parts_from_abstract :
    let machine := (ofWidth 70).within .ordinary
    let done := history (perform Tape.ports) farInput machine {}
    let meant := history (Abstract.perform Tape.ports) farInput machine.view {}
    (done.map (·.reply) = [.ok (.count 3), .ok .nothing, .error (.storage .indexTooLarge)] ∧
      meant.map (·.reply) = [.ok (.count 3), .ok .nothing, .ok .nothing] ∧
      done.map (·.machine.pc) = [0, 0, 0] ∧ meant.map (·.machine.pc) = [0, 0, 3] ∧
      done.map (·.machine.pending) = [0, 2, 1] ∧
      done.map (·.machine.memory.get 18446744073709551616) = [0, 0, 0] ∧
      meant.map (·.machine.cell 18446744073709551616) = [0, 0, 97] ∧
      done.map Performed.view ≠ meant) ∧
    (machine.perform Tape.ports (.write (-Nat.pow 10 4300) 0) {}).reply = .error .unwritable ∧
    (machine.view.perform Tape.ports (.write (-Nat.pow 10 4300) 0) {}).reply =
      .error (.address (.cell (-Nat.pow 10 4300))) := by
  intro machine done meant
  obtain ⟨⟨doneCounters, meantCounters, pending, doneCells, meantCells⟩, negative, unwritable⟩ :
      (done.map (·.machine.pc) = [0, 0, 0] ∧ meant.map (·.machine.pc) = [0, 0, 3] ∧
        done.map (·.machine.pending) = [0, 2, 1] ∧
        done.map (·.machine.memory.get 18446744073709551616) = [0, 0, 0] ∧
        meant.map (·.machine.cell 18446744073709551616) = [0, 0, 97]) ∧
      -(Nat.pow 10 4300 : Int) < 0 ∧
      (AddressFault.cell (-Nat.pow 10 4300)).isWritable = false := by decide +kernel
  have parts : done.map Performed.view ≠ meant := by
    intro same
    have counters := congrArg (List.map (·.machine.pc)) same
    rw [List.map_map, meantCounters] at counters
    exact absurd (doneCounters.symm.trans counters) (by decide)
  obtain ⟨refused, blamed⟩ := reply_perform_write Tape.ports machine {} negative 0
  have doneReplies : (history (perform Tape.ports) farInput ((ofWidth 70).within .ordinary) {}).map
      (·.reply) = [.ok (.count 3), .ok .nothing, .error (.storage .indexTooLarge)] := by rfl
  have meantReplies : (history (Abstract.perform Tape.ports) farInput
      ((ofWidth 70).within .ordinary).view {}).map (·.reply) =
      [.ok (.count 3), .ok .nothing, .ok .nothing] := by rfl
  refine ⟨⟨doneReplies, meantReplies, doneCounters, meantCounters, pending, doneCells, meantCells,
    parts⟩, ?_, blamed⟩
  rw [refused, Fault.ofAddress, unwritable]
  rfl

end Machine

end Subleq
