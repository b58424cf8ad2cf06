import Mathlib.Data.List.Nodup
import Subleq.Proofs.Host.Queue
import Subleq.Proofs.Machine.Leftovers
import Subleq.Proofs.Machine.Loads

/-!
# The table of a host

A host hands out ascending numbers, and its machines stand in the order of their numbers, each of
them once, with a name for each of them. What a call does to the machines is said once: it leaves a
machine, treats it, or adds one that was just booted under the next number. From that follows what
is staged on the machines: nothing, unless a line was sent to a machine that ended in a way which
keeps the rest of the line.
-/

namespace Subleq

/-- Whether a fault that ends an evaluation leaves the rest of the text staged. -/
def Fault.leavesInput : Fault → Bool
  | .unwritable | .storage _ | .outOfFuel => true
  | _ => false

namespace Host

/-! ## What a call does -/

theorem unfailing_ports (pid : Int) : (ports pid).Unfailing :=
  ⟨fun _ => ⟨_, _, rfl⟩, fun _ _ => ⟨_, rfl⟩⟩

/-- What a call does to the machine it is addressed to, and how it is answered, if it is one that
works on a machine. -/
def treat (fuel : Nat) (queue : OutputQueue) (pid : Int) (machine : Machine) :
    Call → Option (Except Fault Nat × Machine)
  | .send _ line =>
      let progress := machine.eval (ports pid) fuel defaultTerminator line queue
      some (Bench.outcome progress, progress.machine)
  | .run _ =>
      let progress := machine.run (ports pid) fuel queue
      some (Bench.outcome progress, progress.machine)
  | .loadText _ text fresh base =>
      let (result, after) := machine.loadText text fresh base
      some (result.mapError .ofLoad, after)
  | .loadImage _ image =>
      let (result, after) := machine.loadData image 0
      some (result.mapError .ofLoad, after)
  | _ => none

/-- A machine as a creation leaves it: built with the width and the room of the host, and loaded. -/
def Boots (host : Host) (machine : Machine) : Prop :=
  2 ≤ host.bits ∧ ∃ data,
    machine = (((Machine.ofWidth host.bits.toNat).within host.room).loadData data 0).2

/-- A machine of the host after work on one was there before, or the work was done on it. -/
theorem mem_machines_update {host : Host} {pid : Int}
    {work : Bench OutputQueue → Except Fault Nat × Bench OutputQueue} {hosted : Hosted}
    (member : hosted ∈ (host.update pid work).2.machines) :
    hosted ∈ host.machines ∨
      ∃ before ∈ host.machines, before.pid = hosted.pid ∧ hosted.pid = pid ∧
      let worked := work { machine := before.machine, env := host.queue, journal := host.journal }
      (host.update pid work).1 = worked.1 ∧ hosted.machine = worked.2.machine := by
  unfold update at member ⊢
  cases found : host.find? pid with
  | none =>
      rw [found] at member
      exact Or.inl member
  | some before =>
      rw [found] at member
      obtain ⟨old, there, rfl⟩ := List.mem_map.mp member
      have own : before.pid = pid := by simpa using List.find?_some found
      by_cases same : old.pid = pid
      · right
        refine ⟨before, List.mem_of_find?_eq_some found, ?_⟩
        simp [same, own]
      · left
        simpa [same] using there

/-- A machine is one that was there before, treated by a call. -/
def Treated (fuel : Nat) (host : Host) (call : Call) (hosted : Hosted) : Prop :=
  ∃ before ∈ host.machines, before.pid = hosted.pid ∧
    call.addressee host.nextPid = some hosted.pid ∧
    ∃ result, treat fuel host.queue hosted.pid before.machine call = some (result, hosted.machine) ∧
      (host.perform fuel call).1 = result.map .count

/-- What a call does to the machines that works on one of them. -/
theorem treated_of_update {fuel : Nat} {host : Host} {call : Call} {pid : Int}
    (work : Bench OutputQueue → Except Fault Nat × Bench OutputQueue)
    (addressed : call.addressee host.nextPid = some pid)
    (performed : host.perform fuel call =
      ((host.update pid work).1.map .count, (host.update pid work).2))
    (treats : ∀ machine,
      let worked := work { machine, env := host.queue, journal := host.journal }
      treat fuel host.queue pid machine call = some (worked.1, worked.2.machine))
    {hosted : Hosted} (member : hosted ∈ (host.perform fuel call).2.machines) :
    hosted ∈ host.machines ∨ Treated fuel host call hosted := by
  rw [performed] at member
  rcases mem_machines_update member with there | ⟨before, there, same, rfl, answered, machine⟩
  · exact Or.inl there
  · right
    refine ⟨before, there, same, addressed, (host.update hosted.pid work).1, ?_, ?_⟩
    · rw [answered, machine]
      exact treats before.machine
    · rw [performed]

/-- A creation boots a machine that was built with the settings of the host. -/
theorem boots_of_boot {host : Host} {config : Config OutputQueue} {pid : Int} {journal : Journal}
    {image : BootImage} {result : Except Fault Nat} {bench : Bench OutputQueue}
    (built : host.config pid = .ok config)
    (booted : boot { machine := config.machine.within host.room, env := #[], journal } image =
      (result, bench)) : host.Boots bench.machine := by
  unfold Host.config Config.ofParts at built
  dsimp only at built
  split at built
  · cases built
  next wide =>
    cases built
    rw [show bench = (result, bench).2 from rfl, ← booted]
    refine ⟨Int.not_lt.mp wide, ?_⟩
    cases image with
    | monitor =>
        rw [boot, Bench.loadMonitor, Bench.load]
        generalize Monitor.image = values
        refine ⟨values.map .integer, ?_⟩
        rw [← Machine.load_eq_loadData]
        exact congrArg Prod.snd (Bench.loaded_eq _ _ _)
    | data image => exact ⟨image, congrArg Prod.snd (Bench.loaded_eq _ _ _)⟩

/-- A machine of the host after a call was there before, or was treated, or is a new machine under
the number that was next. -/
theorem mem_machines_perform {fuel : Nat} {host : Host} {call : Call} {hosted : Hosted}
    (member : hosted ∈ (host.perform fuel call).2.machines) :
    hosted ∈ host.machines ∨ Treated fuel host call hosted ∨
      hosted.pid = host.nextPid ∧ host.Boots hosted.machine := by
  cases call with
  | create name image =>
      simp only [perform, create] at member
      split at member
      · exact Or.inl member
      next config built =>
        split at member
        next => exact Or.inl member
        next count bench booted =>
          rcases List.mem_append.mp member with there | new
          · exact Or.inl there
          · right
            right
            rw [List.mem_singleton.mp new]
            exact ⟨rfl, boots_of_boot built booted⟩
  | kill pid => exact Or.inl (List.mem_filter.mp member).1
  | send pid line =>
      refine (treated_of_update (·.eval (ports pid) fuel defaultTerminator line) rfl rfl ?_
        member).imp_right Or.inl
      intro machine
      exact congrArg some (Bench.eval_eq { machine, env := host.queue, journal := host.journal }
        (ports pid) fuel defaultTerminator line).symm
  | loadText pid text fresh base =>
      refine (treated_of_update (·.loadText text fresh base) rfl rfl ?_ member).imp_right Or.inl
      intro machine
      exact congrArg some (Bench.loaded_eq _ _ _).symm
  | loadImage pid image =>
      refine (treated_of_update (·.loadData image 0) rfl rfl ?_ member).imp_right Or.inl
      intro machine
      exact congrArg some (Bench.loaded_eq _ _ _).symm
  | run pid =>
      refine (treated_of_update (·.run (ports pid) fuel) rfl rfl ?_ member).imp_right Or.inl
      intro machine
      exact congrArg some (Bench.run_eq { machine, env := host.queue, journal := host.journal }
        (ports pid) fuel).symm
  | output pid text => exact Or.inl member
  | list => exact Or.inl member

/-- A machine in bounds is still so when it was treated. -/
theorem inBounds_of_treat {fuel : Nat} {queue : OutputQueue} {pid : Int} {machine after : Machine}
    {call : Call} {result : Except Fault Nat} {width : Nat}
    (treats : treat fuel queue pid machine call = some (result, after)) (positive : 0 < width)
    (bounds : machine.InBounds width) : after.InBounds width := by
  cases call with
  | send _ line =>
      cases treats
      exact (bounds.eval positive (ports pid) fuel defaultTerminator line queue).1.inBounds
  | run _ =>
      cases treats
      exact (Machine.InBounds.advance positive (ports pid) Machine.halted fuel 0 bounds
        queue).1.inBounds
  | loadText _ text fresh base =>
      cases treats
      exact bounds.loadText positive text fresh base
  | loadImage _ image =>
      cases treats
      exact bounds.loadData positive image 0
  | _ => cases treats

/-- A fault of a step that is neither of the machine's own kind nor of a port leaves input. -/
theorem leavesInput_of_not_isOwn {fault : Machine.StepFault} (foreign : fault.isOwn = false)
    (unported : ∀ bad, fault ≠ .port bad) : (Fault.ofMachine fault).leavesInput = true := by
  cases fault with
  | address bad =>
      rw [Machine.StepFault.isOwn] at foreign
      rw [Fault.ofMachine, Fault.ofAddress, if_neg (by simp [foreign])]
      rfl
  | port bad => exact absurd rfl (unported bad)
  | storage bad => rfl

/-- Nothing is staged on a machine after it was treated, if nothing was before, unless a line was
sent to it and ended by a fault that leaves input. -/
theorem staged_of_treat {fuel : Nat} {queue : OutputQueue} {pid : Int} {machine after : Machine}
    {call : Call} {result : Except Fault Nat}
    (treats : treat fuel queue pid machine call = some (result, after))
    (empty : machine.staged = []) :
    after.staged = [] ∨ ∃ other line fault, call = .send other line ∧ result = .error fault ∧
      fault.leavesInput = true := by
  cases call with
  | send other line =>
      cases treats
      rcases Machine.staged_eval (ports pid) fuel defaultTerminator line empty queue with
        none | ended | ⟨fault, ended, foreign⟩
      · exact Or.inl none
      · exact Or.inr ⟨other, line, .outOfFuel, rfl, by rw [Bench.outcome, ended], rfl⟩
      · refine Or.inr ⟨other, line, .ofMachine fault, rfl, by rw [Bench.outcome, ended], ?_⟩
        refine leavesInput_of_not_isOwn foreign ?_
        rintro bad rfl
        exact Machine.ending_eval_ne_port (unfailing_ports pid) fuel defaultTerminator line queue
          bad ended
  | run _ =>
      cases treats
      exact Or.inl (Machine.staged_advance (ports pid) Machine.halted fuel 0 empty queue)
  | loadText _ text fresh base =>
      cases treats
      exact Or.inl ((machine.staged_loadText text fresh base).trans empty)
  | loadImage _ image =>
      cases treats
      exact Or.inl ((machine.staged_loadData image 0).trans empty)
  | _ => cases treats

/-- A machine that was just booted is in bounds, and nothing is staged on it. -/
theorem Boots.spec {host : Host} {machine : Machine} (boots : host.Boots machine) :
    (∃ width, 0 < width ∧ machine.InBounds width) ∧ machine.staged = [] := by
  obtain ⟨wide, data, rfl⟩ := boots
  have positive : 0 < host.bits.toNat := by omega
  refine ⟨⟨host.bits.toNat, positive, ?_⟩, ?_⟩
  · exact (Machine.InBounds.ofWidth host.bits.toNat host.room).loadData positive data 0
  · exact Machine.staged_loadData _ data 0

/-- The number that an answer hands out, if it does. -/
def given : Except Fault Reply → List Int
  | .ok (.number pid) => [pid]
  | _ => []

theorem given_count (result : Except Fault Nat) : given (result.map .count) = [] := by
  cases result with
  | ok count => rfl
  | error fault => rfl

theorem pids_update {α : Type} (host : Host) (pid : Int)
    (work : Bench OutputQueue → Except Fault α × Bench OutputQueue) :
    (host.update pid work).2.pids = host.pids := by
  cases found : host.find? pid with
  | none =>
      unfold update
      rw [found]
  | some hosted => exact (update_spec host found work).2.1

theorem names_update {α : Type} (host : Host) (pid : Int)
    (work : Bench OutputQueue → Except Fault α × Bench OutputQueue) :
    (host.update pid work).2.names = host.names := by
  unfold update
  cases host.find? pid with
  | none => rfl
  | some hosted => rfl

/-- A call hands out no number and adds no machine, or it hands out the next number and adds a
machine that has it. -/
theorem numbers_perform (fuel : Nat) (host : Host) (call : Call) :
    let performed := host.perform fuel call
    given performed.1 = [] ∧ performed.2.pids.Sublist host.pids ∧
        host.nextPid ≤ performed.2.nextPid ∨
      given performed.1 = [host.nextPid] ∧ performed.2.pids = host.pids ++ [host.nextPid] ∧
        performed.2.nextPid = host.nextPid + 1 := by
  intro performed
  have later : host.nextPid ≤ performed.2.nextPid := by
    rw [perform_nextPid]
    exact call.le_following host.nextPid
  have worked {pid : Int} (work : Bench OutputQueue → Except Fault Nat × Bench OutputQueue)
      (same : performed = ((host.update pid work).1.map .count, (host.update pid work).2)) :
      given performed.1 = [] ∧ performed.2.pids.Sublist host.pids := by
    rw [same]
    exact ⟨given_count _, pids_update host pid work ▸ List.Sublist.refl _⟩
  cases call with
  | create name image =>
      obtain ⟨result, after, created, -, next, outcome⟩ := create_cases host name image
      simp only [performed, perform, created]
      rcases outcome with ⟨fault, rfl, same⟩ | ⟨rfl, added⟩
      · exact Or.inl ⟨rfl, same ▸ List.Sublist.refl _, by omega⟩
      · exact Or.inr ⟨rfl, added, next⟩
  | kill pid => exact Or.inl ⟨rfl, List.filter_sublist.map _, later⟩
  | send pid line =>
      obtain ⟨none, same⟩ := worked (·.eval (ports pid) fuel defaultTerminator line) rfl
      exact Or.inl ⟨none, same, later⟩
  | loadText pid text fresh base =>
      obtain ⟨none, same⟩ := worked (·.loadText text fresh base) rfl
      exact Or.inl ⟨none, same, later⟩
  | loadImage pid image =>
      obtain ⟨none, same⟩ := worked (·.loadData image 0) rfl
      exact Or.inl ⟨none, same, later⟩
  | run pid =>
      obtain ⟨none, same⟩ := worked (·.run (ports pid) fuel) rfl
      exact Or.inl ⟨none, same, later⟩
  | output pid text => exact Or.inl ⟨rfl, List.Sublist.refl _, later⟩
  | list => exact Or.inl ⟨rfl, List.Sublist.refl _, later⟩

/-- A creation that fails uses up a number and changes nothing else but the journal. -/
theorem create_of_error {host after : Host} {name : String} {image : BootImage} {fault : Fault}
    (failed : host.create name image = (.error fault, after)) :
    after = { host with nextPid := host.nextPid + 1, journal := after.journal } := by
  unfold create at failed
  dsimp only at failed
  split at failed
  · cases failed
    rfl
  · split at failed
    · cases failed
      rfl
    · cases failed

/-! ## Names -/

theorem named_perform {host : Host} (named : host.names.map Prod.fst = host.pids) (fuel : Nat)
    (call : Call) :
    (host.perform fuel call).2.names.map Prod.fst = (host.perform fuel call).2.pids := by
  have worked (pid : Int) (work : Bench OutputQueue → Except Fault Nat × Bench OutputQueue) :
      (host.update pid work).2.names.map Prod.fst = (host.update pid work).2.pids := by
    rw [pids_update, names_update, named]
  cases call with
  | create name image =>
      obtain ⟨added, -, -, created, -⟩ := create_alike name image rfl rfl (Eq.refl host.nextPid)
      change (host.create name image).2.names.map Prod.fst = (host.create name image).2.pids
      rw [pids, created.names, created.machines, List.map_append, List.map_append, named, pids,
        List.map_map, List.map_map]
      rfl
  | kill pid =>
      change (host.names.filter (·.1 != pid)).map Prod.fst = (host.machines.filter _).map _
      have left : (host.names.map Prod.fst).filter (· != pid) = _ := List.filter_map
      have right : host.pids.filter (· != pid) = _ := List.filter_map
      rw [named, right] at left
      exact left.symm
  | send pid line => exact worked pid (·.eval (ports pid) fuel defaultTerminator line)
  | loadText pid text fresh base => exact worked pid (·.loadText text fresh base)
  | loadImage pid image => exact worked pid (·.loadData image 0)
  | run pid => exact worked pid (·.run (ports pid) fuel)
  | output pid text => exact named
  | list => exact named

/-- A machine is listed with the name that is recorded for it. -/
theorem mem_names_of_mem_table {host : Host} (named : host.names.map Prod.fst = host.pids)
    {listed : Listed} (member : listed ∈ host.table) : (listed.pid, listed.name) ∈ host.names := by
  obtain ⟨hosted, there, rfl⟩ := List.mem_map.mp member
  have known : hosted.pid ∈ host.names.map Prod.fst := named ▸ List.mem_map_of_mem there
  obtain ⟨name, found⟩ := exists_lookup_of_mem known
  rw [nameOf, found]
  exact mem_of_lookup found

/-! ## Histories -/

/-- What is asked of a host. -/
inductive Request where
  | call (call : Call)
  | reset

/-- A host, and the calls since it was built or reset, with their answers. -/
structure History where
  host : Host
  record : List (Call × Except Fault Reply) := []

namespace History

/-- What is asked of a host is done and recorded; a reset begins a new record. -/
def ask (fuel : Nat) (history : History) : Request → History
  | .call call =>
      let (reply, host) := history.host.perform fuel call
      { host, record := history.record ++ [(call, reply)] }
  | .reset => { host := history.host.reset }

/-- What is asked of a host is done, one after the other. -/
def askAll (fuel : Nat) (requests : List Request) (history : History) : History :=
  requests.foldl (ask fuel) history

/-- The numbers that were handed out, in order. -/
def numbers (history : History) : List Int := history.record.flatMap (given ·.2)

/-- A line was sent to a machine and ended by a fault that leaves the rest of the line staged. -/
def Strands (history : History) (pid : Int) : Prop :=
  ∃ line fault, (.send pid line, .error fault) ∈ history.record ∧ fault.leavesInput = true

/-- What holds of a host at all times. -/
structure Orderly (history : History) : Prop where
  positive : 1 ≤ history.host.nextPid
  ascending : history.numbers.Pairwise (· < ·)
  range : ∀ pid ∈ history.numbers, 1 ≤ pid ∧ pid < history.host.nextPid
  listed : history.host.pids.Sublist history.numbers
  named : history.host.names.map Prod.fst = history.host.pids
  bounded : ∀ hosted ∈ history.host.machines,
    ∃ width, 0 < width ∧ hosted.machine.InBounds width
  staged : ∀ hosted ∈ history.host.machines,
    hosted.machine.staged = [] ∨ history.Strands hosted.pid

theorem record_call (fuel : Nat) (history : History) (call : Call) :
    (history.ask fuel (.call call)).record =
      history.record ++ [(call, (history.host.perform fuel call).1)] := rfl

theorem numbers_call (fuel : Nat) (history : History) (call : Call) :
    (history.ask fuel (.call call)).numbers =
      history.numbers ++ given (history.host.perform fuel call).1 := by
  simp [numbers, record_call]

theorem Strands.call {history : History} {pid : Int} (strands : history.Strands pid) (fuel : Nat)
    (call : Call) : (history.ask fuel (.call call)).Strands pid := by
  obtain ⟨line, fault, recorded, leaves⟩ := strands
  exact ⟨line, fault, List.mem_append_left _ recorded, leaves⟩

namespace Orderly

theorem fresh {host : Host} (empty : host.machines = []) (unnamed : host.names = [])
    (first : host.nextPid = 1) : Orderly { host } where
  positive := Int.le_of_eq first.symm
  ascending := List.Pairwise.nil
  range := by simp [numbers]
  listed := by simp [Host.pids, empty]
  named := by simp [Host.pids, empty, unnamed]
  bounded := by simp [empty]
  staged := by simp [empty]

theorem numbers_call {history : History} (orderly : history.Orderly) (fuel : Nat) (call : Call) :
    let after := history.ask fuel (.call call)
    1 ≤ after.host.nextPid ∧ after.numbers.Pairwise (· < ·) ∧
      (∀ pid ∈ after.numbers, 1 ≤ pid ∧ pid < after.host.nextPid) ∧
      after.host.pids.Sublist after.numbers := by
  intro after
  have positive := orderly.positive
  have numbers : after.numbers = history.numbers ++ given (history.host.perform fuel call).1 :=
    History.numbers_call fuel history call
  have host : after.host = (history.host.perform fuel call).2 := rfl
  rw [numbers, host]
  rcases numbers_perform fuel history.host call with ⟨none, fewer, later⟩ | ⟨new, added, next⟩
  · rw [none, List.append_nil]
    refine ⟨Int.le_trans positive later, orderly.ascending, ?_, fewer.trans orderly.listed⟩
    intro pid member
    obtain ⟨lower, upper⟩ := orderly.range pid member
    exact ⟨lower, Int.lt_of_lt_of_le upper later⟩
  · rw [new, added, next]
    refine ⟨by omega, ?_, ?_, orderly.listed.append (List.Sublist.refl _)⟩
    · rw [List.pairwise_append]
      refine ⟨orderly.ascending, List.pairwise_singleton _ _, ?_⟩
      intro pid member other last
      rw [List.mem_singleton.mp last]
      exact (orderly.range pid member).2
    · intro pid member
      rw [List.mem_append, List.mem_singleton] at member
      rcases member with early | rfl
      · have range := orderly.range pid early
        omega
      · omega

theorem call {history : History} (orderly : history.Orderly) (fuel : Nat) (call : Call) :
    (history.ask fuel (.call call)).Orderly := by
  obtain ⟨positive, ascending, range, listed⟩ := orderly.numbers_call fuel call
  refine ⟨positive, ascending, range, listed, named_perform orderly.named fuel call, ?_, ?_⟩
  · intro hosted member
    rcases mem_machines_perform member with
      there | ⟨before, there, -, -, result, treats, -⟩ | ⟨-, boots⟩
    · exact orderly.bounded hosted there
    · obtain ⟨width, wide, bounds⟩ := orderly.bounded before there
      exact ⟨width, wide, inBounds_of_treat treats wide bounds⟩
    · exact boots.spec.1
  · intro hosted member
    rcases mem_machines_perform member with
      there | ⟨before, there, same, addressed, result, treats, answered⟩ | ⟨-, boots⟩
    · exact (orderly.staged hosted there).imp_right fun strands => strands.call fuel call
    · rcases orderly.staged before there with empty | strands
      · refine (staged_of_treat treats empty).imp_right ?_
        rintro ⟨other, line, fault, rfl, rfl, leaves⟩
        have own : other = hosted.pid := Option.some.inj addressed
        refine ⟨line, fault, ?_, leaves⟩
        rw [record_call, answered, ← own]
        exact List.mem_append_right _ (List.mem_singleton_self _)
      · exact Or.inr (same ▸ strands.call fuel call)
    · exact Or.inl boots.spec.2

theorem askAll (fuel : Nat) (requests : List Request) {history : History}
    (orderly : history.Orderly) : (history.askAll fuel requests).Orderly := by
  induction requests generalizing history with
  | nil => exact orderly
  | cons request requests ih =>
      cases request with
      | call call => exact ih (orderly.call fuel call)
      | reset => exact ih (fresh rfl rfl rfl)

end Orderly

end History

/-! ## The table -/

theorem find?_of_mem {host : Host} (distinct : host.pids.Nodup) {hosted : Hosted}
    (member : hosted ∈ host.machines) : host.find? hosted.pid = some hosted := by
  obtain ⟨other, there, same, found⟩ := exists_find? (List.mem_map_of_mem member)
  rw [found, List.inj_on_of_nodup_map distinct there member same]

theorem leavesInput_of_isOwn {fault : Machine.StepFault} (own : fault.isOwn = true) :
    (Fault.ofMachine fault).leavesInput = false := by
  cases fault with
  | address bad =>
      rw [Machine.StepFault.isOwn] at own
      rw [Fault.ofMachine, Fault.ofAddress, if_pos own]
      rfl
  | port bad => rfl
  | storage bad => cases own

/-- A line that is sent to a machine of modest size leaves input only if it is out of fuel. -/
theorem outOfFuel_of_send {host : Host} {hosted : Hosted} {width : Nat} (positive : 0 < width)
    (bounds : hosted.machine.InBounds width) (modest : hosted.machine.memory.Modest)
    (found : host.find? hosted.pid = some hosted) {fuel : Nat} {line : String} {fault : Fault}
    (failed : (host.send fuel hosted.pid line).1 = .error fault)
    (leaves : fault.leavesInput = true) : fault = .outOfFuel := by
  have answered : (host.send fuel hosted.pid line).1 = Bench.outcome
      (hosted.machine.eval (ports hosted.pid) fuel defaultTerminator line host.queue) := by
    unfold send update
    rw [found]
    exact congrArg Prod.fst (Bench.eval_eq
      { machine := hosted.machine, env := host.queue, journal := host.journal }
      (ports hosted.pid) fuel defaultTerminator line)
  rw [answered, Bench.outcome] at failed
  split at failed
  next => cases failed
  next complaint ended =>
    cases failed
    have own := bounds.isOwn_of_eval positive (unfailing_ports hosted.pid) modest ended
    rw [leavesInput_of_isOwn own] at leaves
    cases leaves
  next => cases failed; rfl

/-- The table of a host, and what is staged on its machines. Take a host of any width in any room,
and any calls and resets, one after the other, however each of them ends, and look at the numbers
that were handed out since the host was built or reset. They ascend from one on, so none is handed
out twice, whatever was removed or has failed. The machines of the host stand in the order of their
numbers, each number leads to its one machine, the names are recorded under the same numbers, and
the list of machines has each of these numbers once, in order, with the name that is recorded for
it. The next creation hands out a new number, or it fails and changes nothing but the counter and
the journal.

Nothing is staged on a machine, so that a line or a program finds no character of an earlier line,
unless a line was sent to that machine and was out of fuel, or found no room for a cell, or the
complaint about it has too many digits to be written. A line that is sent to a machine of modest
size never ends in one of the last two ways. -/
theorem askAll_keeps_table (bits : Int) (room : Room) (journal : Journal) (fuel : Nat)
    (requests : List Request) :
    let history := History.askAll fuel requests { host := { bits, room, journal } }
    let host := history.host
    (history.numbers.Pairwise (· < ·) ∧
      ∀ pid ∈ history.numbers, 1 ≤ pid ∧ pid < host.nextPid) ∧
    (host.pids.Pairwise (· < ·) ∧ (∀ pid ∈ host.pids, pid ∈ history.numbers) ∧
      host.names.map Prod.fst = host.pids ∧ host.table.map (·.pid) = host.pids ∧
      (∀ listed ∈ host.table, (listed.pid, listed.name) ∈ host.names) ∧
      ∀ hosted ∈ host.machines, host.find? hosted.pid = some hosted) ∧
    (∀ name image,
      (∀ pid, (host.create name image).1 = .ok pid →
        pid = host.nextPid ∧ pid ∉ history.numbers) ∧
      ∀ fault after, host.create name image = (.error fault, after) →
        after = { host with nextPid := host.nextPid + 1, journal := after.journal }) ∧
    (∀ hosted ∈ host.machines, hosted.machine.staged = [] ∨
      ∃ line fault, (.send hosted.pid line, .error fault) ∈ history.record ∧
        fault.leavesInput = true) ∧
    ∀ hosted ∈ host.machines, hosted.machine.memory.Modest → ∀ line fault,
      (host.send fuel hosted.pid line).1 = .error fault → fault.leavesInput = true →
        fault = .outOfFuel := by
  intro history host
  have orderly : history.Orderly := .askAll fuel requests (.fresh rfl rfl rfl)
  have ascending : host.pids.Pairwise (· < ·) := orderly.ascending.sublist orderly.listed
  have distinct : host.pids.Nodup := ascending.imp Int.ne_of_lt
  refine ⟨⟨orderly.ascending, orderly.range⟩,
    ⟨ascending, ?_, orderly.named, host.pids_table, ?_, ?_⟩, ?_, orderly.staged, ?_⟩
  · exact fun pid member => orderly.listed.subset member
  · exact fun listed member => mem_names_of_mem_table orderly.named member
  · exact fun hosted member => find?_of_mem distinct member
  · intro name image
    refine ⟨?_, fun fault after failed => create_of_error failed⟩
    intro pid handed
    obtain ⟨result, after, created, -, -, outcome⟩ := create_cases host name image
    rw [created] at handed
    rcases outcome with ⟨fault, rfl, -⟩ | ⟨rfl, -⟩
    · cases handed
    · cases handed
      refine ⟨rfl, ?_⟩
      intro early
      exact absurd (orderly.range host.nextPid early).2 (Int.lt_irrefl _)
  · intro hosted member modest line fault failed leaves
    obtain ⟨width, positive, bounds⟩ := orderly.bounded hosted member
    exact outOfFuel_of_send positive bounds modest (find?_of_mem distinct member) failed leaves

/-- An image that reads codes and emits them. -/
def echoImage : List Int := [-1, 9, 3, 9, -1, 6, 10, 10, 0, 0, 0]

/-- A creation fails, a machine is made and removed, and another one is made and sent a line. -/
theorem askAll_keeps_table_removed :
    let image : BootImage := .data (echoImage.map .integer)
    let requests : List Request :=
      [.call (.create "" (.data [.nothing])), .call (.create "" image), .call (.kill 2),
        .call (.create "" image), .call (.send 3 "hi")]
    let history := History.askAll 20 requests { host := { bits := 16 } }
    history.numbers = [2, 3] ∧ history.host.pids = [3] ∧
      history.host.queue = #[(3, "h"), (3, "i"), (3, "\n")] ∧
      ∀ hosted ∈ history.host.machines, hosted.machine.memory.Modest ∧ hosted.machine.staged = [] ∧
        ∀ line fault, (history.host.send 20 hosted.pid line).1 = .error fault →
          fault.leavesInput = true → fault = .outOfFuel := by
  intro image requests history
  have sends := (askAll_keeps_table 16 .unlimited {} 20 requests).2.2.2.2
  -- Named in the facts as in the goal, so that no comparison of the two runs the requests.
  rw [show History.askAll 20 requests { host := { bits := 16 } } = history from rfl] at sends
  have checked : ∀ hosted ∈ history.host.machines, hosted.machine.memory.width = 16 ∧
      hosted.machine.memory.size = 11 ∧ hosted.machine.memory.room = .unlimited ∧
      hosted.machine.staged = [] := by
    decide +kernel
  refine ⟨by decide +kernel, by decide +kernel, by decide +kernel, ?_⟩
  intro hosted member
  obtain ⟨width, size, room, empty⟩ := checked hosted member
  have modest : hosted.machine.memory.Modest := by
    refine .of_unlimited (by omega) ?_ room
    rw [size]
    decide +kernel
  exact ⟨modest, empty, sends hosted member modest⟩

/-- An image that reads a code and goes on to an operand with too many digits to be written. -/
def strandingImage : List Int := [-1, 9, 3, 10, 6, 6, 1 - 10 ^ 4300, 0, 0, 0, 1]

/-- A program reads the rest of a line that was sent before the program was loaded. The evaluation
of `ab` fails after its first character because of an operand that is no address, and the complaint
about it cannot be written; a new program is loaded, and it answers `x` with the rest of `ab`. -/
theorem line_outlives_program :
    let requests : List Request :=
      [.call (.create "" (.data (strandingImage.map .integer))), .call (.send 1 "ab"),
        .call (.loadImage 1 (echoImage.map .integer)), .call (.send 1 "x")]
    let first : History := { host := { bits := 14300 } }
    (first.askAll 20 (requests.take 2)).host.machines.map (·.machine.staged) = [[98, 10]] ∧
      (first.askAll 20 requests).host.queue = #[(1, "b"), (1, "\n"), (1, "x"), (1, "\n")] := by
  decide +kernel

end Host

end Subleq
