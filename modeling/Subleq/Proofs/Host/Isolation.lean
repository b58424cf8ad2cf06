import Subleq.Host
import Subleq.Proofs.Basic
import Subleq.Proofs.Bench

/-!
# Machines of a host do not interfere

A host is called with creations, removals, lines, loads, runs and output; every call but the listing
is addressed to one machine, a creation to the machine whose number is next. Two hosts can be the
same for one machine: they have the same machine and the same name for it, and the same output of it
in their queues.
A call addressed to that machine is answered alike by both and keeps them so, and a call addressed
to another changes nothing for it, so that all other calls can be taken away.
-/

namespace Subleq.Host

/-! ## Calls -/

/-- A call of a host. -/
inductive Call where
  | create (name : String) (image : BootImage)
  | kill (pid : Int)
  | send (pid : Int) (line : String)
  | loadText (pid : Int) (text : String) (fresh : Bool) (base : Int)
  | loadImage (pid : Int) (image : List Datum)
  | run (pid : Int)
  | output (pid : Int) (text : String)
  | list

/-- What a call returns. -/
inductive Reply where
  | nothing
  | number (pid : Int)
  | count (count : Nat)
  | machines (table : List Listed)

def perform (fuel : Nat) (host : Host) : Call → Except Fault Reply × Host
  | .create name image =>
      let (result, host) := host.create name image
      (result.map .number, host)
  | .kill pid => (.ok .nothing, host.kill pid)
  | .send pid line =>
      let (result, host) := host.send fuel pid line
      (result.map .count, host)
  | .loadText pid text fresh base =>
      let (result, host) := host.loadText pid text fresh base
      (result.map .count, host)
  | .loadImage pid image =>
      let (result, host) := host.loadImage pid image
      (result.map .count, host)
  | .run pid =>
      let (result, host) := host.run fuel pid
      (result.map .count, host)
  | .output pid text => (.ok .nothing, host.output pid text)
  | .list => (.ok (.machines host.table), host)

namespace Call

/-- The machine that a call is addressed to, if the number `next` is handed out next. -/
def addressee (next : Int) : Call → Option Int
  | create _ _ => some next
  | kill pid => some pid
  | send pid _ => some pid
  | loadText pid _ _ _ => some pid
  | loadImage pid _ => some pid
  | run pid => some pid
  | output pid _ => some pid
  | list => none

/-- The number that is handed out after a call. -/
def following (next : Int) : Call → Int
  | create _ _ => next + 1
  | _ => next

/-- The calls that are left when those addressed to other machines are taken away. -/
def only (pid : Int) : (next : Int) → List Call → List Call
  | _, [] => []
  | next, call :: calls =>
      let others := only pid (call.following next) calls
      if call.addressee next = none ∨ call.addressee next = some pid then call :: others
      else others

theorem addressee_of_own {pid next other : Int} {call : Call} (own : call.addressee next = some pid)
    (ready : next ≤ pid → other = pid) : call.addressee other = some pid := by
  cases call with
  | create name image =>
      cases own
      exact congrArg some (ready (Int.le_refl _))
  | _ => exact own

/-- A number that is ready before a call stays ready, unless the call hands it out. -/
theorem ready_following {pid next other : Int} {call : Call} (own : call.addressee next = some pid)
    (ready : next ≤ pid → other = pid) (le : call.following next ≤ pid) :
    call.following other = pid := by
  cases call with
  | create name image =>
      cases own
      exact absurd le (by simp only [following]; omega)
  | list => cases own
  | _ => exact ready le

theorem le_following (call : Call) (next : Int) : next ≤ call.following next := by
  cases call with
  | create name image => exact Int.le_add_one (Int.le_refl next)
  | _ => exact Int.le_refl next

end Call

/-- Performs calls one after the other, and gives the answer to each with its addressee. -/
def converse (fuel : Nat) : List Call → Host → List (Option Int × Except Fault Reply) × Host
  | [], host => ([], host)
  | call :: calls, host =>
      let (reply, next) := host.perform fuel call
      let (replies, last) := converse fuel calls next
      ((call.addressee host.nextPid, reply) :: replies, last)

/-- The answers to the calls that are addressed to a machine. -/
def repliesTo (pid : Int) (replies : List (Option Int × Except Fault Reply)) :
    List (Except Fault Reply) :=
  (replies.filter (·.1 == some pid)).map Prod.snd

/-- What a machine has put on a queue, in order. -/
def outputOf (pid : Int) (queue : OutputQueue) : List (Int × String) :=
  queue.toList.filter (·.1 == pid)

/-- The host in which there never was another machine, and where `pid` is handed out next. -/
def alone (host : Host) (pid : Int) : Host :=
  { host with
    machines := host.machines.filter (·.pid == pid), names := host.names.filter (·.1 == pid),
    nextPid := pid, queue := host.queue.filter (·.1 == pid) }

/-! ## Hosts that are the same for a machine -/

@[simp] theorem outputOf_push (pid other : Int) (text : String) (queue : OutputQueue) :
    outputOf pid (queue.push (other, text)) =
      outputOf pid queue ++ if other = pid then [(other, text)] else [] := by
  simp only [outputOf, Array.toList_push, List.filter_append]
  by_cases same : other = pid
  · simp [same]
  · simp [same]

/-- Whether two hosts are the same for a machine. -/
structure SameFor (pid : Int) (first second : Host) : Prop where
  bits : first.bits = second.bits
  room : first.room = second.room
  machines : first.machines.filter (·.pid == pid) = second.machines.filter (·.pid == pid)
  names : first.names.filter (·.1 == pid) = second.names.filter (·.1 == pid)
  output : outputOf pid first.queue = outputOf pid second.queue

namespace SameFor

variable {pid : Int} {first second third : Host}

theorem trans (left : SameFor pid first second) (right : SameFor pid second third) :
    SameFor pid first third :=
  ⟨left.bits.trans right.bits, left.room.trans right.room, left.machines.trans right.machines,
    left.names.trans right.names, left.output.trans right.output⟩

theorem find?_eq (same : SameFor pid first second) : first.find? pid = second.find? pid := by
  rw [find?, find?, ← List.head?_filter, ← List.head?_filter, same.machines]

theorem lookup_eq (same : SameFor pid first second) :
    first.names.lookup pid = second.names.lookup pid := by
  have own : (pid == pid) = true := beq_self_eq_true pid
  rw [← lookup_filter (· == pid) own, same.names, lookup_filter (· == pid) own]

theorem alone (host : Host) (pid : Int) : SameFor pid host (host.alone pid) where
  bits := rfl
  room := rfl
  machines := by simp [Host.alone]
  names := by simp [Host.alone]
  output := by simp [Host.alone, outputOf]

end SameFor

/-! ## Calls addressed to the machine -/

section Work

variable {α : Type} {pid other : Int} {first second host : Host}

/-- Queues that hold the same output of a machine. -/
def SameOutput (pid : Int) (queue other : OutputQueue) : Prop :=
  outputOf pid queue = outputOf pid other

theorem sinksAgree_sameOutput (pid other : Int) :
    SinksAgree (SameOutput pid) (ports other) (ports other) := by
  intro code queue otherQueue same
  refine ⟨rfl, ?_⟩
  rw [SameOutput] at same
  simp only [ports, SameOutput, outputOf_push, same]

theorem sourcesAgree_ports (related : OutputQueue → OutputQueue → Prop) (pid : Int) :
    SourcesAgree related (ports pid) (ports pid) := by
  intro queue otherQueue same
  exact ⟨rfl, same⟩

theorem filter_replace_self (machines : List Hosted) (pid : Int) (machine : Machine) :
    (replace machines pid machine).filter (·.pid == pid) =
      (machines.filter (·.pid == pid)).map fun hosted => { hosted with machine } := by
  induction machines with
  | nil => rfl
  | cons hosted machines ih =>
      simp only [replace, List.map_cons, beq_iff_eq] at ih ⊢
      by_cases own : hosted.pid = pid
      · simp [own, ih]
      · simp [own, ih]

theorem filter_replace_of_ne (machines : List Hosted) (distinct : other ≠ pid)
    (machine : Machine) :
    (replace machines other machine).filter (·.pid == pid) = machines.filter (·.pid == pid) := by
  induction machines with
  | nil => rfl
  | cons hosted machines ih =>
      simp only [replace, List.map_cons, beq_iff_eq] at ih ⊢
      by_cases moved : hosted.pid = other
      · simp [moved, distinct, ih]
      · simp [moved, List.filter_cons, ih]

/-- Work on the machine has the same outcome at both hosts and keeps them the same for it. -/
theorem update_own (same : SameFor pid first second)
    {work : Bench OutputQueue → Except Fault α × Bench OutputQueue}
    (steady : Bench.Steady (SameOutput pid) work) :
    (first.update pid work).1 = (second.update pid work).1 ∧
      SameFor pid (first.update pid work).2 (second.update pid work).2 := by
  unfold update
  rw [same.find?_eq]
  cases second.find? pid with
  | none => exact ⟨rfl, same⟩
  | some hosted =>
      obtain ⟨outcome, machine, output⟩ := steady
        { machine := hosted.machine, env := first.queue, journal := first.journal }
        { machine := hosted.machine, env := second.queue, journal := second.journal }
        ⟨rfl, same.output⟩
      refine ⟨outcome, same.bits, same.room, ?_, same.names, output⟩
      simp only [filter_replace_self, same.machines, machine]

/-- Queues that are the same, with a given output of a machine. -/
def Keeps (pid : Int) (output : List (Int × String)) (queue other : OutputQueue) : Prop :=
  queue = other ∧ outputOf pid queue = output

theorem sinksAgree_keeps (distinct : other ≠ pid) (output : List (Int × String)) :
    SinksAgree (Keeps pid output) (ports other) (ports other) := by
  rintro code queue _ ⟨rfl, kept⟩
  refine ⟨rfl, rfl, ?_⟩
  simp [ports, distinct, kept]

/-- Work on another machine changes nothing for this one. -/
theorem update_other (host : Host) (distinct : other ≠ pid)
    {work : Bench OutputQueue → Except Fault α × Bench OutputQueue}
    (steady : ∀ output, Bench.Steady (Keeps pid output) work) :
    SameFor pid (host.update other work).2 host := by
  unfold update
  cases host.find? other with
  | none => exact ⟨rfl, rfl, rfl, rfl, rfl⟩
  | some hosted =>
      obtain ⟨-, -, -, kept⟩ := steady (outputOf pid host.queue)
        { machine := hosted.machine, env := host.queue, journal := host.journal }
        { machine := hosted.machine, env := host.queue, journal := host.journal }
        ⟨rfl, rfl, rfl⟩
      exact ⟨rfl, rfl, filter_replace_of_ne host.machines distinct _, rfl, kept⟩

theorem boot_steady (related : OutputQueue → OutputQueue → Prop) (image : BootImage) :
    Bench.Steady related fun bench => boot bench image := by
  cases image with
  | monitor => exact Bench.loadMonitor_steady
  | data image => exact Bench.loadData_steady image 0

/-- What a creation does to a host: it appends machines and names under the next number, and nothing
else but the journal changes. -/
structure Created (host after : Host) (added : List Listed) : Prop where
  bits : after.bits = host.bits
  room : after.room = host.room
  queue : after.queue = host.queue
  nextPid : after.nextPid = host.nextPid + 1
  machines : after.machines = host.machines ++ added.map fun listed => ⟨listed.pid, listed.machine⟩
  names : after.names = host.names ++ added.map fun listed => (listed.pid, listed.name)

/-- Hosts that hand out the same number next create the same machine, or fail in the same way. -/
theorem create_alike (name : String) (image : BootImage) (bits : first.bits = second.bits)
    (room : first.room = second.room) (next : first.nextPid = second.nextPid) :
    ∃ added : List Listed, (∀ listed ∈ added, listed.pid = first.nextPid) ∧
      (first.create name image).1 = (second.create name image).1 ∧
      Created first (first.create name image).2 added ∧
      Created second (second.create name image).2 added := by
  have configs : ({ first with nextPid := first.nextPid + 1 } : Host).config first.nextPid =
      ({ second with nextPid := second.nextPid + 1 } : Host).config second.nextPid := by
    simp only [config, bits, next]
  unfold create
  simp only [configs]
  cases ({ second with nextPid := second.nextPid + 1 } : Host).config second.nextPid with
  | error fault =>
      exact ⟨[], by simp, rfl, ⟨rfl, rfl, rfl, rfl, by simp, by simp⟩,
        ⟨rfl, rfl, rfl, rfl, by simp, by simp⟩⟩
  | ok config =>
      have booted := boot_steady Eq image
        ⟨config.machine.within first.room, #[], first.journal⟩
        ⟨config.machine.within second.room, #[], second.journal⟩ ⟨by rw [room], rfl⟩
      dsimp only at booted ⊢
      generalize boot ⟨config.machine.within first.room, #[], first.journal⟩ image = left
        at booted ⊢
      generalize boot ⟨config.machine.within second.room, #[], second.journal⟩ image = right
        at booted ⊢
      obtain ⟨result, bench⟩ := left
      obtain ⟨_, otherBench⟩ := right
      obtain ⟨outcome, machine, -⟩ := booted
      dsimp only at outcome machine
      cases outcome
      cases result with
      | error fault =>
          exact ⟨[], by simp, rfl, ⟨rfl, rfl, rfl, rfl, by simp, by simp⟩,
            ⟨rfl, rfl, rfl, rfl, by simp, by simp⟩⟩
      | ok count =>
          refine ⟨[⟨first.nextPid, nameFor first.nextPid name, bench.machine⟩], by simp, ?_, ?_, ?_⟩
          · exact congrArg Except.ok next
          · exact ⟨rfl, rfl, rfl, rfl, rfl, rfl⟩
          · refine ⟨rfl, rfl, rfl, rfl, ?_, ?_⟩
            · simp only [List.map_cons, List.map_nil, next, machine]
            · simp only [List.map_cons, List.map_nil, next]

theorem Created.same {added : List Listed} {after others : Host} (same : SameFor pid first second)
    (left : Created first after added) (right : Created second others added) :
    SameFor pid after others where
  bits := by rw [left.bits, right.bits, same.bits]
  room := by rw [left.room, right.room, same.room]
  machines := by simp only [left.machines, right.machines, List.filter_append, same.machines]
  names := by simp only [left.names, right.names, List.filter_append, same.names]
  output := by rw [left.queue, right.queue, same.output]

theorem create_own (same : SameFor pid first second) (next : first.nextPid = second.nextPid)
    (name : String) (image : BootImage) :
    (first.create name image).1 = (second.create name image).1 ∧
      SameFor pid (first.create name image).2 (second.create name image).2 := by
  obtain ⟨added, -, outcome, left, right⟩ := create_alike name image same.bits same.room next
  exact ⟨outcome, Created.same same left right⟩

theorem create_other (host : Host) (distinct : host.nextPid ≠ pid) (name : String)
    (image : BootImage) : SameFor pid (host.create name image).2 host := by
  obtain ⟨added, numbered, -, created, -⟩ := create_alike name image rfl rfl (Eq.refl host.nextPid)
  refine ⟨created.bits, created.room, ?_, ?_, by rw [created.queue]⟩
  · rw [created.machines, List.filter_append, List.append_right_eq_self, List.filter_eq_nil_iff,
      List.forall_mem_map]
    intro listed member
    simp [numbered listed member, distinct]
  · rw [created.names, List.filter_append, List.append_right_eq_self, List.filter_eq_nil_iff,
      List.forall_mem_map]
    intro listed member
    simp [numbered listed member, distinct]

theorem kill_own (same : SameFor pid first second) :
    SameFor pid (first.kill pid) (second.kill pid) := by
  have gone (host : Host) : (host.kill pid).machines.filter (·.pid == pid) = [] := by
    simp [kill, List.filter_eq_nil_iff]
  have unnamed (host : Host) : (host.kill pid).names.filter (·.1 == pid) = [] := by
    simp [kill, List.filter_eq_nil_iff]
  exact ⟨same.bits, same.room, by rw [gone, gone], by rw [unnamed, unnamed], same.output⟩

theorem kill_other (host : Host) (distinct : other ≠ pid) :
    SameFor pid (host.kill other) host := by
  have spared (number : Int) : (number == pid && number != other) = (number == pid) := by
    by_cases own : number = pid
    · simp [own, distinct.symm]
    · simp [own]
  refine ⟨rfl, rfl, ?_, ?_, rfl⟩
  · simp only [kill, List.filter_filter, spared]
  · simp only [kill, List.filter_filter, spared]

theorem output_own (same : SameFor pid first second) (text : String) :
    SameFor pid (first.output pid text) (second.output pid text) := by
  refine ⟨same.bits, same.room, same.machines, same.names, ?_⟩
  simp only [output, outputOf_push, same.output]

theorem output_other (host : Host) (distinct : other ≠ pid) (text : String) :
    SameFor pid (host.output other text) host := by
  refine ⟨rfl, rfl, rfl, rfl, ?_⟩
  simp [output, distinct]

end Work

/-! ## One call -/

section Calls

variable {pid : Int} {first second : Host}

theorem update_nextPid {α : Type} (host : Host) (pid : Int)
    (work : Bench OutputQueue → Except Fault α × Bench OutputQueue) :
    (host.update pid work).2.nextPid = host.nextPid := by
  unfold update
  cases host.find? pid with
  | none => rfl
  | some hosted => rfl

theorem perform_nextPid (fuel : Nat) (host : Host) (call : Call) :
    (host.perform fuel call).2.nextPid = call.following host.nextPid := by
  cases call with
  | create name image =>
      obtain ⟨added, -, -, created, -⟩ := create_alike name image rfl rfl (Eq.refl host.nextPid)
      exact created.nextPid
  | kill pid => rfl
  | send pid line => exact update_nextPid host pid (·.eval (ports pid) fuel defaultTerminator line)
  | loadText pid text fresh base => exact update_nextPid host pid (·.loadText text fresh base)
  | loadImage pid image => exact update_nextPid host pid (·.loadData image 0)
  | run pid => exact update_nextPid host pid (·.run (ports pid) fuel)
  | output pid text => rfl
  | list => rfl

/-- A call addressed to the machine is answered alike by hosts that are the same for it. -/
theorem perform_own (fuel : Nat) (same : SameFor pid first second) (call : Call)
    (own : call.addressee first.nextPid = some pid)
    (ready : first.nextPid ≤ pid → second.nextPid = pid) :
    (first.perform fuel call).1 = (second.perform fuel call).1 ∧
      SameFor pid (first.perform fuel call).2 (second.perform fuel call).2 := by
  have worked {work : Bench OutputQueue → Except Fault Nat × Bench OutputQueue}
      (steady : Bench.Steady (SameOutput pid) work) :
      (first.update pid work).1.map Reply.count = (second.update pid work).1.map Reply.count ∧
        SameFor pid (first.update pid work).2 (second.update pid work).2 := by
    obtain ⟨outcome, after⟩ := update_own same steady
    exact ⟨by rw [outcome], after⟩
  have sinks := sinksAgree_sameOutput pid pid
  have sources := sourcesAgree_ports (SameOutput pid) pid
  cases call with
  | create name image =>
      cases own
      obtain ⟨outcome, after⟩ := create_own same (ready (Int.le_refl _)).symm name image
      exact ⟨congrArg (Except.map Reply.number) outcome, after⟩
  | kill pid =>
      cases own
      exact ⟨rfl, kill_own same⟩
  | send pid line =>
      cases own
      exact worked (Bench.eval_steady sinks fuel defaultTerminator line)
  | loadText pid text fresh base =>
      cases own
      exact worked (Bench.loadText_steady text fresh base)
  | loadImage pid image =>
      cases own
      exact worked (Bench.loadData_steady image 0)
  | run pid =>
      cases own
      exact worked (Bench.run_steady sinks sources fuel)
  | output pid text =>
      cases own
      exact ⟨rfl, output_own same text⟩
  | list => cases own

/-- A call addressed to another machine, or to none, changes nothing for this one. -/
theorem perform_other (fuel : Nat) (host : Host) (call : Call)
    (foreign : call.addressee host.nextPid ≠ some pid) :
    SameFor pid (host.perform fuel call).2 host := by
  cases call with
  | create name image =>
      exact create_other host (fun same => foreign (congrArg some same)) name image
  | kill other => exact kill_other host fun same => foreign (congrArg some same)
  | send other line =>
      have distinct : other ≠ pid := fun same => foreign (congrArg some same)
      exact update_other host distinct fun output =>
        Bench.eval_steady (sinksAgree_keeps distinct output) fuel defaultTerminator line
  | loadText other text fresh base =>
      exact update_other host (fun same => foreign (congrArg some same)) fun _ =>
        Bench.loadText_steady text fresh base
  | loadImage other image =>
      exact update_other host (fun same => foreign (congrArg some same)) fun _ =>
        Bench.loadData_steady image 0
  | run other =>
      have distinct : other ≠ pid := fun same => foreign (congrArg some same)
      exact update_other host distinct fun output =>
        Bench.run_steady (sinksAgree_keeps distinct output) (sourcesAgree_ports _ other) fuel
  | output other text => exact output_other host (fun same => foreign (congrArg some same)) text
  | list => exact ⟨rfl, rfl, rfl, rfl, rfl⟩

end Calls

/-! ## All calls -/

theorem repliesTo_cons (pid : Int) (reply : Option Int × Except Fault Reply)
    (replies : List (Option Int × Except Fault Reply)) :
    repliesTo pid (reply :: replies) =
      (if reply.1 = some pid then [reply.2] else []) ++ repliesTo pid replies := by
  by_cases own : reply.1 = some pid
  · simp [repliesTo, own]
  · simp [repliesTo, own]

/-- Two hosts that are the same for a machine stay so when the second is spared the calls addressed
to other machines. Until the number of the machine is handed out, the second host has it ready. -/
theorem converse_only (fuel : Nat) (pid : Int) (calls : List Call) :
    ∀ (first second : Host), SameFor pid first second →
      (first.nextPid ≤ pid → second.nextPid = pid) →
      let spared := second.converse fuel (Call.only pid first.nextPid calls)
      SameFor pid (first.converse fuel calls).2 spared.2 ∧
        repliesTo pid (first.converse fuel calls).1 = repliesTo pid spared.1 := by
  induction calls with
  | nil =>
      intro first second same _
      exact ⟨same, rfl⟩
  | cons call calls ih =>
      intro first second same ready
      have following := perform_nextPid fuel first call
      by_cases own : call.addressee first.nextPid = some pid
      · obtain ⟨reply, after⟩ := perform_own fuel same call own ready
        have next := ih _ _ after fun le => by
          rw [perform_nextPid]
          exact Call.ready_following own ready (following ▸ le)
        rw [following] at next
        simp only [Call.only, own, or_true, if_true, converse, repliesTo_cons, reply,
          Call.addressee_of_own own ready]
        exact ⟨next.1, by rw [next.2]⟩
      · have after := (perform_other fuel first call own).trans same
        have later := fun le => ready (Int.le_trans (call.le_following first.nextPid) le)
        by_cases listing : call.addressee first.nextPid = none
        · cases call with
          | list =>
              obtain ⟨last, replies⟩ := ih first second same ready
              exact ⟨last, replies⟩
          | _ => cases listing
        · have next := ih _ second after fun le => later (following ▸ le)
          rw [following] at next
          simp only [Call.only, own, listing, or_self, if_false, converse, repliesTo_cons,
            List.nil_append]
          exact next

/-- A machine of a host does what it does without the others. Take calls of every kind in any order,
and once more the same calls without those addressed to other machines, at a host that never had
other machines: the machine and its name are the same or missing in the same way, every call
addressed to it is answered alike, and what it has put on the queue is the same. -/
theorem converse_alone (host : Host) (pid : Int) (fuel : Nat) (calls : List Call) :
    let spared := (host.alone pid).converse fuel (Call.only pid host.nextPid calls)
    (host.converse fuel calls).2.find? pid = spared.2.find? pid ∧
      (host.converse fuel calls).2.names.lookup pid = spared.2.names.lookup pid ∧
      repliesTo pid (host.converse fuel calls).1 = repliesTo pid spared.1 ∧
      outputOf pid (host.converse fuel calls).2.queue = outputOf pid spared.2.queue := by
  obtain ⟨same, replies⟩ :=
    converse_only fuel pid calls host (host.alone pid) (SameFor.alone host pid) fun _ => rfl
  exact ⟨same.find?_eq, same.lookup_eq, replies, same.output⟩

end Subleq.Host
