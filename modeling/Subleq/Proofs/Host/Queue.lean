import Subleq.Proofs.Host.Isolation

/-!
# What machines put on the queue

What a machine adds to the queue of its host while it works is what it emits on an empty tape, under
its number. Nothing else touches the queue: loads and creations leave it as it is, and a creation
adds one machine at most, under a number that is used up then.
-/

namespace Subleq.Host

/-! ## Numbers -/

/-- The numbers of the machines of a host. -/
def pids (host : Host) : List Int := host.machines.map (·.pid)

@[simp] theorem pids_table (host : Host) : host.table.map (·.pid) = host.pids := by
  rw [table, List.map_map]
  rfl

/-- A number of the host leads to a machine that has it. -/
theorem exists_find? {host : Host} {pid : Int} (member : pid ∈ host.pids) :
    ∃ hosted ∈ host.machines, hosted.pid = pid ∧ host.find? pid = some hosted := by
  obtain ⟨other, there, own⟩ := List.mem_map.mp member
  obtain ⟨hosted, found⟩ : ∃ hosted, host.find? pid = some hosted := by
    apply Option.isSome_iff_exists.mp
    rw [find?, List.find?_isSome]
    exact ⟨other, there, by simpa using own⟩
  exact ⟨hosted, List.mem_of_find?_eq_some found, by simpa using List.find?_some found, found⟩

/-- The machines of a host have different numbers, all of which were handed out. -/
structure Numbered (host : Host) : Prop where
  below : ∀ pid ∈ host.pids, pid < host.nextPid
  distinct : host.pids.Nodup

/-- A creation uses up a number and leaves the queue. It fails and adds no machine, or adds one with
that number. -/
theorem create_cases (host : Host) (name : String) (image : BootImage) :
    ∃ result after, host.create name image = (result, after) ∧ after.queue = host.queue ∧
      after.nextPid = host.nextPid + 1 ∧
      ((∃ fault, result = .error fault ∧ after.pids = host.pids) ∨
        result = .ok host.nextPid ∧ after.pids = host.pids ++ [host.nextPid]) := by
  unfold create
  dsimp only
  split
  next fault _ => exact ⟨_, _, rfl, rfl, rfl, Or.inl ⟨fault, rfl, rfl⟩⟩
  next =>
    split
    next fault _ _ => exact ⟨_, _, rfl, rfl, rfl, Or.inl ⟨fault, rfl, rfl⟩⟩
    next => exact ⟨_, _, rfl, rfl, rfl, Or.inr ⟨rfl, by simp [pids]⟩⟩

/-! ## Machines at work -/

/-- A queue that has grown by what is on a tape, as output of a machine. -/
def Recorded (pid : Int) (before : List (Int × String)) (queue : OutputQueue) (tape : Tape) :
    Prop :=
  queue.toList = before ++ (tape.outputs.toList.map codeToText).map (pid, ·) ∧
    tape.inputs = [] ∧ tape.atEnd = none ∧ tape.room = none

theorem sinksAgree_recorded (pid : Int) (before : List (Int × String)) :
    SinksAgree (Recorded pid before) (ports pid) Tape.ports := by
  rintro code queue tape ⟨grown, exhausted, endless, roomy⟩
  have emitted : Tape.ports.sink code tape =
      (.ok (), { tape with outputs := tape.outputs.push code }) := by
    simp [Tape.ports, Tape.emit, roomy]
  rw [emitted]
  refine ⟨rfl, ?_, exhausted, endless, roomy⟩
  simp [ports, grown]

theorem sourcesAgree_recorded (pid : Int) (before : List (Int × String)) :
    SourcesAgree (Recorded pid before) (ports pid) Tape.ports := by
  rintro queue tape ⟨grown, exhausted, endless, roomy⟩
  have asked : Tape.ports.source tape =
      (.ok endOfInput, { tape with reads := tape.reads + 1 }) := by
    simp [Tape.ports, Tape.read, exhausted, endless]
  rw [asked]
  exact ⟨rfl, grown, exhausted, endless, roomy⟩

theorem recorded_start (pid : Int) (queue : OutputQueue) :
    Recorded pid queue.toList queue {} := by
  exact ⟨by simp, rfl, rfl, rfl⟩

/-- Work on a machine leaves all numbers, and the queue as the work leaves it. -/
theorem update_spec {α : Type} (host : Host) {pid : Int} {hosted : Hosted}
    (found : host.find? pid = some hosted)
    (work : Bench OutputQueue → Except Fault α × Bench OutputQueue) :
    let after := (host.update pid work).2
    after.nextPid = host.nextPid ∧ after.pids = host.pids ∧
      after.queue =
        (work { machine := hosted.machine, env := host.queue, journal := host.journal }).2.env := by
  unfold update
  rw [found]
  refine ⟨rfl, ?_, rfl⟩
  simp only [pids, replace, List.map_map]
  refine List.map_congr_left fun other _ => ?_
  simp only [Function.comp_apply]
  split
  · rfl
  · rfl

theorem env_loaded {σ : Type} (bench : Bench σ) (event : Nat → Event)
    (outcome : Except Machine.LoadFault Nat × Machine) :
    (bench.loaded event outcome).2.env = bench.env := by
  obtain ⟨result, machine⟩ := outcome
  cases result with
  | ok count => rfl
  | error fault => rfl

/-- Sending a line to a machine that runs queues what the machine emits on an empty tape. -/
theorem queue_send (host : Host) (fuel : Nat) (line : String) {pid : Int} {hosted : Hosted}
    (found : host.find? pid = some hosted) (running : hosted.machine.halted = false) :
    let progress := hosted.machine.eval Tape.ports fuel defaultTerminator line {}
    (host.send fuel pid line).2.queue.toList =
      host.queue.toList ++ (progress.env.outputs.toList.map codeToText).map (pid, ·) := by
  intro progress
  have alike := Machine.eval_alike (sinksAgree_recorded pid host.queue.toList) fuel
    defaultTerminator line hosted.machine (recorded_start pid host.queue)
  have queued := (update_spec host found (·.eval (ports pid) fuel defaultTerminator line)).2.2
  rw [send, queued, ← alike.env.1]
  simp only [Bench.eval, running, Bool.false_eq_true, if_false]
  split
  · rfl
  · rfl

/-- Running a machine queues what the machine emits on an empty tape. -/
theorem queue_run (host : Host) (fuel : Nat) {pid : Int} {hosted : Hosted}
    (found : host.find? pid = some hosted) :
    let progress := hosted.machine.run Tape.ports fuel {}
    (host.run fuel pid).2.queue.toList =
      host.queue.toList ++ (progress.env.outputs.toList.map codeToText).map (pid, ·) := by
  intro progress
  have alike := Machine.run_alike (sinksAgree_recorded pid host.queue.toList)
    (sourcesAgree_recorded pid host.queue.toList) fuel hosted.machine
    (recorded_start pid host.queue)
  have queued := (update_spec host found (·.run (ports pid) fuel)).2.2
  rw [run, queued, ← alike.env.1]
  simp only [Bench.run]
  split
  · rfl
  · rfl
  · rfl

end Subleq.Host
