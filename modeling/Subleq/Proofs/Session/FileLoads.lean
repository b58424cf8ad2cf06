import Subleq.Proofs.Host.Table
import Subleq.Proofs.Machine.Loads
import Subleq.Proofs.Session.Output

/-!
# Loads from files

Three commands load a file: `load` and `image` into the current machine, and `new` into the machine
it creates. A file that cannot be read, or that holds a token which spells no integer, is complained
of, or the fault escapes; in either case nothing but the screen changes. Any other file has the same
effect by `load` and by `image`: the current machine is loaded with its values, and the other
machines stay as they are.
-/

namespace Subleq

/-! ## The table of a host -/

namespace Host

variable {host : Host} {pid : Int} {hosted : Hosted}

theorem replace_self (distinct : host.pids.Nodup) (found : host.find? pid = some hosted) :
    replace host.machines pid hosted.machine = host.machines := by
  have same : ∀ entry ∈ host.machines,
      (if entry.pid == pid then { entry with machine := hosted.machine } else entry) = entry := by
    intro entry member
    split
    next own =>
      have entryFound := find?_of_mem distinct member
      rw [beq_iff_eq.mp own, found, Option.some.injEq] at entryFound
      rw [entryFound]
    next => rfl
  exact (List.map_congr_left same).trans (List.map_id host.machines)

/-- Another machine in the place of one leaves all others. -/
theorem find?_replace (machines : List Hosted) (pid : Int) (machine : Machine) (other : Int) :
    (replace machines pid machine).find? (·.pid == other) =
      (machines.find? (·.pid == other)).map fun hosted =>
        if other = pid then { hosted with machine } else hosted := by
  have blind : ((·.pid == other) ∘ fun hosted : Hosted =>
      if hosted.pid == pid then { hosted with machine } else hosted) = (·.pid == other) := by
    funext hosted
    simp only [Function.comp_apply]
    split
    · rfl
    · rfl
  rw [replace, List.find?_map, blind]
  cases found : machines.find? (·.pid == other) with
  | none => rfl
  | some hosted =>
      have own : hosted.pid = other := by simpa using List.find?_some found
      simp [own]

theorem update_loaded (found : host.find? pid = some hosted) (event : Nat → Event)
    (load : Machine → Except Machine.LoadFault Nat × Machine) :
    ∃ journal, host.update pid (fun bench => bench.loaded event (load bench.machine)) =
      ((load hosted.machine).1.mapError .ofLoad,
        { host with
          machines := replace host.machines pid (load hosted.machine).2, journal }) ∧
      ∀ fault, (load hosted.machine).1 = .error fault → journal = host.journal := by
  rw [update, found]
  dsimp only
  cases answered : load hosted.machine with
  | mk result machine =>
      cases result with
      | ok count => exact ⟨_, rfl, by simp⟩
      | error fault => exact ⟨_, rfl, fun _ _ => rfl⟩

theorem loadText_of_refused (distinct : host.pids.Nodup) (found : host.find? pid = some hosted)
    {text : String} {fresh : Bool} {base : Int} (refused : Machine.Refused text base) :
    ∃ fault, host.loadText pid text fresh base = (.error fault, host) := by
  obtain ⟨fault, -, failed⟩ := @Machine.loadText_of_refused hosted.machine base text fresh refused
  obtain ⟨journal, updated, kept⟩ := update_loaded found (.textLoaded · base fresh)
    fun machine => machine.loadText text fresh base
  refine ⟨.ofLoad fault, updated.trans ?_⟩
  rw [kept fault (by rw [failed]), failed, replace_self distinct found]
  rfl

end Host

/-! ## Files -/

/-- A file that no machine can be loaded with: it cannot be read, or it holds a token that spells no
integer. -/
def Disk.Unloadable (disk : Disk) (path : String) : Prop :=
  match disk.readText path with
  | .error _ => True
  | .ok text => ∃ token ∈ Text.words text.toList, ∀ value, ¬Program.Spells token value

theorem readImageFile_of_unloadable {disk : Disk} {path : String}
    (unloadable : disk.Unloadable path) : ∃ fault, readImageFile disk path = .error fault := by
  unfold Disk.Unloadable at unloadable
  unfold readImageFile
  cases answer : disk.readText path with
  | error fault => exact ⟨.file fault, rfl⟩
  | ok text =>
      rw [answer] at unloadable
      obtain ⟨fault, unread⟩ := Program.exists_read_eq_error_iff.mpr unloadable
      simp only [unread]
      cases fault with
      | token token line index => exact ⟨_, rfl⟩
      | tooLong fault => exact ⟨_, rfl⟩

theorem readImageFile_of_spelled {disk : Disk} {path text : String} {values : List Int}
    (answer : disk.readText path = .ok text)
    (spelled : List.Forall₂ Program.Spells (Text.words text.toList) values) :
    readImageFile disk path = .ok values := by
  simp only [readImageFile, answer, Program.read_eq_ok_iff.mpr spelled]

namespace Session

/-- The file that a command loads. -/
def fileOf (session : Session) : Command → Option String
  | .load path => some path
  | .image path => some path
  | .create _ => session.imagePath.filter (· ≠ "")
  | _ => none

/-- Nothing is done but a line shown, or nothing is done and a fault escapes. -/
def Fails (session : Session) (result : Session × Outcome) : Prop :=
  (∃ line, result = (session.print line, .done)) ∨ ∃ fault, result = (session, .escaped fault)

variable {session : Session} {path : String} {limits : Limits} {disk : LiveDisk}

theorem fails_loaded (word path : String) (fault : Fault) :
    session.Fails (session.loaded word path (.error fault)) := by
  rw [loaded]
  split
  · exact Or.inl ⟨_, rfl⟩
  · exact Or.inr ⟨_, rfl⟩

theorem fails_load (distinct : session.host.pids.Nodup)
    (unloadable : (disk session.host.journal).Unloadable path) :
    session.Fails (session.load disk path) := by
  unfold load
  rcases session.machine?_cases with missing | ⟨hosted, found, present⟩
  · rw [missing]
    exact Or.inl ⟨_, rfl⟩
  · rw [present]
    unfold Disk.Unloadable at unloadable
    cases answer : (disk session.host.journal).readText path with
    | error fault => exact fails_loaded "load" path _
    | ok text =>
        rw [answer] at unloadable
        obtain ⟨fault, failed⟩ := @Host.loadText_of_refused session.host session.current hosted
          distinct found text true 0 (Or.inr unloadable)
        dsimp only
        rw [failed]
        exact fails_loaded "load" path fault

theorem fails_image (unloadable : (disk session.host.journal).Unloadable path) :
    session.Fails (session.image disk path) := by
  obtain ⟨fault, unread⟩ := readImageFile_of_unloadable unloadable
  unfold image
  cases session.machine? with
  | none => exact Or.inl ⟨_, rfl⟩
  | some machine =>
      rw [unread]
      exact fails_loaded "image" path fault

theorem fails_create (has : session.imagePath = some path) (named : path ≠ "")
    (unloadable : (disk session.host.journal).Unloadable path) (name : String) :
    session.Fails (session.create disk name) := by
  obtain ⟨fault, unread⟩ := readImageFile_of_unloadable unloadable
  have unbooted : bootImage disk session.imagePath session.host.journal = .error fault := by
    rw [has, bootImage, unread]
    · rfl
    · exact named
  rw [create]
  simp only [unbooted]
  split
  · exact Or.inl ⟨_, rfl⟩
  · exact Or.inr ⟨_, rfl⟩

/-! ## Files that can be loaded -/

/-- The current machine is loaded with values, and nothing else of the machines has changed. -/
structure Reloaded (values : List Int) (session next : Session) : Prop where
  machine : next.machine? = session.machine?.map fun machine => (machine.load values 0).2
  others : ∀ pid, pid ≠ session.current → next.host.find? pid = session.host.find? pid
  pids : next.host.pids = session.host.pids
  names : next.host.names = session.host.names
  nextPid : next.host.nextPid = session.host.nextPid
  queue : next.host.queue = session.host.queue
  current : next.current = session.current
  logs : next.logs = session.logs

/-- A session without a current machine has nothing to load. -/
theorem Reloaded.warn (values : List Int) (missing : session.machine? = none) :
    Reloaded values session session.warn := by
  constructor
  · rw [missing]
    exact missing
  · exact fun _ _ => rfl
  · rfl
  · rfl
  · rfl
  · rfl
  · rfl
  · rfl

/-- A session with another machine in the place of the current one. -/
def withMachine (session : Session) (machine : Machine) (journal : Journal) : Session :=
  { session with
    host := { session.host with
      machines := Host.replace session.host.machines session.current machine, journal } }

theorem Reloaded.withMachine {hosted : Hosted} {values : List Int}
    (found : session.host.find? session.current = some hosted) (journal : Journal) :
    Reloaded values session
      (session.withMachine (hosted.machine.load values 0).2 journal) := by
  constructor
  · have placed := Host.find?_replace session.host.machines session.current
      (hosted.machine.load values 0).2 session.current
    rw [← Host.find?, found] at placed
    rw [Option.map_some, if_pos rfl] at placed
    rw [machine?, machine?, found]
    exact congrArg (Option.map Hosted.machine) placed
  · intro pid other
    have placed := Host.find?_replace session.host.machines session.current
      (hosted.machine.load values 0).2 pid
    simp only [if_neg other, Option.map_id'] at placed
    exact placed
  · simp only [Host.pids, Session.withMachine, Host.replace, List.map_map]
    refine List.map_congr_left fun entry _ => ?_
    simp only [Function.comp_apply]
    split
    · rfl
    · rfl
  · rfl
  · rfl
  · rfl
  · rfl
  · rfl

theorem Reloaded.shown {values : List Int} {middle next : Session}
    (reloaded : Reloaded values session middle) (shown : Shown middle next) :
    Reloaded values session next := by
  obtain ⟨machine, others, pids, names, nextPid, queue, current, logs⟩ := reloaded
  refine ⟨?_, ?_, ?_, ?_, ?_, ?_, shown.current.trans current, shown.logs.trans logs⟩
  · rw [← machine, machine?, machine?, shown.host, shown.current]
  · rwa [shown.host]
  · rwa [shown.host]
  · rwa [shown.host]
  · rwa [shown.host]
  · rwa [shown.host]

section Values

variable {hosted : Hosted} {text : String} {values : List Int}

theorem load_of_spelled (found : session.host.find? session.current = some hosted)
    (answer : (disk session.host.journal).readText path = .ok text)
    (spelled : List.Forall₂ Program.Spells (Text.words text.toList) values) :
    ∃ journal, session.load disk path =
      (session.withMachine (hosted.machine.load values 0).2 journal).loaded "load" path
        ((hosted.machine.load values 0).1.mapError .ofLoad) := by
  have same : hosted.machine.loadText text true 0 = hosted.machine.load values 0 := by
    rw [Machine.load_eq_loadData]
    exact Machine.loadText_eq_loadData (Program.read_eq_ok_iff.mpr spelled) 0
  obtain ⟨journal, updated, -⟩ := Host.update_loaded found (.textLoaded · 0 true)
    fun machine => machine.loadText text true 0
  refine ⟨journal, ?_⟩
  rw [load, machine?, found]
  simp only [Option.map_some, answer]
  rw [show session.host.loadText session.current text true 0 = _ from updated, same]
  rfl

theorem image_of_spelled (found : session.host.find? session.current = some hosted)
    (answer : (disk session.host.journal).readText path = .ok text)
    (spelled : List.Forall₂ Program.Spells (Text.words text.toList) values) :
    ∃ journal, session.image disk path =
      (session.withMachine (hosted.machine.load values 0).2 journal).loaded "image" path
        ((hosted.machine.load values 0).1.mapError .ofLoad) := by
  have same : hosted.machine.loadData (values.map .integer) 0 = hosted.machine.load values 0 :=
    (Machine.load_eq_loadData hosted.machine values 0).symm
  have noted : Host.find?
      { session.host with
        journal := session.host.journal.note (.imageFileRead path values.length) }
      session.current = some hosted := found
  obtain ⟨journal, updated, -⟩ := Host.update_loaded noted (.imageLoaded · 0)
    fun machine => machine.loadData (values.map .integer) 0
  refine ⟨journal, ?_⟩
  rw [image, machine?, found]
  simp only [Option.map_some, readImageFile_of_spelled answer spelled]
  rw [show Host.loadImage _ session.current (values.map .integer) = _ from updated, same]
  rfl

end Values

/-- Loads from files touch all or nothing. Take any session whose machines have different numbers.
A command that loads a file which cannot be read, or which holds a token that spells no integer,
shows a line or lets a fault escape, and the machines, their numbers, their output and its logs are
as they were. A file whose tokens all spell integers has the same effect by `load` and by `image`:
the current machine is loaded with these integers, and no other machine changes. -/
theorem file_loads_all_or_nothing (limits : Limits) (disk : LiveDisk) (session : Session)
    (distinct : session.host.pids.Nodup) :
    (∀ line path, session.fileOf (.ofLine line) = some path →
      (disk session.host.journal).Unloadable path →
        session.Fails (session.command limits disk line) ∧
          Shown session (session.command limits disk line).1) ∧
    (∀ loadLine imageLine path text values,
      Command.ofLine loadLine = .load path → Command.ofLine imageLine = .image path →
      (disk session.host.journal).readText path = .ok text →
      List.Forall₂ Program.Spells (Text.words text.toList) values →
        Reloaded values session (session.command limits disk loadLine).1 ∧
        Reloaded values session (session.command limits disk imageLine).1 ∧
        (session.command limits disk loadLine).1.host.table =
          (session.command limits disk imageLine).1.host.table) := by
  constructor
  · intro line path names unloadable
    have fails : session.Fails (session.command limits disk line) := by
      unfold command
      cases asked : Command.ofLine line with
      | load file =>
          rw [asked, fileOf, Option.some.injEq] at names
          rw [names]
          exact fails_load distinct unloadable
      | image file =>
          rw [asked, fileOf, Option.some.injEq] at names
          rw [names]
          exact fails_image unloadable
      | create name =>
          rw [asked, fileOf, Option.filter_eq_some_iff] at names
          exact fails_create names.1 (by simpa using names.2) unloadable name
      | _ =>
          rw [asked] at names
          cases names
    refine ⟨fails, ?_⟩
    rcases fails with ⟨shown, result⟩ | ⟨fault, result⟩
    · rw [result]
      exact .print session shown
    · rw [result]
      exact .refl session
  · intro loadLine imageLine path text values asksLoad asksImage answer spelled
    unfold command
    rw [asksLoad, asksImage]
    change Reloaded values session (session.load disk path).1 ∧
      Reloaded values session (session.image disk path).1 ∧
      (session.load disk path).1.host.table = (session.image disk path).1.host.table
    rcases session.machine?_cases with missing | ⟨hosted, found, -⟩
    · rw [load, image, missing]
      exact ⟨.warn values missing, .warn values missing, rfl⟩
    · obtain ⟨loadJournal, loads⟩ := load_of_spelled found answer spelled
      obtain ⟨imageJournal, images⟩ := image_of_spelled found answer spelled
      have loadShown := Shown.loaded
        (session.withMachine (hosted.machine.load values 0).2 loadJournal) "load" path
        ((hosted.machine.load values 0).1.mapError .ofLoad)
      have imageShown := Shown.loaded
        (session.withMachine (hosted.machine.load values 0).2 imageJournal) "image" path
        ((hosted.machine.load values 0).1.mapError .ofLoad)
      rw [loads, images]
      refine ⟨(Reloaded.withMachine found loadJournal).shown loadShown,
        (Reloaded.withMachine found imageJournal).shown imageShown, ?_⟩
      rw [loadShown.host, imageShown.host]
      rfl

/-- Two machines, and a disk with a file that can be loaded, one that holds a bad token and no image
file: what is loaded badly leaves the session, and what is loaded well changes the current machine
only. -/
theorem file_loads_all_or_nothing_pair :
    let first : Machine := { memory := { width := 8, cells := #[1, 2, 3] }, pc := 2 }
    let second : Machine := { memory := { width := 8, cells := #[9] }, pc := 0 }
    let session : Session :=
      { host := { machines := [⟨1, first⟩, ⟨4, second⟩],
                  names := [(1, "main"), (4, "vm")], nextPid := 5 },
        imagePath := some "none", current := 4 }
    let disk : LiveDisk := fun _ path =>
      if path = "good" then some (.ok "+300 -1".toUTF8.toList)
      else if path = "bad" then some (.ok "1 x".toUTF8.toList)
      else some (.error (.missing path))
    let limits : Limits := { fuel := 0, nesting := 0 }
    Shown session (session.command limits disk ":host load bad").1 ∧
      Shown session (session.command limits disk ":host image bad").1 ∧
      Shown session (session.command limits disk ":host new").1 ∧
      Reloaded [300, -1] session (session.command limits disk ":host load good").1 ∧
      Reloaded [300, -1] session (session.command limits disk " :host image \"good\" x").1 := by
  intro first second session disk limits
  have distinct : session.host.pids.Nodup := by decide
  obtain ⟨fails, agrees⟩ := file_loads_all_or_nothing limits disk session distinct
  have bad : (disk session.host.journal).Unloadable "bad" := by
    have answer : (disk session.host.journal).readText "bad" = .ok "1 x" := by decide +kernel
    have unread : Program.read "1 x" = .error (.token "x" 1 2) := by decide +kernel
    rw [Disk.Unloadable, answer]
    exact Program.exists_read_eq_error_iff.mp ⟨_, unread⟩
  have missing : (disk session.host.journal).Unloadable "none" := by
    have answer : (disk session.host.journal).readText "none" =
        .error (.refused (.missing "none")) := by decide +kernel
    rw [Disk.Unloadable, answer]
    trivial
  have answer : (disk session.host.journal).readText "good" = .ok "+300 -1" := by decide +kernel
  have read : Program.read "+300 -1" = .ok [300, -1] := by decide +kernel
  obtain ⟨loaded, imaged, -⟩ := agrees ":host load good" " :host image \"good\" x" "good" "+300 -1"
    [300, -1] rfl rfl answer (Program.read_eq_ok_iff.mp read)
  have load := fails ":host load bad" "bad" rfl bad
  have image := fails ":host image bad" "bad" rfl bad
  have new := fails ":host new" "none" rfl missing
  exact ⟨load.2, image.2, new.2, loaded, imaged⟩

end Session

end Subleq
