import Subleq.Proofs.Session.Output

/-!
# The current machine of a session

The number of the current machine belongs to a machine of the host, unless the host has no machine
at all. A session only moves in four ways: it stays at its machine, it goes to a new machine, it
goes to a machine that is there, or it removes a machine and goes to the first that is left if that
was the current one. Each of them finds a machine where there is one.

The states in question are not only those that requests end in. Commands and lines of scripts, at
every depth, find a session in states of their own, and these are listed along the way.
-/

namespace Subleq.Session

/-! ## Moves -/

/-- The current machine is one of the host, or the host has no machine. -/
def HasCurrent (session : Session) : Prop :=
  session.host.pids = [] ∨ session.current ∈ session.host.pids

/-- A session is still at its machine, and its host has the same machines. -/
structure Stays (session next : Session) : Prop where
  current : next.current = session.current
  pids : next.host.pids = session.host.pids

namespace Stays

theorem refl (session : Session) : Stays session session := ⟨rfl, rfl⟩

theorem trans {session middle next : Session} (before : Stays session middle)
    (after : Stays middle next) : Stays session next :=
  ⟨after.current.trans before.current, after.pids.trans before.pids⟩

theorem shown {session next : Session} (shown : Shown session next) : Stays session next :=
  ⟨shown.current, congrArg Host.pids shown.host⟩

theorem foldl_take (items : List (Int × String)) (session : Session) :
    Stays session (items.foldl take session) := by
  induction items generalizing session with
  | nil => exact .refl session
  | cons item items ih =>
      have first : Stays session (session.take item) := by
        rw [take_eq]
        exact ⟨rfl, rfl⟩
      exact first.trans (ih _)

theorem drain (session : Session) : Stays session session.drain :=
  have emptied : Stays session { session with host := { session.host with queue := #[] } } :=
    ⟨rfl, rfl⟩
  emptied.trans (foldl_take _ _)

theorem settle (session : Session) (fault : Fault) : Stays session (session.settle fault).1 := by
  unfold Session.settle
  split
  · exact (shown (.print session _)).trans (drain _)
  · exact drain session

theorem update {α : Type} (session : Session) {hosted : Hosted}
    (found : session.host.find? session.current = some hosted) (journal : Journal)
    (work : Bench OutputQueue → Except Fault α × Bench OutputQueue) :
    Stays session
      { session with
        host := (Host.update { session.host with journal } session.current work).2 } :=
  ⟨rfl, (Host.update_spec { session.host with journal } found work).2.1⟩

theorem send (limits : Limits) (session : Session) (line : String) :
    Stays session (session.send limits line).1 := by
  unfold Session.send
  rcases session.machine?_cases with missing | ⟨hosted, found, present⟩
  · rw [missing]
    exact shown (.print session _)
  · rw [present]
    dsimp only
    split
    · exact shown (.print session _)
    · have sent := update session found session.host.journal
        (·.eval (Host.ports session.current) limits.fuel defaultTerminator line)
      split
      next host answered => rw [← Host.send, answered] at sent; exact sent.trans (drain _)
      next fault host answered =>
        rw [← Host.send, answered] at sent
        exact sent.trans (settle _ fault)

theorem run (limits : Limits) (session : Session) : Stays session (session.run limits).1 := by
  unfold Session.run
  rcases session.machine?_cases with missing | ⟨hosted, found, present⟩
  · rw [missing]
    exact shown (.print session _)
  · rw [present]
    have ran := update session found session.host.journal
      (·.run (Host.ports session.current) limits.fuel)
    dsimp only
    split
    next host answered =>
      rw [← Host.run, answered] at ran
      exact (ran.trans (drain _)).trans (shown (.print _ _))
    next fault host answered =>
      rw [← Host.run, answered] at ran
      exact ran.trans (settle _ fault)

theorem load (disk : LiveDisk) (session : Session) (path : String) :
    Stays session (session.load disk path).1 := by
  unfold Session.load
  rcases session.machine?_cases with missing | ⟨hosted, found, present⟩
  · rw [missing]
    exact shown (.print session _)
  · rw [present]
    dsimp only
    split
    · exact shown (.loaded session _ _ _)
    · exact (update session found session.host.journal _).trans (shown (.loaded _ _ _ _))

theorem image (disk : LiveDisk) (session : Session) (path : String) :
    Stays session (session.image disk path).1 := by
  unfold Session.image
  rcases session.machine?_cases with missing | ⟨hosted, found, present⟩
  · rw [missing]
    exact shown (.print session _)
  · rw [present]
    dsimp only
    split
    · exact shown (.loaded session _ _ _)
    · exact (update session found _ _).trans (shown (.loaded _ _ _ _))

end Stays

/-- How a session moves among the machines of its host. -/
inductive Moves (session next : Session) : Prop
  | stays (stays : Stays session next)
  | creates (current : next.current = session.host.nextPid)
      (pids : next.host.pids = session.host.pids ++ [session.host.nextPid])
  | switches (current : next.current ∈ session.host.pids)
      (pids : next.host.pids = session.host.pids)
  | kills (pid : Int) (pids : next.host.pids = session.host.pids.filter (· != pid))
      (current : next.current =
        if pid = session.current then next.host.pids.head?.getD session.current
        else session.current)

namespace Moves

theorem hasCurrent {session next : Session} (moves : Moves session next)
    (has : session.HasCurrent) : next.HasCurrent := by
  unfold HasCurrent at has ⊢
  cases moves with
  | stays stays => rwa [stays.current, stays.pids]
  | creates current pids =>
      right
      rw [current, pids]
      exact List.mem_append_right _ (List.mem_singleton_self _)
  | switches current pids =>
      right
      rwa [pids]
  | kills pid pids current =>
      by_cases own : pid = session.current
      · -- Whatever is left, its first machine is the current one.
        rw [if_pos own] at current
        cases left : next.host.pids with
        | nil => exact Or.inl rfl
        | cons first rest =>
            right
            rw [current, left]
            exact List.mem_cons_self
      · rw [if_neg own] at current
        rw [current, pids]
        rcases has with none | member
        · left
          rw [none]
          rfl
        · right
          simp [member, Ne.symm own]

theorem shown {session next : Session} (shown : Shown session next) : Moves session next :=
  .stays (.shown shown)

theorem create (disk : LiveDisk) (session : Session) (name : String) :
    Moves session (session.create disk name).1 := by
  unfold Session.create
  dsimp only
  cases bootImage disk session.imagePath session.host.journal with
  | error fault =>
      dsimp only
      split
      · exact shown (.print session _)
      · exact shown (.refl session)
  | ok booted =>
      obtain ⟨image, journal⟩ := booted
      obtain ⟨result, after, created, -, -, outcome⟩ :=
        Host.create_cases { session.host with journal } name image
      dsimp only
      rw [created]
      rcases outcome with ⟨fault, rfl, same⟩ | ⟨rfl, added⟩
      · dsimp only
        split
        · exact .stays ⟨rfl, same⟩
        · exact .stays ⟨rfl, same⟩
      · exact .creates rfl added

theorem switch (session : Session) (pid : Int) : Moves session (session.switch pid) := by
  unfold Session.switch
  split
  next there =>
    refine .switches ?_ rfl
    simpa [Host.contains, Host.pids, Session.print, Session.write] using there
  next => exact shown (.print session _)

theorem kill (session : Session) (pid : Int) : Moves session (session.kill pid) := by
  have left : (session.host.kill pid).pids = session.host.pids.filter (· != pid) := by
    rw [Host.pids, Host.pids, List.filter_map]
    rfl
  unfold Session.kill
  dsimp only
  split
  next own =>
    have same : pid = session.current := by simpa using own
    split
    next none =>
      have empty : (session.host.kill pid).pids = [] := by rw [← Host.pids_table, none]; rfl
      refine .kills pid left ?_
      rw [if_pos same]
      change session.current = (session.host.kill pid).pids.head?.getD session.current
      rw [empty]
      rfl
    next next rest some =>
      refine .kills pid left ?_
      rw [if_pos same]
      change next.pid = (session.host.kill pid).pids.head?.getD session.current
      rw [← Host.pids_table, some]
      rfl
  next other =>
    have apart : pid ≠ session.current := by simpa using other
    refine .kills pid left ?_
    rw [if_neg apart]
    rfl

end Moves

/-! ## Visits -/

section Visits

variable (limits : Limits) (disk : LiveDisk)

/-- A way to list the states that the lines of a script find. -/
abbrev ScriptVisits := List String → Session → List Session

/-- The states that a command and the script it may run find, where `visits` lists those of
scripts. -/
def executeVisits (visits : ScriptVisits) (session : Session) : Command → List Session
  | .script path =>
      session ::
        match (disk session.host.journal).readLines path with
        | .ok lines => visits lines session
        | .error _ => []
  | _ => [session]

/-- The states that lines find which are taken one after the other, until one does not end
normally. -/
def linesVisits (line : String → Session → Session × Outcome)
    (visits : String → Session → List Session) : ScriptVisits
  | [], _ => []
  | text :: texts, session =>
      visits text session ++
        match line text session with
        | (session, .done) => linesVisits line visits texts session
        | _ => []

/-- The states that a line of a script finds. -/
def scriptLineVisits (visits : ScriptVisits) (raw : String) (session : Session) : List Session :=
  let line := scriptLine raw
  if isSkipped line then []
  else if Command.marks line then executeVisits disk visits session (.ofLine line)
  else [session]

/-- The states that a script finds. -/
def scriptVisits : (depth : Nat) → ScriptVisits
  | 0 => fun _ _ => []
  | depth + 1 =>
      linesVisits (takeScriptLine limits disk (runScript limits disk depth))
        (scriptLineVisits disk (scriptVisits depth))

namespace Request

/-- The states that a request finds. -/
def visits (session : Session) : Request → List Session
  | .command disk line =>
      executeVisits disk (scriptVisits limits disk limits.nesting) session (.ofLine line)
  | .script disk lines => scriptVisits limits disk limits.nesting lines session
  | _ => [session]

/-- The states that requests find, one after the other. -/
def visitsAll : List Request → Session → List Session
  | [], _ => []
  | request :: requests, session =>
      visits limits session request ++ visitsAll requests (perform limits session request)

end Request

end Visits

/-- A session that has its current machine goes on to one that has it, and has it on the way. -/
def Keeps (session next : Session) (visited : List Session) : Prop :=
  session.HasCurrent → next.HasCurrent ∧ ∀ state ∈ visited, state.HasCurrent

namespace Keeps

theorem refl (session : Session) : Keeps session session [] :=
  fun has => ⟨has, by simp⟩

theorem trans {session middle next : Session} {first second : List Session}
    (before : Keeps session middle first) (after : Keeps middle next second) :
    Keeps session next (first ++ second) := by
  intro has
  obtain ⟨reached, early⟩ := before has
  obtain ⟨arrived, late⟩ := after reached
  refine ⟨arrived, ?_⟩
  intro state visited
  rcases List.mem_append.mp visited with there | there
  · exact early state there
  · exact late state there

theorem visit {session next : Session} {visited : List Session}
    (keeps : Keeps session next visited) : Keeps session next (session :: visited) := by
  intro has
  obtain ⟨arrived, between⟩ := keeps has
  exact ⟨arrived, List.forall_mem_cons.mpr ⟨has, between⟩⟩

theorem moves {session next : Session} (moves : Moves session next) :
    Keeps session next [session] :=
  visit fun has => ⟨moves.hasCurrent has, by simp⟩

theorem stays {session next : Session} (stays : Stays session next) :
    Keeps session next [session] :=
  moves (.stays stays)

theorem shown {session next : Session} (shown : Shown session next) :
    Keeps session next [session] :=
  stays (.shown shown)

end Keeps

section Scripts

variable (limits : Limits) (disk : LiveDisk) (session : Session)

/-- Every command keeps the current machine, if scripts do. -/
theorem keeps_execute {runner : ScriptRunner} {visits : ScriptVisits}
    (scripts : ∀ lines session, Keeps session (runner lines session).1 (visits lines session))
    (command : Command) :
    Keeps session (execute limits disk runner session command).1
      (executeVisits disk visits session command) := by
  cases command with
  | help => exact .shown (.help session)
  | unknown word => exact .shown ((Shown.print session _).trans (.help _))
  | badLine fault => exact .shown (.print session _)
  | usage text => exact .shown (.print session _)
  | create name => exact .moves (.create disk session name)
  | current => exact .shown (.print session _)
  | switch pid => exact .moves (.switch session pid)
  | list => exact .shown (.list session)
  | kill pid => exact .moves (.kill session pid)
  | logs pid => exact .shown (.showLog session _)
  | load path => exact .stays (.load disk session path)
  | image path => exact .stays (.image disk session path)
  | run => exact .stays (.run limits session)
  | counter => exact .shown (.counter session)
  | dump range => exact .shown (.dump session range)
  | script path =>
      simp only [execute, executeVisits, script]
      split
      next lines found => rw [found]; exact (scripts lines session).visit
      next fault found => rw [found]; exact .shown (.print session _)
      next fault _ found => rw [found]; exact .shown (.refl session)
  | quit => exact .shown (.print session _)

/-- Lines that are taken one after the other keep the current machine, if each line does. -/
theorem keeps_takeLines {line : String → Session → Session × Outcome}
    {visits : String → Session → List Session}
    (each : ∀ text session, Keeps session (line text session).1 (visits text session))
    (lines : List String) :
    Keeps session (takeLines line lines session).1 (linesVisits line visits lines session) := by
  induction lines generalizing session with
  | nil => exact .refl session
  | cons text lines ih =>
      have first := each text session
      unfold takeLines linesVisits
      cases taken : line text session with
      | mk next outcome =>
          rw [taken] at first
          cases outcome with
          | done => exact first.trans (ih next)
          | quit => exact first.trans (.refl next)
          | escaped fault => exact first.trans (.refl next)

theorem keeps_takeScriptLine {runner : ScriptRunner} {visits : ScriptVisits}
    (scripts : ∀ lines session, Keeps session (runner lines session).1 (visits lines session))
    (raw : String) :
    Keeps session (takeScriptLine limits disk runner raw session).1
      (scriptLineVisits disk visits raw session) := by
  unfold takeScriptLine scriptLineVisits takeLine
  dsimp only
  split
  · exact .refl session
  · split
    · exact keeps_execute limits disk session scripts _
    · exact .stays (.send limits session _)

/-- A script keeps the current machine, whatever is nested in it. -/
theorem keeps_runScript (depth : Nat) (lines : List String) :
    Keeps session (runScript limits disk depth lines session).1
      (scriptVisits limits disk depth lines session) := by
  induction depth generalizing lines session with
  | zero => exact .refl session
  | succ depth ih =>
      refine keeps_takeLines session ?_ lines
      intro text session
      exact keeps_takeScriptLine limits disk session (fun lines session => ih session lines) text

end Scripts

/-! ## Requests -/

theorem keeps_perform (limits : Limits) (session : Session) (request : Request) :
    Keeps session (Request.perform limits session request)
      (Request.visits limits session request) := by
  cases request with
  | command disk line =>
      refine keeps_execute limits disk session ?_ _
      intro lines session
      exact keeps_runScript limits disk session limits.nesting lines
  | send line => exact .stays (.send limits session line)
  | script disk lines => exact keeps_runScript limits disk session limits.nesting lines
  | drain => exact .stays (.drain session)
  | output pid text => exact .stays ⟨rfl, rfl⟩

theorem keeps_visitsAll (limits : Limits) (requests : List Request) (session : Session) :
    Keeps session (Request.performAll limits requests session)
      (Request.visitsAll limits requests session) := by
  induction requests generalizing session with
  | nil => exact .refl session
  | cons request requests ih => exact (keeps_perform limits session request).trans (ih _)

/-- A session that has its current machine works on it, unless there is no machine. -/
theorem HasCurrent.machine? {session : Session} (has : session.HasCurrent) :
    session.host.table = [] ∧ session.machine? = none ∨
      ∃ hosted ∈ session.host.table, hosted.pid = session.current ∧
        session.machine? = some hosted.machine := by
  rcases has with none | member
  · have empty : session.host.machines = [] := List.map_eq_nil_iff.mp none
    left
    refine ⟨by rw [Host.table, empty, List.map_nil], ?_⟩
    simp [Session.machine?, Host.find?, empty]
  · right
    obtain ⟨hosted, there, own, found⟩ := Host.exists_find? member
    refine ⟨⟨hosted.pid, session.host.nameOf hosted.pid, hosted.machine⟩,
      List.mem_map_of_mem there, own, ?_⟩
    rw [Session.machine?, found]
    rfl

/-- The current machine is always there. Take a session that has started in any way, and any
commands, lines, scripts, drains and output from elsewhere, one after the other, however each of
them ends. In the state after them, and in every state that a command or a line has found on the
way, at any depth of scripts, the current number belongs to a machine of the host, and that machine
is the one that commands and lines work on; or the host has no machine left. So a session complains
that there is no current machine only if there is no machine. -/
theorem performAll_keeps_current {room : Room} {disk : LiveDisk} {imagePath : Option String}
    {bits : Int} {session : Session} (started : start room disk imagePath bits = .ok session)
    (limits : Limits) (requests : List Request) :
    ∀ state ∈
        Request.performAll limits requests session :: Request.visitsAll limits requests session,
      state.host.table = [] ∧ state.machine? = none ∨
        ∃ hosted ∈ state.host.table, hosted.pid = state.current ∧
          state.machine? = some hosted.machine := by
  have first : session.HasCurrent := by
    right
    rw [(start_spec started).2.1]
    exact List.mem_singleton_self _
  obtain ⟨last, between⟩ := keeps_visitsAll limits requests session first
  intro state visited
  rcases List.mem_cons.mp visited with rfl | there
  · exact last.machine?
  · exact (between state there).machine?

/-- A script goes back to the first machine and removes it, and another script in it removes the
second one, sends a line to nobody and makes a third. -/
theorem performAll_keeps_current_nested :
    let file (text : String) := some (.ok (text.toList.map fun c => c.toNat.toUInt8))
    let disk : LiveDisk := fun _ path =>
      if path = "image" then file "6 -1 3 7 7 -1 65 0" else file ":host kill 2\nx\n:host new\n"
    let limits : Limits := { fuel := 20, nesting := 2 }
    let requests : List Request :=
      [.command disk ":host new",
        .script disk [":host vm 1", ":host kill 1", ":host read-from inner", "x"]]
    ∃ session, start .unlimited disk (some "image") 16 = .ok session ∧
      let visited :=
        Request.performAll limits requests session :: Request.visitsAll limits requests session
      visited.map (fun state => (state.current, state.host.pids)) =
          [(3, [3]), (1, [1]), (2, [1, 2]), (1, [1, 2]), (2, [2]), (2, [2]), (2, []), (2, []),
            (3, [3])] ∧
        ∀ state ∈ visited, state.host.table = [] ∧ state.machine? = none ∨
          ∃ hosted ∈ state.host.table, hosted.pid = state.current ∧
            state.machine? = some hosted.machine := by
  intro file disk limits requests
  have checked : (match start .unlimited disk (some "image") 16 with
      | .error _ => false
      | .ok session =>
          decide ((Request.performAll limits requests session ::
              Request.visitsAll limits requests session).map
                (fun state => (state.current, state.host.pids)) =
            [(3, [3]), (1, [1]), (2, [1, 2]), (1, [1, 2]), (2, [2]), (2, [2]), (2, []), (2, []),
              (3, [3])])) = true := by
    decide +kernel
  cases started : start .unlimited disk (some "image") 16 with
  | error fault =>
      rw [started] at checked
      cases checked
  | ok session =>
      rw [started] at checked
      exact ⟨session, rfl, of_decide_eq_true checked,
        performAll_keeps_current started limits requests⟩

end Subleq.Session
