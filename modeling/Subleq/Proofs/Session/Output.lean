import Subleq.Proofs.Host.Queue
import Subleq.Proofs.Session.Trace

/-!
# The output of a session

Nothing that a machine emits is lost, doubled, put out of order or taken for the output of another
machine. Every command of a session keeps its books: what is in the log of a machine, with what is
queued of it behind, grows by the texts of the machine in the trace, and numbers are handed out in
ascending order. A drain moves output from the queue to the logs and shows that of the current
machine.
-/

namespace Subleq.Session

/-! ## Logs -/

theorem lookup_addToLog (pid other : Int) (text : String) (logs : List (Int × Array String)) :
    (addToLog pid text logs).lookup other =
      if other = pid then some (((logs.lookup pid).getD #[]).push text)
      else logs.lookup other := by
  induction logs with
  | nil =>
      by_cases same : other = pid
      · simp [addToLog, same]
      · simp [addToLog, same, List.lookup_cons, beq_false_of_ne same]
  | cons entry logs ih =>
      obtain ⟨first, texts⟩ := entry
      by_cases own : first = pid
      · by_cases same : other = pid
        · simp [addToLog, own, same]
        · simp [addToLog, own, same, List.lookup_cons, beq_false_of_ne same]
      · by_cases reached : other = first
        · simp [addToLog, own, reached]
        · have passed : (pid == first) = false := beq_false_of_ne (Ne.symm own)
          simp [addToLog, own, List.lookup_cons, beq_false_of_ne reached, passed, ih]

/-- Showing a text changes the logs and the screen only. -/
theorem take_eq (session : Session) (item : Int × String) :
    session.take item =
      { session with
        logs := addToLog item.1 item.2 session.logs,
        screen := session.screen ++ if item.1 = session.current then item.2 else "" } := by
  by_cases own : item.1 = session.current
  · simp [take, own, write]
  · simp [take, own]

/-- A text goes to the log of its machine and to no other. -/
theorem log_take (session : Session) (pid : Int) (item : Int × String) :
    ((session.take item).log pid).toList =
      (session.log pid).toList ++ if item.1 = pid then [item.2] else [] := by
  rw [take_eq, log, lookup_addToLog]
  by_cases own : item.1 = pid
  · simp [log, own]
  · simp [log, own, Ne.symm own]

/-- Texts go to the logs of their machines in order, and to the screen in order if they come from
the current machine. -/
theorem foldl_take (items : List (Int × String)) (session : Session) :
    let after := items.foldl take session
    after.host = session.host ∧
      (∀ pid, (after.log pid).toList =
        (session.log pid).toList ++ (items.filter (·.1 == pid)).map Prod.snd) ∧
      after.screen =
        session.screen ++
          String.join ((items.filter (·.1 == session.current)).map Prod.snd) := by
  induction items generalizing session with
  | nil => simp
  | cons item items ih =>
      obtain ⟨host, logs, screen⟩ := ih (session.take item)
      have sameHost : (session.take item).host = session.host := by rw [take_eq]
      have sameCurrent : (session.take item).current = session.current := by rw [take_eq]
      refine ⟨host.trans sameHost, ?_, ?_⟩
      · intro pid
        rw [List.foldl_cons, logs, log_take]
        by_cases own : item.1 = pid
        · simp [own]
        · simp [own]
      · rw [List.foldl_cons, screen, sameCurrent, take_eq]
        by_cases own : item.1 = session.current
        · simp [own, String.join_cons, String.append_assoc]
        · simp [own]

/-- What is known of the output of a machine: its log, and what is queued of it. -/
def held (session : Session) (pid : Int) : List String :=
  (session.log pid).toList ++ (Host.outputOf pid session.host.queue).map Prod.snd

/-- A drain empties the queue, logs all of it, and shows what comes from the current machine. -/
theorem drain_spec (session : Session) :
    session.drain.host = { session.host with queue := #[] } ∧
      (∀ pid, session.drain.held pid = session.held pid) ∧
      session.drain.screen =
        session.screen ++
          String.join ((Host.outputOf session.current session.host.queue).map Prod.snd) := by
  obtain ⟨host, logs, screen⟩ := foldl_take session.host.queue.toList
    { session with host := { session.host with queue := #[] } }
  refine ⟨host, ?_, screen⟩
  intro pid
  have drained : session.drain.host.queue = #[] := congrArg Host.queue host
  have emptied : Host.outputOf pid #[] = [] := rfl
  rw [held, drained, emptied, List.map_nil, List.append_nil]
  exact logs pid

/-! ## Books -/

/-- A session has gone on to another while this has happened: what is held of every machine has
grown by its texts, every number that was handed out is a new one and greater than those before, and
every machine was there before or has got its number. -/
structure Books (session next : Session) (trace : List Incident) : Prop where
  held : ∀ pid, next.held pid = session.held pid ++ texts pid trace
  later : session.host.nextPid ≤ next.host.nextPid
  ascending : (births trace).Pairwise (· < ·)
  fresh : ∀ pid ∈ births trace, session.host.nextPid ≤ pid ∧ pid < next.host.nextPid
  listed : ∀ pid ∈ next.host.pids, pid ∈ session.host.pids ∨ pid ∈ births trace
  numbered : session.host.Numbered → next.host.Numbered

namespace Books

variable {session middle next : Session} {first second : List Incident}

theorem trans (before : Books session middle first) (after : Books middle next second) :
    Books session next (first ++ second) where
  held := by
    intro pid
    rw [after.held, before.held, texts_append, List.append_assoc]
  later := Int.le_trans before.later after.later
  ascending := by
    rw [births_append, List.pairwise_append]
    refine ⟨before.ascending, after.ascending, ?_⟩
    intro pid early other late
    exact Int.lt_of_lt_of_le (before.fresh pid early).2 (after.fresh other late).1
  fresh := by
    intro pid born
    rw [births_append, List.mem_append] at born
    rcases born with early | late
    · obtain ⟨lower, upper⟩ := before.fresh pid early
      exact ⟨lower, Int.lt_of_lt_of_le upper after.later⟩
    · obtain ⟨lower, upper⟩ := after.fresh pid late
      exact ⟨Int.le_trans before.later lower, upper⟩
  listed := by
    intro pid member
    rw [births_append, List.mem_append]
    rcases after.listed pid member with there | born
    · exact (before.listed pid there).imp_right Or.inl
    · exact Or.inr (Or.inr born)
  numbered := fun numbered => after.numbered (before.numbered numbered)

/-- Nothing is entered while neither the logs nor the queue change, and no machine is added. -/
theorem quiet (logs : next.logs = session.logs) (queue : next.host.queue = session.host.queue)
    (later : session.host.nextPid ≤ next.host.nextPid)
    (fewer : next.host.pids.Sublist session.host.pids) : Books session next [] where
  held := by
    intro pid
    simp [Session.held, log, logs, queue, texts]
  later := later
  ascending := List.Pairwise.nil
  fresh := by simp [births]
  listed := fun pid member => Or.inl (fewer.subset member)
  numbered := by
    rintro ⟨below, distinct⟩
    refine ⟨?_, distinct.sublist fewer⟩
    intro pid member
    exact Int.lt_of_lt_of_le (below pid (fewer.subset member)) later

theorem refl (session : Session) : Books session session [] :=
  quiet rfl rfl (Int.le_refl _) (List.Sublist.refl _)

theorem before_quiet (before : Books session middle first) (after : Books middle next []) :
    Books session next first := by
  have both := before.trans after
  rwa [List.append_nil] at both

theorem shown (logs : next.logs = session.logs) (host : next.host = session.host) :
    Books session next [] := by
  have pids : next.host.pids = session.host.pids := congrArg Host.pids host
  refine quiet logs (congrArg Host.queue host) ?_ ?_
  · exact Int.le_of_eq (congrArg Host.nextPid host).symm
  · exact pids ▸ List.Sublist.refl _

theorem drain (session : Session) : Books session session.drain [] where
  held := by
    intro pid
    rw [(drain_spec session).2.1, texts, List.filterMap_nil, List.append_nil]
  later := Int.le_of_eq (congrArg Host.nextPid (drain_spec session).1).symm
  ascending := List.Pairwise.nil
  fresh := by simp [births]
  listed := by
    intro pid member
    rw [(drain_spec session).1] at member
    exact Or.inl member
  numbered := by
    intro numbered
    rw [(drain_spec session).1]
    exact ⟨numbered.below, numbered.distinct⟩

/-- Output that is added to the queue is entered under the number of its machine. -/
theorem queued {host : Host} (pid : Int) (items : List String)
    (queue : host.queue.toList = session.host.queue.toList ++ items.map (pid, ·))
    (nextPid : host.nextPid = session.host.nextPid) (same : host.pids = session.host.pids) :
    Books session { session with host } (items.map (.text pid ·)) where
  held := by
    intro other
    have logs : ({ session with host } : Session).log other = session.log other := rfl
    rw [Session.held, Session.held, logs, Host.outputOf, Host.outputOf, queue, List.filter_append,
      List.map_append, List.append_assoc]
    congr 2
    rw [texts_map_text]
    by_cases own : pid = other
    · simp [own, List.filter_map, Function.comp_def]
    · simp [own, List.filter_map, Function.comp_def]
  later := Int.le_of_eq nextPid.symm
  ascending := by
    rw [births_map_text]
    exact List.Pairwise.nil
  fresh := by
    simp [births_map_text]
  listed := by
    intro other member
    rw [← same]
    exact Or.inl member
  numbered := by
    rintro ⟨below, distinct⟩
    rw [← same] at below distinct
    rw [← nextPid] at below
    exact ⟨below, distinct⟩

/-- A machine that is added under the next number is entered. -/
theorem born (logs : next.logs = session.logs) (queue : next.host.queue = session.host.queue)
    (nextPid : next.host.nextPid = session.host.nextPid + 1)
    (added : next.host.pids = session.host.pids ++ [session.host.nextPid]) :
    Books session next [.birth session.host.nextPid] where
  held := by
    intro pid
    simp [Session.held, log, logs, queue, texts]
  later := by omega
  ascending := List.pairwise_singleton _ _
  fresh := by
    intro pid member
    rw [List.mem_singleton.mp member]
    omega
  listed := by
    intro pid member
    rw [added, List.mem_append] at member
    exact member
  numbered := by
    rintro ⟨below, distinct⟩
    constructor
    · intro pid member
      rw [added, List.mem_append, List.mem_singleton] at member
      rcases member with there | rfl
      · have lower := below pid there
        omega
      · omega
    · rw [added, List.nodup_append]
      refine ⟨distinct, List.pairwise_singleton _ _, ?_⟩
      rintro pid there _ new rfl
      rw [List.mem_singleton.mp new] at there
      exact absurd (below _ there) (Int.lt_irrefl _)

end Books

/-! ## Commands -/

/-- Something is shown, and nothing else is done. -/
structure Shown (session next : Session) : Prop where
  logs : next.logs = session.logs
  host : next.host = session.host
  current : next.current = session.current

namespace Shown

theorem refl (session : Session) : Shown session session := ⟨rfl, rfl, rfl⟩

theorem trans {session middle next : Session} (before : Shown session middle)
    (after : Shown middle next) : Shown session next :=
  ⟨after.logs.trans before.logs, after.host.trans before.host, after.current.trans before.current⟩

theorem books {session next : Session} (shown : Shown session next) : Books session next [] :=
  .shown shown.logs shown.host

theorem write (session : Session) (text : String) : Shown session (session.write text) :=
  ⟨rfl, rfl, rfl⟩

theorem print (session : Session) (line : String) : Shown session (session.print line) :=
  ⟨rfl, rfl, rfl⟩

theorem foldl {step : Session → String → Session}
    (each : ∀ session line, Shown session (step session line)) (lines : List String)
    (session : Session) : Shown session (lines.foldl step session) := by
  induction lines generalizing session with
  | nil => exact .refl session
  | cons line lines ih => exact (each session line).trans (ih _)

theorem printEach (lines : List (Option String)) (session : Session) :
    Shown session (session.printEach lines).1 := by
  induction lines generalizing session with
  | nil => exact .refl session
  | cons line lines ih =>
      cases line with
      | none => exact .refl session
      | some line => exact (print session line).trans (ih _)

theorem list (session : Session) : Shown session session.list.1 := by
  unfold Session.list
  split
  · exact print session _
  · exact (foldl print _ session).trans (printEach _ _)

theorem help (session : Session) : Shown session session.help := foldl print _ session

theorem showLog (session : Session) (pid : Int) : Shown session (session.showLog pid) := by
  unfold Session.showLog
  dsimp only
  split
  · exact print session _
  next last _ =>
    have listed (head : String) :
        Shown session (Array.foldl Session.write (session.print head) (session.log pid)) := by
      rw [← Array.foldl_toList]
      exact (print session head).trans (foldl write _ _)
    split
    · exact (listed _).trans (print _ _)
    · exact ((listed _).trans (write _ _)).trans (print _ _)

theorem loaded (session : Session) (word path : String) (result : Except Fault Nat) :
    Shown session (session.loaded word path result).1 := by
  unfold Session.loaded
  split
  · exact print session _
  · split
    · exact print session _
    · exact refl session

theorem counter (session : Session) : Shown session session.counter.1 := by
  unfold Session.counter
  split
  · exact print session _
  · exact printEach _ session

theorem dump (session : Session) (range : Except String (Int × Int)) :
    Shown session (session.dump range).1 := by
  unfold Session.dump
  dsimp only
  split
  · exact print session _
  · split
    · exact print session _
    · split
      · exact print session _
      · exact printEach _ session

end Shown

section Commands

variable (limits : Limits) (disk : LiveDisk) (session : Session)

/-- There is no current machine, or one that the host has. -/
theorem machine?_cases :
    session.machine? = none ∨ ∃ hosted, session.host.find? session.current = some hosted ∧
      session.machine? = some hosted.machine := by
  unfold machine?
  cases session.host.find? session.current with
  | none => exact Or.inl rfl
  | some hosted => exact Or.inr ⟨hosted, rfl, rfl⟩

theorem books_settle (fault : Fault) : Books session (session.settle fault).1 [] := by
  unfold settle
  split
  · exact (Shown.print session _).books.before_quiet (.drain _)
  · exact .drain session

theorem books_send (line : String) :
    Books session (session.send limits line).1 (sendTrace limits session line) := by
  unfold send sendTrace
  rcases session.machine?_cases with missing | ⟨hosted, found, present⟩
  · rw [missing]
    exact (Shown.print session _).books
  · rw [present]
    dsimp only
    cases halt : hosted.machine.halted with
    | true =>
        rw [if_pos rfl, if_pos rfl]
        exact (Shown.print session _).books
    | false =>
        rw [if_neg Bool.false_ne_true, if_neg Bool.false_ne_true]
        obtain ⟨nextPid, same, -⟩ := Host.update_spec session.host found
          (·.eval (Host.ports session.current) limits.fuel defaultTerminator line)
        have sent := Books.queued session.current _
          (session.host.queue_send limits.fuel line found halt) nextPid same
        cases answered : session.host.send limits.fuel session.current line with
        | mk result host =>
            rw [answered] at sent
            cases result with
            | ok steps => exact sent.before_quiet (.drain _)
            | error fault => exact sent.before_quiet (books_settle _ fault)

theorem books_run : Books session (session.run limits).1 (runTrace limits session) := by
  unfold run runTrace
  rcases session.machine?_cases with missing | ⟨hosted, found, present⟩
  · rw [missing]
    exact (Shown.print session _).books
  · rw [present]
    dsimp only
    obtain ⟨nextPid, same, -⟩ := Host.update_spec session.host found
      (·.run (Host.ports session.current) limits.fuel)
    have ran := Books.queued session.current _
      (session.host.queue_run limits.fuel found) nextPid same
    cases answered : session.host.run limits.fuel session.current with
    | mk result host =>
        rw [answered] at ran
        cases result with
        | ok steps =>
            exact (ran.before_quiet (.drain _)).before_quiet (Shown.print _ _).books
        | error fault => exact ran.before_quiet (books_settle _ fault)

/-- A creation enters the number of the machine, if there is one then. -/
theorem books_create (name : String) :
    Books session (session.create disk name).1 (createTrace disk session name) := by
  unfold create createTrace
  dsimp only
  cases bootImage disk session.imagePath session.host.journal with
  | error fault =>
      dsimp only
      split
      · exact (Shown.print session _).books
      · exact .refl session
  | ok booted =>
      obtain ⟨image, journal⟩ := booted
      obtain ⟨result, after, created, queue, nextPid, outcome⟩ :=
        Host.create_cases { session.host with journal } name image
      dsimp only
      rw [created]
      rcases outcome with ⟨fault, rfl, same⟩ | ⟨rfl, added⟩
      · have used : Books session { session with host := after } [] := by
          refine .quiet rfl queue ?_ ?_
          · rw [nextPid]
            exact Int.le_add_one (Int.le_refl _)
          · rw [same]
            exact List.Sublist.refl _
        dsimp only
        split
        · exact used.before_quiet (Shown.print _ _).books
        · exact used
      · exact Books.born rfl queue nextPid added

theorem books_switch (pid : Int) : Books session (session.switch pid) [] := by
  unfold switch
  split
  · exact .shown rfl rfl
  · exact .shown rfl rfl

theorem books_kill (pid : Int) : Books session (session.kill pid) [] := by
  have fewer : (session.host.kill pid).pids.Sublist session.host.pids :=
    List.filter_sublist.map _
  unfold kill
  dsimp only
  split
  · split
    · exact .quiet rfl rfl (Int.le_refl _) fewer
    · exact .quiet rfl rfl (Int.le_refl _) fewer
  · exact .quiet rfl rfl (Int.le_refl _) fewer

theorem books_loaded {hosted : Hosted} (found : session.host.find? session.current = some hosted)
    (journal : Journal) (work : Bench OutputQueue → Except Fault Nat × Bench OutputQueue)
    (silent : ∀ bench, (work bench).2.env = bench.env) (word path : String)
    (result : Except Fault Nat) :
    Books session
      (loaded
        { session with
          host := (Host.update { session.host with journal } session.current work).2 }
        word path result).1 [] := by
  obtain ⟨nextPid, pids, queue⟩ := Host.update_spec { session.host with journal } found work
  refine Books.before_quiet ?_ (Shown.loaded _ word path result).books
  refine .quiet rfl ?_ ?_ ?_
  · exact queue.trans (silent _)
  · exact Int.le_of_eq nextPid.symm
  · rw [pids]
    exact List.Sublist.refl _

theorem books_load (path : String) : Books session (session.load disk path).1 [] := by
  unfold load
  rcases session.machine?_cases with missing | ⟨hosted, found, present⟩
  · rw [missing]
    exact (Shown.print session _).books
  · rw [present]
    dsimp only
    split
    · exact (Shown.loaded session _ _ _).books
    next text _ =>
      exact books_loaded session found session.host.journal (·.loadText text true 0)
        (fun bench => Host.env_loaded bench _ _) _ _ _

theorem books_image (path : String) : Books session (session.image disk path).1 [] := by
  unfold image
  rcases session.machine?_cases with missing | ⟨hosted, found, present⟩
  · rw [missing]
    exact (Shown.print session _).books
  · rw [present]
    dsimp only
    split
    · exact (Shown.loaded session _ _ _).books
    next values _ =>
      exact books_loaded session found _ (·.loadData (values.map .integer) 0)
        (fun bench => Host.env_loaded bench _ _) _ _ _

theorem books_execute {runner : ScriptRunner} {tracer : ScriptTracer}
    (scripts : ∀ lines session, Books session (runner lines session).1 (tracer lines session))
    (command : Command) :
    Books session (execute limits disk runner session command).1
      (executeTrace limits disk tracer session command) := by
  cases command with
  | help => exact (Shown.help session).books
  | unknown word => exact ((Shown.print session _).trans (Shown.help _)).books
  | badLine fault => exact (Shown.print session _).books
  | usage text => exact (Shown.print session _).books
  | create name => exact books_create disk session name
  | current => exact (Shown.print session _).books
  | switch pid => exact books_switch session pid
  | list => exact (Shown.list session).books
  | kill pid => exact books_kill session pid
  | logs pid => exact (Shown.showLog session _).books
  | load path => exact books_load disk session path
  | image path => exact books_image disk session path
  | run => exact books_run limits session
  | counter => exact (Shown.counter session).books
  | dump range => exact (Shown.dump session range).books
  | script path =>
      simp only [execute, executeTrace, script]
      split
      next lines found => rw [found]; exact scripts lines session
      next fault found => rw [found]; exact (Shown.print session _).books
      next fault _ found => rw [found]; exact .refl session
  | quit => exact (Shown.print session _).books

/-! ## Scripts -/

/-- Lines that are taken one after the other keep the books, if each line does. -/
theorem books_takeLines {line : String → Session → Session × Outcome}
    {trace : String → Session → List Incident}
    (each : ∀ text session, Books session (line text session).1 (trace text session))
    (lines : List String) :
    Books session (takeLines line lines session).1 (linesTrace line trace lines session) := by
  induction lines generalizing session with
  | nil => exact .refl session
  | cons text lines ih =>
      have first := each text session
      unfold takeLines linesTrace
      cases taken : line text session with
      | mk next outcome =>
          rw [taken] at first
          cases outcome with
          | done => exact first.trans (ih next)
          | quit => exact first.trans (.refl next)
          | escaped fault => exact first.trans (.refl next)

theorem books_takeScriptLine {runner : ScriptRunner} {tracer : ScriptTracer}
    (scripts : ∀ lines session, Books session (runner lines session).1 (tracer lines session))
    (raw : String) :
    Books session (takeScriptLine limits disk runner raw session).1
      (scriptLineTrace limits disk tracer raw session) := by
  unfold takeScriptLine scriptLineTrace takeLine
  dsimp only
  split
  · exact .refl session
  · split
    · exact books_execute limits disk session scripts _
    · exact books_send limits session _

/-- A script keeps the books, whatever is nested in it. -/
theorem books_runScript (depth : Nat) (lines : List String) :
    Books session (runScript limits disk depth lines session).1
      (scriptTrace limits disk depth lines session) := by
  induction depth generalizing lines session with
  | zero => exact .refl session
  | succ depth ih =>
      refine books_takeLines session ?_ lines
      intro text session
      exact books_takeScriptLine limits disk session (fun lines session => ih session lines) text

end Commands

/-! ## Requests -/

theorem books_perform (limits : Limits) (session : Session) (request : Request) :
    Books session (Request.perform limits session request)
      (Request.trace limits session request) := by
  cases request with
  | command disk line =>
      refine books_execute limits disk session ?_ _
      intro lines session
      exact books_runScript limits disk session limits.nesting lines
  | send line => exact books_send limits session line
  | script disk lines => exact books_runScript limits disk session limits.nesting lines
  | drain => exact .drain session
  | output pid text =>
      refine Books.queued pid [text] ?_ rfl rfl
      simp [Host.output]

theorem books_performAll (limits : Limits) (requests : List Request) (session : Session) :
    Books session (Request.performAll limits requests session)
      (Request.traceAll limits requests session) := by
  induction requests generalizing session with
  | nil => exact .refl session
  | cons request requests ih =>
      exact (books_perform limits session request).trans (ih _)

/-- A session starts with one machine, and nothing is known of its output. -/
theorem start_spec {room : Room} {disk : LiveDisk} {imagePath : Option String} {bits : Int}
    {session : Session} (started : start room disk imagePath bits = .ok session) :
    (∀ pid, session.held pid = []) ∧ session.host.pids = [session.current] ∧
      session.current < session.host.nextPid := by
  unfold start at started
  split at started
  · cases started
  next image journal _ =>
    obtain ⟨result, after, created, queue, nextPid, outcome⟩ :=
      Host.create_cases { bits, room, journal } "main" image
    rw [created] at started
    rcases outcome with ⟨fault, rfl, -⟩ | ⟨rfl, added⟩
    · cases started
    · cases started
      refine ⟨?_, added, ?_⟩
      · intro pid
        simp [held, log, Host.outputOf, queue]
      · simp [nextPid]

/-- Nothing is left in the queue however a machine fails. -/
theorem queue_settle (session : Session) (fault : Fault) :
    (session.settle fault).1.host.queue = #[] := by
  unfold settle
  split
  · rw [(drain_spec _).1]
  · rw [(drain_spec _).1]

/-- Nothing is left in the queue after a line was evaluated, however that ends. -/
theorem queue_send (limits : Limits) (session : Session) (line : String) {machine : Machine}
    (present : session.machine? = some machine) (running : machine.halted = false) :
    (session.send limits line).1.host.queue = #[] := by
  unfold send
  rw [present]
  dsimp only
  rw [if_neg (by simp [running])]
  split
  · rw [(drain_spec _).1]
  · exact queue_settle _ _

/-- Nothing is left in the queue after a run, however it ends. -/
theorem queue_run (limits : Limits) (session : Session) {machine : Machine}
    (present : session.machine? = some machine) :
    (session.run limits).1.host.queue = #[] := by
  unfold run
  rw [present]
  dsimp only
  split
  · exact congrArg Host.queue (drain_spec _).1
  · exact queue_settle _ _

/-- No output is lost, doubled, put out of order or taken for that of another machine. Take a
session that has started in any way, and any commands, lines, scripts, drains and output from
elsewhere, one after the other, however each of them ends. For every number, the log of the machine
and what is queued of it behind are, in order, all texts that have come from the machine with this
number. The numbers that were handed out ascend, so no two machines ever have the same one, and at
every time there is one machine for a number at most.

In every state, the queue is empty after a line was evaluated, after a run of the current machine
and after a drain, also if the machine has failed. A drain appends to the screen what was queued of
the current machine, and to every log what was queued of its machine, in the order of the queue. -/
theorem performAll_keeps_output {room : Room} {disk : LiveDisk} {imagePath : Option String}
    {bits : Int} {session : Session} (started : start room disk imagePath bits = .ok session)
    (limits : Limits) (requests : List Request) :
    let after := Request.performAll limits requests session
    let trace := .birth session.current :: Request.traceAll limits requests session
    (∀ pid, (after.log pid).toList ++ (Host.outputOf pid after.host.queue).map Prod.snd =
      texts pid trace) ∧
    ((births trace).Pairwise (· < ·) ∧ after.host.pids.Nodup ∧
      ∀ pid ∈ after.host.pids, pid ∈ births trace) ∧
    ∀ state : Session,
      (∀ line machine, state.machine? = some machine → machine.halted = false →
        (state.send limits line).1.host.queue = #[]) ∧
      (∀ disk runner machine, state.machine? = some machine →
        (execute limits disk runner state .run).1.host.queue = #[]) ∧
      state.drain.host.queue = #[] ∧
      state.drain.screen = state.screen ++
        String.join ((Host.outputOf state.current state.host.queue).map Prod.snd) ∧
      ∀ pid, (state.drain.log pid).toList =
        (state.log pid).toList ++ (Host.outputOf pid state.host.queue).map Prod.snd := by
  intro after trace
  obtain ⟨unknown, first, below⟩ := start_spec started
  have books := books_performAll limits requests session
  have numbered : session.host.Numbered := by
    constructor
    · intro pid member
      rw [first, List.mem_singleton] at member
      rwa [member]
    · rw [first]
      exact List.pairwise_singleton _ _
  refine ⟨?_, ⟨?_, (books.numbered numbered).distinct, ?_⟩, ?_⟩
  · intro pid
    have held := books.held pid
    rw [unknown, List.nil_append] at held
    exact held
  · refine List.Pairwise.cons ?_ books.ascending
    intro pid born
    exact Int.lt_of_lt_of_le below (books.fresh pid born).1
  · intro pid member
    rcases books.listed pid member with there | born
    · rw [first] at there
      exact List.mem_cons.mpr (Or.inl (List.mem_singleton.mp there))
    · exact List.mem_cons_of_mem _ born
  · intro state
    obtain ⟨drained, held, screen⟩ := drain_spec state
    have emptied : state.drain.host.queue = #[] := congrArg Host.queue drained
    refine ⟨?_, ?_, emptied, screen, ?_⟩
    · intro line machine present running
      exact queue_send limits state line present running
    · intro disk runner machine present
      exact queue_run limits state present
    · intro pid
      have logged := held pid
      rw [Session.held, emptied] at logged
      have nothing : (Host.outputOf pid #[]).map Prod.snd = [] := rfl
      rwa [nothing, List.append_nil] at logged

/-- A second machine runs and is removed while its output waits in the queue behind a text that came
under its number before there was such a machine. -/
theorem performAll_keeps_output_removed :
    let disk : LiveDisk := fun _ _ =>
      some (.ok ("6 -1 3 7 7 -1 65 0".toList.map fun c => c.toNat.toUInt8))
    let limits : Limits := { fuel := 20, nesting := 1 }
    let requests : List Request :=
      [.output 2 "x", .command disk ":host new", .command disk ":host run",
        .command disk ":host kill 2", .output 2 "y"]
    ∃ session, start .unlimited disk (some "image") 16 = .ok session ∧
      let after := Request.performAll limits requests session
      let trace := .birth session.current :: Request.traceAll limits requests session
      (after.log 2).toList ++ (Host.outputOf 2 after.host.queue).map Prod.snd = texts 2 trace ∧
        texts 2 trace = ["x", "A", "y"] ∧ births trace = [1, 2] ∧ after.host.pids = [1] := by
  intro disk limits requests
  have checked : (match start .unlimited disk (some "image") 16 with
      | .error _ => false
      | .ok session =>
          let trace := .birth session.current :: Request.traceAll limits requests session
          decide (texts 2 trace = ["x", "A", "y"] ∧ births trace = [1, 2] ∧
            (Request.performAll limits requests session).host.pids = [1])) = true := by
    decide +kernel
  cases started : start .unlimited disk (some "image") 16 with
  | error fault =>
      rw [started] at checked
      cases checked
  | ok session =>
      rw [started] at checked
      have kept := (performAll_keeps_output started limits requests).1 2
      exact ⟨session, rfl, kept, of_decide_eq_true checked⟩

end Subleq.Session
