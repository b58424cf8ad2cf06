import Subleq.Proofs.Machine.Runs
import Subleq.Shell

/-!
# Limits

The bounds on the steps of a run and on the nesting of scripts are no part of what the program does.
What is done within some limits without being cut off by them is done within all wider ones: at a
bench, on a host, in a session, and by the program from its arguments to its exit.
-/

namespace Subleq

/-- Whether a fault says that a bound is used up. -/
def Fault.isCut : Fault → Bool
  | outOfFuel => true
  | nesting => true
  | _ => false

/-- Limits with the same room and with bounds that are as wide at least. -/
structure Limits.Within (limits wider : Limits) : Prop where
  fuel : limits.fuel ≤ wider.fuel
  nesting : limits.nesting ≤ wider.nesting
  room : limits.room = wider.room

/-- Work of which no bound has cut off anything. -/
def Uncut {α : Type} (result : Except Fault α) : Prop :=
  ∀ fault, fault.isCut = true → result ≠ .error fault

/-- Work that is done in the same way with wider bounds unless it is cut off. -/
def Widens {σ α : Type} (work wide : σ → Except Fault α × σ) : Prop :=
  ∀ subject, Uncut (work subject).1 → wide subject = work subject

theorem Widens.refl {σ α : Type} (work : σ → Except Fault α × σ) : Widens work work :=
  fun _ _ => rfl

theorem Widens.same {σ α : Type} {work wide : σ → Except Fault α × σ} (widens : Widens work wide)
    {subject : σ}
    (uncut : ∀ fault after, fault.isCut = true → work subject ≠ (.error fault, after)) :
    wide subject = work subject := by
  refine widens subject fun fault isCut failed => ?_
  cases done : work subject with
  | mk result after =>
      rw [done] at failed
      cases failed
      exact uncut fault after isCut done

/-! ## Benches and hosts -/

namespace Bench

variable {σ : Type} {fuel more : Nat}

theorem ending_ne_of_uncut {progress : Machine.Progress σ} (uncut : Uncut (outcome progress)) :
    progress.ending ≠ .outOfFuel := by
  intro out
  refine uncut .outOfFuel rfl ?_
  rw [outcome, out]

theorem widens_run (ports : Ports σ) (le : fuel ≤ more) :
    Widens (fun bench : Bench σ => bench.run ports fuel) (fun bench => bench.run ports more) := by
  rintro ⟨machine, env, journal⟩ uncut
  have finished : Uncut (outcome (machine.run ports fuel env)) := by
    intro fault cut failed
    refine uncut fault cut ?_
    simp only [run, failed]
  have same : machine.run ports more env = machine.run ports fuel env :=
    Machine.advance_of_le ports Machine.halted le 0 machine env (ending_ne_of_uncut finished)
  simp only [run, same]

theorem widens_eval (ports : Ports σ) (le : fuel ≤ more) (terminator text : String) :
    Widens (fun bench : Bench σ => bench.eval ports fuel terminator text)
      (fun bench => bench.eval ports more terminator text) := by
  rintro ⟨machine, env, journal⟩ uncut
  simp only [eval] at uncut ⊢
  split
  · rfl
  next running =>
    rw [if_neg running] at uncut
    have finished : Uncut (outcome (machine.eval ports fuel terminator text env)) := by
      intro fault cut failed
      refine uncut fault cut ?_
      rw [failed]
    rw [Machine.eval_of_le ports le terminator text machine env (ending_ne_of_uncut finished)]

end Bench

namespace Host

theorem widens_update {α : Type} (pid : Int)
    {work wide : Bench OutputQueue → Except Fault α × Bench OutputQueue}
    (widens : Widens work wide) :
    Widens (fun host : Host => host.update pid work) (fun host => host.update pid wide) := by
  intro host uncut
  simp only [update] at uncut ⊢
  split
  · rfl
  next hosted found =>
    rw [found] at uncut
    dsimp only at uncut ⊢
    rw [widens _ uncut]

theorem widens_send {fuel more : Nat} (le : fuel ≤ more) (pid : Int) (line : String) :
    Widens (fun host : Host => host.send fuel pid line) (fun host => host.send more pid line) :=
  widens_update pid (Bench.widens_eval (ports pid) le defaultTerminator line)

theorem widens_run {fuel more : Nat} (le : fuel ≤ more) (pid : Int) :
    Widens (fun host : Host => host.run fuel pid) (fun host => host.run more pid) :=
  widens_update pid (Bench.widens_run (ports pid) le)

end Host

/-! ## Sessions -/

namespace Session

/-- What one act does, another does as well unless a fault of some kind escapes. -/
def Agrees (cut : Fault → Prop) (act wide : Session → Session × Outcome) : Prop :=
  ∀ session, (∀ fault, cut fault → (act session).2 ≠ .escaped fault) → wide session = act session

variable {cut : Fault → Prop} {limits wider : Limits} {disk : LiveDisk}
variable {runner deeper : ScriptRunner}

theorem settle_of_cut (session : Session) {fault : Fault} (isCut : fault.isCut = true) :
    (session.settle fault).2 = .escaped fault := by
  cases fault with
  | outOfFuel => rfl
  | nesting => rfl
  | _ => cases isCut

theorem agrees_send (within : limits.Within wider) (line : String) :
    Agrees (·.isCut = true) (fun session => session.send limits line)
      (fun session => session.send wider line) := by
  intro session uncut
  simp only [send] at uncut ⊢
  split
  · rfl
  next machine present =>
    rw [present] at uncut
    dsimp only at uncut
    split
    · rfl
    next running =>
      rw [if_neg running] at uncut
      have same : session.host.send wider.fuel session.current line =
          session.host.send limits.fuel session.current line := by
        refine (Host.widens_send within.fuel session.current line).same
          fun fault host isCut sent => ?_
        rw [sent] at uncut
        exact uncut fault isCut (settle_of_cut _ isCut)
      rw [same]

theorem agrees_run (within : limits.Within wider) :
    Agrees (·.isCut = true) (run limits) (run wider) := by
  intro session uncut
  simp only [run] at uncut ⊢
  split
  · rfl
  next machine present =>
    rw [present] at uncut
    dsimp only at uncut
    have same : session.host.run wider.fuel session.current =
        session.host.run limits.fuel session.current := by
      refine (Host.widens_run within.fuel session.current).same fun fault host isCut ran => ?_
      rw [ran] at uncut
      exact uncut fault isCut (settle_of_cut _ isCut)
    rw [same]

/-- Limits within which lines are sent and machines are run alike. -/
structure WorksAlike (cut : Fault → Prop) (limits wider : Limits) : Prop where
  send : ∀ line, Agrees cut (fun session => session.send limits line)
    (fun session => session.send wider line)
  run : Agrees cut (Session.run limits) (Session.run wider)

theorem WorksAlike.refl (limits : Limits) : WorksAlike cut limits limits :=
  ⟨fun _ _ _ => rfl, fun _ _ => rfl⟩

theorem worksAlike_of_within (within : limits.Within wider) :
    WorksAlike (·.isCut = true) limits wider :=
  ⟨agrees_send within, agrees_run within⟩

theorem agrees_execute (alike : WorksAlike cut limits wider)
    (agrees : ∀ lines, Agrees cut (runner lines) (deeper lines)) (command : Command) :
    Agrees cut (fun session => execute limits disk runner session command)
      (fun session => execute wider disk deeper session command) := by
  intro session uncut
  cases command with
  | run => exact alike.run session uncut
  | script path =>
      simp only [execute, script] at uncut ⊢
      cases read : (disk session.host.journal).readLines path with
      | ok lines =>
          rw [read] at uncut
          exact agrees lines session uncut
      | error fault => cases fault <;> rfl
  | _ => rfl

theorem agrees_takeLine (alike : WorksAlike cut limits wider)
    (agrees : ∀ lines, Agrees cut (runner lines) (deeper lines)) (line : String) :
    Agrees cut (takeLine limits disk runner line) (takeLine wider disk deeper line) := by
  intro session uncut
  unfold takeLine at uncut ⊢
  by_cases marked : Command.marks line = true
  · rw [if_pos marked] at uncut ⊢
    rw [if_pos marked]
    exact agrees_execute alike agrees _ session uncut
  · rw [if_neg marked] at uncut ⊢
    rw [if_neg marked]
    exact alike.send line session uncut

theorem agrees_takeScriptLine (alike : WorksAlike cut limits wider)
    (agrees : ∀ lines, Agrees cut (runner lines) (deeper lines)) (raw : String) :
    Agrees cut (takeScriptLine limits disk runner raw) (takeScriptLine wider disk deeper raw) := by
  intro session uncut
  unfold takeScriptLine at uncut ⊢
  by_cases skipped : isSkipped (scriptLine raw) = true
  · rw [if_pos skipped, if_pos skipped]
  · rw [if_neg skipped] at uncut ⊢
    rw [if_neg skipped]
    exact agrees_takeLine alike agrees _ session uncut

theorem agrees_takeLines {line wide : String → Session → Session × Outcome}
    (each : ∀ text, Agrees cut (line text) (wide text)) (lines : List String) :
    Agrees cut (takeLines line lines) (takeLines wide lines) := by
  intro session uncut
  induction lines generalizing session with
  | nil => rfl
  | cons text texts ih =>
      simp only [takeLines] at uncut ⊢
      cases first : line text session with
      | mk middle outcome =>
          have same : wide text session = (middle, outcome) := by
            rw [← first]
            refine each text session fun fault isCut escaped => ?_
            rw [first] at escaped uncut
            cases escaped
            exact uncut fault isCut rfl
          rw [first] at uncut
          rw [same]
          cases outcome with
          | done => exact ih middle uncut
          | quit => rfl
          | escaped fault => rfl

/-- A script that is cut off neither by its nesting nor by the work of a line does the same with a
deeper nesting. -/
theorem agrees_runScript (alike : WorksAlike cut limits wider) (nesting : cut .nesting)
    {depth more : Nat} (le : depth ≤ more) (lines : List String) :
    Agrees cut (runScript limits disk depth lines) (runScript wider disk more lines) := by
  induction depth generalizing more lines with
  | zero => exact fun session uncut => absurd rfl (uncut .nesting nesting)
  | succ depth ih =>
      obtain ⟨more, rfl⟩ : ∃ rest, more = rest + 1 := ⟨more - 1, by omega⟩
      exact agrees_takeLines (agrees_takeScriptLine alike (ih (by omega))) lines

theorem agrees_command (within : limits.Within wider) (disk : LiveDisk) (line : String) :
    Agrees (·.isCut = true) (fun session => session.command limits disk line)
      (fun session => session.command wider disk line) := by
  have alike := worksAlike_of_within within
  exact agrees_execute alike (agrees_runScript alike rfl within.nesting) _

theorem agrees_enter (within : limits.Within wider) (disk : LiveDisk) (line : String) :
    Agrees (·.isCut = true) (fun session => session.enter limits disk line)
      (fun session => session.enter wider disk line) := by
  have alike := worksAlike_of_within within
  intro session uncut
  simp only [enter] at uncut ⊢
  split
  · rfl
  next typed =>
    rw [if_neg typed] at uncut
    exact agrees_takeLine alike (agrees_runScript alike rfl within.nesting) line session uncut

end Session

/-! ## The program -/

namespace Demo

variable {σ : Type}

theorem widens_quietly {α : Type} {work wide : Bench σ → Except Fault α × Bench σ}
    (widens : Widens work wide) :
    Widens (fun bench : Bench σ => quietly (work bench)) (fun bench => quietly (wide bench)) := by
  intro bench uncut
  dsimp only at uncut ⊢
  rw [widens bench fun fault cut failed => uncut fault cut (by rw [quietly, failed]; rfl)]

theorem widens_perform_cons {act wide : Bench σ → Except Fault Unit × Bench σ}
    {acts wides : List (Bench σ → Except Fault Unit × Bench σ)} (first : Widens act wide)
    (rest : Widens (perform · acts) (perform · wides)) :
    Widens (perform · (act :: acts)) (perform · (wide :: wides)) := by
  intro bench uncut
  simp only [perform] at uncut ⊢
  have same : wide bench = act bench := by
    refine first bench fun fault cut failed => uncut fault cut ?_
    split
    next done =>
      rw [done] at failed
      cases failed
    next => exact failed
  rw [same]
  split
  next middle done =>
    rw [done] at uncut
    exact rest middle uncut
  next => rfl

theorem widens_perform_acts (config : Config σ) {fuel more : Nat} (le : fuel ≤ more) :
    Widens (perform · (acts config fuel)) (perform · (acts config more)) := by
  have runs := widens_quietly (Bench.widens_run config.ports le)
  have evals (text : String) :=
    widens_quietly (Bench.widens_eval config.ports le config.terminator text)
  exact widens_perform_cons (.refl _) (widens_perform_cons runs (widens_perform_cons (.refl _)
    (widens_perform_cons (.refl _) (widens_perform_cons runs (widens_perform_cons (.refl _)
      (widens_perform_cons (evals sizeLine) (widens_perform_cons (evals wordsLine)
        (.refl _))))))))

theorem play_of_within {limits wider : Limits} (within : limits.Within wider) (config : Config σ)
    (env : σ) (journal : Journal)
    (uncut : Uncut (play limits.room config limits.fuel env journal).1) :
    play wider.room config wider.fuel env journal =
      play limits.room config limits.fuel env journal := by
  rw [← within.room]
  exact widens_perform_acts config within.fuel _ uncut

end Demo

namespace Shell

variable {limits wider : Limits}

theorem converse_of_within (within : limits.Within wider) (disk : LiveDisk) (typed : List Typed)
    (session : Session) (prompts : List String)
    (uncut : ∀ fault, fault.isCut = true →
      (converse limits disk session prompts typed).2.2.2 ≠ some fault) :
    converse wider disk session prompts typed = converse limits disk session prompts typed := by
  induction typed generalizing session prompts with
  | nil => rfl
  | cons event typed ih =>
      cases event with
      | endOfInput => rfl
      | interrupt => exact ih _ _ uncut
      | line text =>
          simp only [converse] at uncut ⊢
          cases taken : session.enter limits disk text with
          | mk middle outcome =>
              rw [taken] at uncut
              have same : session.enter wider disk text = (middle, outcome) := by
                rw [← taken]
                refine Session.agrees_enter within disk text session fun fault isCut escaped => ?_
                dsimp only at escaped
                rw [taken] at escaped
                cases escaped
                exact uncut fault isCut rfl
              rw [same]
              cases outcome with
              | done => exact ih middle _ uncut
              | quit => rfl
              | escaped fault => rfl

theorem playDemo_of_within (within : limits.Within wider) (options : Options) (files : FileTree)
    (typed : List Typed)
    (uncut : ∀ fault, fault.isCut = true →
      (playDemo limits options files typed).exit ≠ .escaped fault) :
    playDemo wider options files typed = playDemo limits options files typed := by
  unfold playDemo at uncut ⊢
  split
  · rfl
  next config configured =>
    rw [configured] at uncut
    dsimp only at uncut ⊢
    rw [Demo.play_of_within within config "" {} fun fault isCut failed => ?_]
    refine uncut fault isCut ?_
    rw [failed]

theorem playSession_of_within (within : limits.Within wider) (options : Options)
    (logging : Logging) (files : FileTree) (typed : List Typed)
    (uncut : ∀ fault, fault.isCut = true →
      (playSession limits options logging files typed).exit ≠ .escaped fault) :
    playSession wider options logging files typed =
      playSession limits options logging files typed := by
  unfold playSession at uncut ⊢
  dsimp only at uncut ⊢
  rw [← within.room]
  split
  · rfl
  next session started =>
    rw [started] at uncut
    dsimp only at uncut
    rw [converse_of_within within _ typed _ [] fun fault isCut failed =>
      uncut fault isCut (by rw [failed])]

/-- The program does not depend on its bounds. If no bound is used up before it exits, it exits in
the same way within all wider limits, and what it prints, the prompts that it shows, what it leaves
typed, the files and the journal are the same. -/
theorem play_of_within (within : limits.Within wider) (arguments : List String) (files : FileTree)
    (typed : List Typed)
    (uncut : ∀ fault, fault.isCut = true →
      (play limits arguments files typed).exit ≠ .escaped fault) :
    play wider arguments files typed = play limits arguments files typed := by
  unfold play at uncut ⊢
  split
  · rfl
  · rfl
  next options given =>
    rw [given] at uncut
    dsimp only at uncut
    split
    · rfl
    next wide =>
      rw [if_neg wide] at uncut
      dsimp only at uncut ⊢
      split
      · rfl
      next opened cleared =>
        rw [cleared] at uncut
        dsimp only at uncut
        split
        next demo =>
          rw [if_pos demo] at uncut
          rw [playDemo_of_within within options opened typed uncut]
        next other =>
          rw [if_neg other] at uncut
          rw [playSession_of_within within options _ opened typed uncut]

end Shell

end Subleq
