import Subleq.SelfCheck.Monitor
import Subleq.Session.Completion

/-!
# Checks of sessions, completion and the program as a whole
-/

namespace Subleq.SelfCheck

open Trial

/-- A session and the files it can read. -/
structure Stage where
  session : Session
  files : FileTree

/-- The file that trials write. -/
def trialPath : String := "TMP.txt"

/-- Makes the trial file. -/
def withFile (text : String) : Trial Stage Unit :=
  change fun stage => { stage with files := oneFile trialPath text }

/-- What the session shows while it does something, and whether that quits; a fault ends the
trial. -/
def Stage.show (stage : Stage) (work : LiveDisk → Session → Session × Outcome) :
    Except Fault (String × Bool) × Stage :=
  match work stage.files.live { stage.session with screen := "" } with
  | (session, .escaped fault) => (.error fault, { stage with session })
  | (session, .quit) => (.ok (session.screen, true), { stage with session })
  | (session, .done) => (.ok (session.screen, false), { stage with session })

theorem Stage.steady_show {work : Limits → LiveDisk → Session → Session × Outcome}
    (agrees : ∀ {limits wider : Limits}, limits.Within wider → ∀ disk,
      Session.Agrees (·.isCut = true) (work limits disk) (work wider disk)) :
    Steady fun limits stage => Stage.show stage (work limits) := by
  intro limits wider within stage uncut
  have same : work wider stage.files.live { stage.session with screen := "" } =
      work limits stage.files.live { stage.session with screen := "" } := by
    refine agrees within stage.files.live _ fun fault isCut escaped => ?_
    refine uncut fault isCut ?_
    dsimp only [Stage.show]
    cases worked : work limits stage.files.live { stage.session with screen := "" } with
    | mk session outcome =>
        rw [worked] at escaped
        cases escaped
        rfl
  dsimp only [Stage.show]
  rw [same]

/-- What the session shows for a command line, and whether it quits. -/
def commandResult (line : String) : Trial Stage (String × Bool) :=
  actWithin (fun limits stage => stage.show fun disk session => session.command limits disk line)
    (Stage.steady_show fun within disk => Session.agrees_command within disk line)

/-- What the session shows for a command line. -/
def commandText (line : String) : Trial Stage String := do return (← commandResult line).1

/-- What the session shows for a line of input. -/
def sentText (line : String) : Trial Stage String := do
  let sent ← actWithin (fun limits stage => stage.show fun _ session => session.send limits line)
    (Stage.steady_show fun within _ => Session.agrees_send within line)
  return sent.1

def currentPid : Trial Stage Int := do return (← subject).session.current

/-- A fresh session without files. -/
def freshStage (room : Room) : Except Fault Stage :=
  match Session.start room FileTree.empty.live none defaultWidth with
  | .error (fault, _) => .error fault
  | .ok session => .ok { session, files := .empty }

def sessionScenario (group name : String) (trial : Trial Stage Unit) : Scenario :=
  trial.scenario freshStage group name

/-- Trials of commands on the table of machines. -/
def commandScenarios : List Scenario :=
  let scenario := sessionScenario "TestHostREPL_Basics"
  [scenario "test_host_new_creates_machine_and_sets_current" do
      let initial ← currentPid
      contains "NEW pid=" (← commandText ":host new worker")
      differ (← currentPid) initial
      record (.member ((← subject).session.host.contains (← currentPid))),
    scenario "test_host_vm_switch" do
      let initial ← currentPid
      let _ ← commandText ":host new worker"
      differ (← currentPid) initial
      let _ ← commandText (":host vm " ++ Text.decimal initial)
      equal (← currentPid) initial
      contains "no such machine" (← commandText ":host vm 99"),
    scenario "test_host_ps_lists_machines" do
      let text ← commandText ":host ps"
      contains "PID" text
      contains "HALTED" text
      contains "main" text,
    scenario "test_kill_current_switches" do
      let first ← currentPid
      let _ ← commandText ":host new other"
      let text ← commandText (":host kill " ++ Text.decimal (← currentPid))
      contains "switched to" text
      equal (← currentPid) first,
    scenario "test_unknown_command_prints_help" do
      let text ← commandText ":host frobnicate"
      contains "unknown host command" text
      contains ":host new" text,
    scenario "test_host_quit_raises_systemexit" do
      let (_, quits) ← commandResult ":host quit"
      record (.raises (if quits then some .quit else none))]

def machineScenarios : List Scenario :=
  let scenario := sessionScenario "TestHostREPL_Machines"
  [scenario "test_line_is_evaluated_and_logged" do
      contains "hello\n" (← sentText ".( hello) cr")
      let logs ← commandText ":host logs"
      contains "logs for pid" logs
      contains "hello" logs,
    scenario "test_warn_when_machine_halted" do
      let _ ← sentText "bye"
      contains "halted" (← sentText "cr"),
    scenario "test_load_and_run_program" do
      withFile (Demo.hi ++ "\n")
      contains "loaded 12 cells" (← commandText (":host load " ++ trialPath))
      let text ← commandText ":host run"
      contains "Hi" text
      contains "halted after 3 steps" text
      contains "(halted)" (← commandText ":host pc"),
    scenario "test_load_reports_parse_error" do
      withFile "1 2 x\n"
      let text ← commandText (":host load " ++ trialPath)
      contains "load:" text
      contains "'x'" text,
    scenario "test_image_command" do
      withFile Demo.hello
      let _ ← commandText (":host image " ++ trialPath)
      contains "Hello, World!" (← commandText ":host run"),
    scenario "test_dump" do
      let text ← commandText ":host dump 0 8"
      contains "     0:" text
      contains (String.intercalate " " ((Monitor.image.take 8).map fun value =>
        Text.padLeft 6 (Text.decimal value))) text
      contains "usage" (← commandText ":host dump x"),
    scenario "test_read_from_script" do
      withFile "# script\n.( from script) cr\n:host pc\n"
      let text ← commandText (":host read-from " ++ trialPath)
      contains "from script\n" text
      contains "pc=" text,
    scenario "test_drain_takes_and_writes_under_one_lock" do
      let pid ← currentPid
      for text in ["h", "i", "\n"] do
        change fun stage =>
          { stage with
            session := { stage.session with host := stage.session.host.output pid text } }
      holds (!(← subject).session.host.queue.isEmpty)
      equal (← subject).session.host.queue.size 3
      let (text, _) ← act (·.show fun _ session => (session.drain, .done))
      fails (!(← subject).session.host.queue.isEmpty)
      equal text "hi\n"
      equal (String.join ((← subject).session.log pid).toList) "hi\n"]

def completionScenarios : List Scenario :=
  let scenario (name : String) (trial : Trial Unit Unit) : Scenario :=
    trial.scenario (fun _ => .ok ()) "TestHostREPL_Completion" name
  let complete (text : String) : List String :=
    (Completion.proposals FileTree.empty.list? Monitor.wordNames text).map (·.text)
  [scenario "test_host_command_names" do
      equal (complete ":host ne") ["new"]
      record (.contains (.text "read-from") (observe (complete ":host "))),
    scenario "test_monitor_words" do
      equal (complete ".( x) C") ["cr"]
      equal (complete "b") ["bye"]
      equal (complete "here U") ["u."]
      equal (complete "w") ["words"]]

/-- What the program returns and prints for arguments. -/
def playedWithin (limits : Limits) (arguments : List String) : Except Fault (Nat × String) :=
  let report := Shell.play limits arguments .empty []
  match report.exit with
  | .returned code | .exited code => .ok (code, report.output)
  | .escaped fault => .error fault

theorem playedWithin_of_within {limits wider : Limits} (within : limits.Within wider)
    (arguments : List String) (uncut : Uncut (playedWithin limits arguments)) :
    playedWithin wider arguments = playedWithin limits arguments := by
  unfold playedWithin at uncut ⊢
  rw [Shell.play_of_within within arguments .empty [] fun fault isCut escaped => ?_]
  refine uncut fault isCut ?_
  simp only [escaped]

def played {σ : Type} (arguments : List String) : Trial σ (Nat × String) :=
  valueWithin (playedWithin · arguments) fun within => playedWithin_of_within within arguments

/-- Trials of the demo and of the program as a whole. -/
def programScenarios : List Scenario :=
  let scenario := benchScenario "TestDemo"
  [scenario "test_demo_session_output" do
      let config ← valueOf (settings (some Tape.emit) (some Tape.read) defaultWidth)
      actWithin (fun limits bench =>
          Demo.play limits.room config limits.fuel bench.env bench.journal)
        fun within bench => Demo.play_of_within within config bench.env bench.journal
      equal (← textOf (← subject))
        ("Hi\nHello, World!\nEFORTH LOADED - USED: " ++ monitorSize ++ "\nWORDS: " ++
          listedWords ++ "\n")
      goesOn
      equal (List.replicate (← subject).env.reads (1 : Int)) [],
    scenario "test_main_demo" do
      let (code, output) ← played ["--demo"]
      equal code 0
      contains "Hello, World!" output,
    scenario "test_main_rejects_bad_cell_bits" do
      let (code, _) ← played ["--cell-bits", "1"]
      equal code 2]

def sessionSuite : Suite :=
  { name := "session",
    scenarios := commandScenarios ++ machineScenarios ++ completionScenarios ++ programScenarios }

end Subleq.SelfCheck
