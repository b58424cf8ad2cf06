import Subleq.SelfCheck.Machine

/-!
# Checks of hosts
-/

namespace Subleq.SelfCheck

open Trial

def newMachine (name : String) : Trial Host Int := act (·.create name .monitor)

def sendLine (pid : Int) (line : String) : Trial Host Nat :=
  actWithin (fun limits host => host.send limits.fuel pid line) fun within =>
    Host.widens_send within.fuel pid line

def runHosted (pid : Int) : Trial Host Nat :=
  actWithin (fun limits host => host.run limits.fuel pid) fun within =>
    Host.widens_run within.fuel pid

def drained : Trial Host (List (Int × String)) := do
  let (items, host) := (← subject).drain
  change fun _ => host
  return items

def isHalted (pid : Int) : Trial Host Bool := do
  match (← subject).find? pid with
  | some hosted => return hosted.machine.halted
  | none => valueOf (.error (.unknownPid pid))

/-- The output of all machines as one text. -/
def outputText (items : List (Int × String)) : String := String.join (items.map (·.2))

def hostScenario (group name : String) (trial : Trial Host Unit) : Scenario :=
  trial.scenario (fun _ => .ok {}) group name

def creationScenarios : List Scenario :=
  let scenario := hostScenario "TestSubleqHostCore_NewMachine"
  [scenario "test_new_machine_loads_forth_image" do
      let pid ← newMachine "main"
      equal pid 1
      let table := (← subject).table
      equal table.length 1
      for hosted in table.take 1 do
        equal hosted.name "main"
        fails hosted.machine.halted
        equal hosted.machine.pc 0
      equal (← valueOf ((← subject).dump pid 0 8)) (Monitor.image.take 8),
    scenario "test_default_names_and_pids" do
      let _ ← newMachine ""
      let pid ← newMachine ""
      equal pid 2
      for hosted in (← subject).table.drop 1 do
        equal hosted.name "vm2"]

def outputScenarios : List Scenario :=
  let scenario := hostScenario "TestSubleqHostCore_Stdout"
  [scenario "test_handle_stdout_pushes_to_stdout_queue" do
      change (·.output 1 "4")
      change (·.output 1 "\n")
      equal (← drained) [(1, "4"), (1, "\n")],
    scenario "test_send_line_output_arrives_per_character" do
      let pid ← newMachine ""
      let _ ← sendLine pid ".( hi) cr"
      equal (← drained) [(pid, "h"), (pid, "i"), (pid, "\n")],
    scenario "test_code_to_text_keeps_low_byte" do
      equal (codeToText 65) "A"
      equal (codeToText (256 + 66)) "B"
      equal (codeToText (-1)) "ÿ"]

/-- Trials of machines side by side. -/
def tableScenarios : List Scenario :=
  let scenario := hostScenario "TestSubleqHostCore_Machines"
  [scenario "test_unknown_pid_raises" do
      refused (sendLine 999 "cr"),
    scenario "test_machines_are_isolated" do
      let first ← newMachine "a"
      let second ← newMachine "b"
      let _ ← sendLine first ".( A) cr"
      let _ ← sendLine second "bye"
      fails (← isHalted first)
      holds (← isHalted second)
      equal (outputText ((← drained).filter (·.1 == first))) "A\n",
    scenario "test_load_text_and_run" do
      let pid ← newMachine "prog"
      let _ ← act (·.loadText pid Demo.hi true 0)
      let _ ← runHosted pid
      equal (outputText (← drained)) "Hi"
      holds (← isHalted pid),
    scenario "test_errors_propagate" do
      let pid ← newMachine ""
      refused (act (·.loadText pid "1 2 three" true 0))
      let _ ← act (·.loadImage pid [.integer (-7), .integer 0, .integer 0])
      refused (runHosted pid),
    scenario "test_kill_and_reset" do
      let pid ← newMachine ""
      let _ ← newMachine ""
      change (·.kill pid)
      equal ((← subject).table.map (·.pid)) [2]
      change (·.output 2 "x")
      change (·.reset)
      equal ((← subject).table.map (·.pid)) []
      holds (← subject).queue.isEmpty
      equal (← newMachine "") 1,
    scenario "test_cell_bits_is_applied" do
      change fun _ => { bits := 32 }
      let pid ← newMachine ""
      for hosted in (← subject).table.filter (·.pid == pid) do
        equal hosted.machine.memory.width 32]

def hostSuite : Suite :=
  { name := "host",
    scenarios := creationScenarios ++ outputScenarios ++ tableScenarios }

end Subleq.SelfCheck
