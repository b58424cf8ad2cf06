import Subleq.SelfCheck.Machine

/-!
# Checks of settings and of evaluation
-/

namespace Subleq.SelfCheck

open Trial

/-- A program that emits every character it reads. -/
def echoProgram : List Int := [-1, 9, 3, 9, -1, 6, 10, 10, 0, 0, 0]

/-- A program that reads one character and halts. -/
def readOneProgram : List Int := [-1, 6, 3, 7, 7, -1, 0, 0]

def evalWith (terminator text : String) : Trial TapeBench Nat :=
  actWithin (fun limits bench => bench.eval Tape.ports limits.fuel terminator text) fun within =>
    Bench.widens_eval Tape.ports within.fuel terminator text

/-- Evaluates a text with the usual terminator on the bench. -/
def evalText (text : String) : Trial TapeBench Nat :=
  evalWith defaultTerminator text

/-- Evaluates texts one after the other and expects to have emitted a text. -/
def prints (texts : List String) (expected : String) : Trial TapeBench Unit := do
  for text in texts do
    let _ ← evalText text
  hasEmitted expected

/-- Puts a fresh machine with some input on the bench. -/
def startOver (inputs : List Int) : Trial TapeBench Unit := change fun _ => freshBench inputs

/-- The settings with a given sink and source. -/
def settings (sink : Sink? Tape) (source : Source? Tape) (bits : Int) :
    Except Fault (Config Tape) :=
  Config.ofParts sink source bits defaultTerminator

def settingsScenarios : List Scenario :=
  let scenario (name : String) (trial : Trial TapeBench Unit) : Scenario :=
    benchScenario "TestMachineConfig" name trial
  [scenario "test_defaults" do
      let config ← valueOf (settings (some Tape.emit) (some Tape.read) defaultWidth)
      let delivered := (config.ports.source {}).1
      record (.same (match delivered with
        | .ok code => code == endOfInput
        | .error _ => false))
      equal config.width 16
      equal config.terminator "\n",
    scenario "test_rejects_bad_values" do
      isRefused (settings none (some Tape.read) 16)
      isRefused (settings (some Tape.emit) none 16)
      isRefused (settings (some Tape.emit) (some Tape.read) 1),
    scenario "test_source_is_mandatory" do
      isRefused (settings (some Tape.emit) none 16)
      isRefused ((settings (some Tape.emit) none 16).map (·.machine)),
    scenario "test_create_passes_cell_bits" do
      let config ← valueOf (settings (some Tape.emit) (some Tape.read) 32)
      equal config.machine.memory.width 32]

/-- How many codes are still staged at each output, for at most `count` steps. -/
def pendingAtOutputs : (count : Nat) → Machine → Tape → List Nat
  | 0, _, _ => []
  | count + 1, machine, tape =>
      if machine.idle then []
      else
        let stepped := machine.step Tape.ports tape
        let rest := pendingAtOutputs count stepped.machine stepped.env
        if tape.outputs.size < stepped.env.outputs.size then stepped.machine.pending :: rest
        else rest

def evaluationScenarios : List Scenario :=
  let scenario := benchScenario "TestSubleqMachine_Eval"
  [scenario "test_eval_runs_until_waiting_for_input" do
      let _ ← loadImage echoProgram
      let steps ← evalText "ab"
      hasEmitted "ab\n"
      equal steps 9
      equal (← theMachine).pc 0
      goesOn
      hasRead 0,
    scenario "test_successive_evals_resume" do
      let _ ← loadImage echoProgram
      prints ["x", "yz"] "x\nyz\n",
    scenario "test_output_is_interleaved_with_input" do
      let _ ← loadImage echoProgram
      let staged := (← theMachine).stage (codesOf (Machine.terminated defaultTerminator "ab"))
      equal (pendingAtOutputs 100 staged (← subject).env) [2, 1, 0],
    scenario "test_terminator_not_doubled_and_can_be_disabled" do
      let _ ← loadImage echoProgram
      prints ["q\n"] "q\n"
      startOver []
      let _ ← loadImage echoProgram
      let _ ← evalWith "" "q"
      hasEmitted "q",
    scenario "test_eval_stops_on_halt_and_drops_leftover_input" do
      let _ ← loadImage readOneProgram
      let _ ← evalText "xyz"
      hasHalted
      equal (← machineCell 6) ('x'.toNat : Int)
      equal (← theMachine).pending 0
      equal (← evalText "again") 0
      equal (← theMachine).pending 0,
    scenario "test_eval_empty_text_on_idle_machine" do
      let _ ← loadImage echoProgram
      equal (← evalWith "" "") 0
      hasRead 0,
    scenario "test_run_falls_back_to_source_after_staged_input" do
      startOver (codesOf "k")
      let _ ← loadImage readOneProgram
      let _ ← runAll
      hasRead 1
      equal (← machineCell 6) ('k'.toNat : Int),
    scenario "test_error_propagates_and_clears_input" do
      let _ ← loadImage [-1, 9, 3, -5, 9, 0, 0, 0, 0, 0]
      refused (evalText "abc")
      equal (← theMachine).pending 0
      equal (← theMachine).pc 3,
    scenario "test_eof_source_program_runs_safely" do
      let _ ← loadImage readOneProgram
      let _ ← runAll
      hasHalted
      equal (← machineCell 6) endOfInput]

def evaluationSuite : Suite :=
  { name := "evaluation", scenarios := settingsScenarios ++ evaluationScenarios }

end Subleq.SelfCheck
