import Subleq.SelfCheck.Basic

/-!
# Checks of memories, loaders and steps
-/

namespace Subleq.SelfCheck

open Trial

def cellsOf {σ : Type} (memory : Memory) (start count : Int) : Trial σ (List Int) :=
  valueOf ((memory.dump start count).mapError .ofAddress)

def cellAt {σ : Type} (memory : Memory) (location : Int) : Trial σ Int :=
  valueOf ((memory.read location).mapError .ofAddress)

/-- Writes a cell of the subject. -/
def poke (location value : Int) : Trial Memory Unit :=
  act fun memory =>
    let (result, memory) := memory.write location value
    (result.mapError .ofWrite, memory)

/-- Loads an image into the machine on the bench. -/
def loadImage (values : List Int) : Trial TapeBench Nat := act (·.load values 0)

def stepOnce : Trial TapeBench Unit := act (·.step Tape.ports)

def runAll : Trial TapeBench Nat :=
  actWithin (fun limits bench => bench.run Tape.ports limits.fuel) fun within =>
    Bench.widens_run Tape.ports within.fuel

/-- Sets the program counter of the machine on the bench. -/
def setCounter (pc : Int) : Trial TapeBench Unit :=
  change fun bench => { bench with machine := { bench.machine with pc } }

def theMachine : Trial TapeBench Machine := do return (← subject).machine

/-- Expects to have emitted a text. -/
def hasEmitted (text : String) : Trial TapeBench Unit := do equal (← textOf (← subject)) text

/-- Expects to have read a number of codes from the tape. -/
def hasRead (count : Nat) : Trial TapeBench Unit := do equal (← subject).env.reads count

def hasHalted : Trial TapeBench Unit := do holds (← theMachine).halted

def goesOn : Trial TapeBench Unit := do fails (← theMachine).halted

/-- The cell of the machine on the bench. -/
def machineCell (location : Int) : Trial TapeBench Int := do
  cellAt (← theMachine).memory location

def machineCells (start count : Int) : Trial TapeBench (List Int) := do
  cellsOf (← theMachine).memory start count

/-- Trials on an empty memory of a width. -/
def memoryScenarios : List Scenario :=
  let scenario (name : String) (width : Nat) (trial : Trial Memory Unit) : Scenario :=
    trial.scenario (fun _ => .ok (.empty width)) "TestMemory" name
  [scenario "test_unwritten_cells_read_zero" 16 do
      let memory ← subject
      equal (← cellAt memory 0) 0
      equal (← cellAt memory 100000) 0
      equal memory.size 0,
    scenario "test_write_grows_with_zero_fill" 16 do
      poke 10 7
      equal (← subject).size 11
      equal (← cellsOf (← subject) 8 4) [0, 0, 7, 0],
    scenario "test_negative_address_is_rejected" 16 do
      let memory ← subject
      isRefused ((memory.read (-1)).mapError .ofAddress)
      isRefused ((memory.write (-5) 1).1.mapError .ofWrite),
    scenario "test_values_wrap_to_16_bits" 16 do
      poke 0 32768
      poke 1 (-32769)
      poke 2 (65536 + 3)
      equal (← cellsOf (← subject) 0 3) [-32768, 32767, 3],
    scenario "test_wider_cells" 32 do
      poke 0 32768
      equal (← cellAt (← subject) 0) 32768
      equal (wrap 32 2147483648) (-2147483648)]

def benchScenario (group name : String) (trial : Trial TapeBench Unit) : Scenario :=
  trial.scenario (fun _ => .ok (freshBench [])) group name

def loaderScenarios : List Scenario :=
  let scenario := benchScenario "TestLoader"
  let read (text : String) : Except Fault (List Int) := (Program.read text).mapError .program
  let loadText (text : String) (fresh : Bool) (base : Int) : Trial TapeBench Nat :=
    act (·.loadText text fresh base)
  [scenario "test_parse_program_accepts_signs_and_newlines" do
      equal (← valueOf (read "1 -2\n+3\t4\r\n")) [1, -2, 3, 4]
      equal (← valueOf (read "   \n ")) [],
    scenario "test_parse_error_reports_token_and_line" do
      isRefused (read "1 2\n3 x4 5")
      match read "1 2\n3 x4 5" with
      | .error (.program (.token text line index)) => do
          equal text "x4"
          equal line 2
          equal index 4
      | _ => pure ()
      for bad in ["0x10", "1.5", "--1", "-"] do
        isRefused (read bad),
    scenario "test_load_from_text_with_reset" do
      change fun bench =>
        { bench with machine := { bench.machine with memory := bench.machine.memory.set 50 9 } }
      setCounter 12
      equal (← loadText Demo.hi true 0) 12
      equal (← theMachine).pc 0
      equal (← machineCells 0 12) (← valueOf (read Demo.hi))
      equal (← machineCell 12) 0
      equal (← machineCell 50) 0,
    scenario "test_load_without_reset_keeps_state_and_pc" do
      let _ ← loadText "1 2 3 4 5 6" true 0
      setCounter 3
      let _ ← loadText "7 8" false 4
      equal (← machineCells 0 6) [1, 2, 3, 4, 7, 8]
      equal (← theMachine).pc 3,
    scenario "test_failed_load_is_all_or_nothing" do
      let _ ← loadText "1 2 3" true 0
      setCounter 3
      for fresh in [false, true] do
        refused (loadText "9 9 oops 9" fresh 0)
        equal (← machineCells 0 4) [1, 2, 3, 0]
        equal (← theMachine).pc 3,
    scenario "test_negative_base_is_rejected" do
      refused (loadText "1 2" false (-2))
      refused (act (·.load [1, 2] (-1))),
    scenario "test_structured_load_always_resets" do
      let _ ← loadText "5 5 5 5 5 5 5 5" true 0
      setCounter 6
      let _ ← loadImage [1, 2, 3]
      equal (← theMachine).pc 0
      equal (← machineCells 0 5) [1, 2, 3, 0, 0]
      refused (act (·.loadData [.integer 1, .text "2", .integer 3] 0))
      equal (← machineCells 0 3) [1, 2, 3]]

def stepScenarios : List Scenario :=
  let scenario := benchScenario "TestExecutor"
  let branch (name : String) (image : List Int) (value pc : Int) : Scenario :=
    scenario name do
      let _ ← loadImage image
      stepOnce
      equal (← machineCell 4) value
      equal (← theMachine).pc pc
  [branch "test_subleq_branch_taken_on_zero" [3, 4, 9, 5, 5] 0 9,
    branch "test_subleq_branch_not_taken_on_one" [3, 4, 9, 5, 6] 1 3,
    branch "test_subleq_negative_result_branches" [3, 4, 7, 5, 2] (-3) 7,
    branch "test_subtraction_wraps" [3, 4, 9, 1, -32768] 32767 3,
    scenario "test_input_uses_staged_queue_before_source" do
      let _ ← loadImage [-1, 6, 3, -1, 7, 6]
      change fun bench => { bench with machine := bench.machine.stage (codesOf "A") }
      stepOnce
      equal (← machineCell 6) 65
      hasRead 0
      equal (← theMachine).pending 0
      stepOnce
      hasRead 1
      equal (← machineCell 7) endOfInput,
    scenario "test_output_calls_sink_once_without_mutation" do
      let _ ← loadImage [3, -1, 3, 42]
      let before := (← theMachine).memory.cells
      stepOnce
      equal (← subject).env.outputs.toList [42]
      equal (← theMachine).memory.cells.toList before.toList
      equal (← theMachine).pc 3,
    scenario "test_halt_stops_before_fetch" do
      let _ ← loadImage [0, 0, -1]
      equal (← runAll) 1
      hasHalted
      equal (← runAll) 0
      stepOnce
      equal (← theMachine).pc sentinel,
    scenario "test_preset_halt_is_noop" do
      let _ ← loadImage [3, -1, 0, 65]
      setCounter sentinel
      equal (← runAll) 0
      equal (← subject).env.outputs.toList [],
    scenario "test_invalid_operand_leaves_state_untouched" do
      let _ ← loadImage [-3, 4, 0, 0, 5]
      refused stepOnce
      equal (← theMachine).pc 0
      let _ ← loadImage [3, 4, -7, 5, 5]
      refused stepOnce
      equal (← machineCell 4) 5
      equal (← theMachine).pc 0
      setCounter (-4)
      refused stepOnce,
    scenario "test_self_modifying_code" do
      let _ ← loadImage [9, 3, 3, 10, -1, 6, 0, 0, -1, -1, 72, 73]
      let _ ← runAll
      hasEmitted "I",
    scenario "test_hi_program" do
      let _ ← act (·.loadText Demo.hi true 0)
      let _ ← runAll
      equal (← subject).env.outputs.toList [72, 105]
      hasHalted,
    scenario "test_hello_program" do
      let _ ← act (·.loadText Demo.hello true 0)
      let _ ← runAll
      hasEmitted "Hello, World!\n"
      hasHalted,
    scenario "test_machines_are_isolated" do
      let _ ← act (·.loadText Demo.hi true 0)
      let (_, other) := (freshBench []).loadText Demo.hello true 0
      let _ ← runAll
      hasEmitted "Hi"
      change fun _ => other
      let _ ← runAll
      hasEmitted "Hello, World!\n",
    scenario "test_putch_goes_to_sink" do
      act (·.emit Tape.ports 10)
      equal (← subject).env.outputs.toList [10],
    scenario "test_bridge_requires_callables" do
      isRefused (Ports.ofParts none (some Tape.emit))
      isRefused (Ports.ofParts (some Tape.read) none)]

def machineSuite : Suite :=
  { name := "machine", scenarios := memoryScenarios ++ loaderScenarios ++ stepScenarios }

end Subleq.SelfCheck
