import Subleq.SelfCheck.Machine

/-!
# Checks of the assembler
-/

namespace Subleq.SelfCheck

open Trial

/-- Lines as one source text. -/
def sourceOf (lines : List String) : String := String.intercalate "\n" lines

def imageOf (source : String) (origin : Int) : Except Fault (List Int) :=
  match Assembly.assemble source origin with
  | .ok (cells, _) => .ok cells
  | .error fault => .error (.assembly fault)

def cellOf (cells : List Int) (position : Nat) : Int := cells.getD position 0

/-- Expects a source to be refused at a line. -/
def refusedAt {σ : Type} (source : String) (line : Nat) : Trial σ Unit := do
  isRefused (imageOf source 0)
  match imageOf source 0 with
  | .error (.assembly (.line fault)) => equal fault.line line
  | _ => pure ()

def emitted {σ : Type} (source : String) : Trial σ String :=
  valueWithin (fun limits => (runSource limits source).1) fun within uncut =>
    congrArg Prod.fst (runSource_of_within within source uncut)

def layoutScenarios : List Scenario :=
  let scenario := benchScenario "TestAssembler_Encoding"
  let image (source : String) (origin : Int) : Trial TapeBench (List Int) :=
    valueOf (imageOf source origin)
  [scenario "test_halt_and_scratch_cells" do
      equal (← image "HALT" 0) [3, 3, -1, 0, 0, 0],
    scenario "test_hi_program_layout" do
      let source := sourceOf
        ["", "; affiche \"Hi\"", "OUT msg", "OUT msg+1", "HALT", "msg:", "DATA 72 105", ""]
      equal (← image source 0) [9, -1, 3, 10, -1, 6, 11, 11, -1, 72, 105, 0, 0, 0]
      equal (← emitted source) "Hi",
    scenario "test_subleq_default_branch_and_origin" do
      equal ((← image "SUBLEQ a a\na: DATA 0" 100).take 4) [103, 103, 103, 0],
    scenario "test_constants_are_pooled" do
      let cells ← image "OUT #65\nOUT #'A'\nOUT #-1\nHALT" 0
      equal (cells.drop 15) [65, -1]
      equal (cellOf cells 0) 15
      equal (cellOf cells 3) 15
      equal (cellOf cells 6) 16,
    scenario "test_labels_table" do
      let labels ← valueOf ((Assembly.labels "start: JMP start\nend: HALT" 0).mapError fun fault =>
        .assembly (.line fault))
      equal labels [("start", 0), ("end", 3)],
    scenario "test_end_label_follows_last_cell" do
      equal (← image "HALT\nDATA __END" 0) [4, 4, -1, 7, 0, 0, 0]
      equal (← image "DATA __END" 10) [14, 0, 0, 0]
      let cells ← image "OUT #65\nHALT\nDATA __END" 0
      equal (cellOf cells 6) cells.length]

/-- A source that tells whether a comparison jumps. -/
def comparison (word : String) (left right : Int) : String :=
  sourceOf
    [word ++ " a b yes", "OUT #'N'", "HALT", "yes:", "OUT #'Y'", "HALT",
      "a: DATA " ++ Text.decimal left, "b: DATA " ++ Text.decimal right]

def expansionScenarios : List Scenario :=
  let scenario := benchScenario "TestAssembler_Macros"
  let compare (word : String) (left right : Int) (expected : String) : Trial TapeBench Unit := do
    equal (← emitted (comparison word left right)) expected
  [scenario "test_mov_and_add" do
      let source := sourceOf ["MOV x y", "ADD x y", "OUT x", "HALT", "x:  DATA 0", "y:  DATA 33"]
      equal (← emitted source) "B",
    scenario "test_sub_and_jlez" do
      let source := sourceOf
        ["SUB x one", "JLEZ x zero", "OUT #'P'", "HALT", "zero:", "OUT #'Z'", "HALT",
          "x:   DATA 1", "one: DATA 1"]
      equal (← emitted source) "Z",
    scenario "test_jeq" do
      compare "JEQ" 5 5 "Y"
      compare "JEQ" 5 6 "N"
      compare "JEQ" 6 5 "N"
      compare "JEQ" (-1) (-1) "Y",
    scenario "test_jle" do
      compare "JLE" 4 5 "Y"
      compare "JLE" 5 5 "Y"
      compare "JLE" 6 5 "N"
      compare "JLE" (-1) 32 "Y",
    scenario "test_in_loop_until_eof" do
      change fun bench => { bench with env := { bench.env with inputs := codesOf "ok" } }
      let source := sourceOf
        ["loop:", "IN ch", "JEQ ch #-1 end", "OUT ch", "JMP loop", "end:", "HALT", "ch: DATA 0"]
      let _ ← act (·.loadSource source 0)
      let _ ← runAll
      hasEmitted "ok"
      hasHalted]

def refusalScenarios : List Scenario :=
  let scenario (name : String) (trial : Trial TapeBench Unit) : Scenario :=
    benchScenario "TestAssembler_Errors" name trial
  [scenario "test_unknown_mnemonic" do
      refusedAt "HALT\nFROB x" 2,
    scenario "test_bad_operand_count" do
      refusedAt "JEQ a b" 1
      refusedAt "HALT now" 1,
    scenario "test_unknown_label" do
      refusedAt "HALT\n\nJMP nowhere" 3,
    scenario "test_duplicate_and_reserved_labels" do
      refusedAt "a: HALT\na: HALT" 2
      refusedAt "__Z: HALT" 1
      refusedAt "__END: HALT" 1,
    scenario "test_bad_operands" do
      refusedAt "OUT #x" 1
      refusedAt "OUT 1x" 1
      refusedAt "JMP __Z" 1
      refusedAt "MOV a a\na: DATA 0" 1,
    scenario "test_unresolvable_cell_reports_its_line" do
      let resolved : Except Fault Int :=
        ((Assembly.Layout.ofListing []).resolveText 0 "1bad").mapError fun reason =>
          .assembly (.line { line := 4, reason })
      isRefused resolved
      match resolved with
      | .error (.assembly (.line fault)) => do
          equal fault.line 4
          equal fault.reason.token "1bad"
      | _ => pure (),
    scenario "test_asm_error_is_a_parse_error" do
      isRefused (imageOf "NOPE" 0)]

def assemblySuite : Suite :=
  { name := "assembly",
    scenarios := layoutScenarios ++ expansionScenarios ++ refusalScenarios }

end Subleq.SelfCheck
