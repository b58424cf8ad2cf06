import Subleq.SelfCheck.Evaluation

/-!
# Checks of the monitor and of image files
-/

namespace Subleq.SelfCheck

open Trial

/-- Loads the monitor into the machine on the bench. -/
def loadMonitor : Trial TapeBench Nat := act (·.loadMonitor)

/-- Forgets what was emitted. -/
def clearOutputs : Trial TapeBench Unit :=
  change fun bench => { bench with env := { bench.env with outputs := #[] } }

/-- A trial of a machine that runs the monitor. -/
def monitorScenario (group name : String) (trial : Trial TapeBench Unit) : Scenario :=
  benchScenario group name do
    let _ ← loadMonitor
    trial

/-- The number of cells of the monitor as text. -/
def monitorSize : String := toString Monitor.image.length

/-- What the monitor prints when it lists its words. -/
def listedWords : String := " .( ( \\ cr bye here u. words"

/-- Trials of texts, comments and the end of input. -/
def conversationScenarios : List Scenario :=
  let scenario := monitorScenario "TestForthImage_Eval"
  [scenario "test_image_is_plain_integers" do
      holds ((Datum.integers (Monitor.image.map .integer)).toOption.isSome)
      differ (Monitor.image.headD 0) 12345,
    scenario "test_dot_paren_echoes_text_then_cr" do
      prints [".( X) cr"] "X\n"
      goesOn
      hasRead 0,
    scenario "test_echo_keeps_inner_spaces" do
      prints [".( SUBLEQ LOADED - OK) CR"] "SUBLEQ LOADED - OK\n",
    scenario "test_several_evals_in_one_session" do
      prints [".( one) cr", ".( two) cr cr"] "one\ntwo\n\n"
      goesOn,
    scenario "test_unknown_word" do
      prints ["foo"] " ?\n"
      clearOutputs
      prints [". .(x create"] " ?\n ?\n ?\n",
    scenario "test_comments" do
      prints ["( nothing here) .( shown) cr", "\\ .( hidden) cr"] "shown\n"
      goesOn,
    scenario "test_bye_halts" do
      prints [".( last) bye .( never)"] "last"
      hasHalted
      equal (← theMachine).pending 0,
    scenario "test_eof_halts" do
      let _ ← runAll
      hasHalted
      equal (← subject).env.outputs.toList []
      hasRead 1,
    scenario "test_live_input_after_staged_input" do
      startOver (codesOf ".( live) cr\n")
      let _ ← loadMonitor
      let _ ← evalText ".( staged)"
      hasRead 0
      let _ ← runAll
      hasEmitted "stagedlive\n"
      hasHalted,
    scenario "test_eof_after_opening_word_reads_once" do
      for opening in [".(", "(", "\\"] do
        startOver []
        let _ ← loadMonitor
        change fun bench => { bench with machine := bench.machine.stage (codesOf opening) }
        let _ ← runAll
        hasHalted
        hasRead 1
        equal (← subject).env.outputs.toList []]

/-- Values of the stack cell and how the monitor prints them. -/
def printedValues : List (Int × String) :=
  [(0, " 0"), (7, " 7"), (10, " 10"), (12345, " 12345"), (32767, " 32767"), (32768, " 32768"),
    (40000, " 40000"), (65535, " 65535")]

/-- Trials of the words that print. -/
def wordScenarios : List Scenario :=
  let scenario := monitorScenario "TestForthImage_Words"
  [scenario "test_here_is_end_of_image" do
      prints ["here u. cr"] (" " ++ monitorSize ++ "\n")
      goesOn,
    scenario "test_udot_formats_unsigned_16_bits" do
      let top := ((Monitor.address? "tos").getD 0).toNat
      for (value, expected) in printedValues do
        clearOutputs
        change fun bench =>
          { bench with
            machine := { bench.machine with memory := bench.machine.memory.set top value } }
        prints ["U."] expected,
    scenario "test_words_lists_monitor_words" do
      let _ ← evalText "words"
      let text ← textOf (← subject)
      equal text listedWords
      equal ((Text.words text.toList).map String.ofList) Monitor.wordNames,
    scenario "test_original_boot_lines" do
      prints [Demo.sizeLine, Demo.wordsLine]
        ("EFORTH LOADED - USED: " ++ monitorSize ++ "\nWORDS: " ++ listedWords ++ "\n")
      goesOn,
    scenario "test_near_misses_are_unknown" do
      prints ["hero u wordy"] " ?\n ?\n ?\n"]

def oneFile (path text : String) : FileTree := FileTree.empty.write path (Text.Utf8.encode text)

def imageFileScenarios : List Scenario :=
  let scenario := benchScenario "TestForthImage_File"
  let path := "TMP.dec"
  let read (text : String) : Except Fault (List Int) :=
    readImageFile (oneFile path text).disk path
  [scenario "test_load_image_file" do
      let cells ← valueOf (read "9 -1 3 10 -1 6 0 0 -1\n72 105 0\n")
      equal cells.length 12
      let _ ← loadImage cells
      let _ ← runAll
      hasEmitted "Hi",
    scenario "test_load_image_file_bad_token" do
      let result := read "1 2\n3 nope\n"
      isRefused result
      match result with
      | .error fault => do
          match fault with
          | .imageToken _ _ line _ => equal line 2
          | _ => pure ()
          contains path fault.message
      | .ok _ => pure (),
    scenario "test_missing_file" do
      isRefused (readImageFile FileTree.empty.disk "no-such-image.dec")]

def monitorSuite : Suite :=
  { name := "monitor",
    scenarios := conversationScenarios ++ wordScenarios ++ imageFileScenarios }

end Subleq.SelfCheck
