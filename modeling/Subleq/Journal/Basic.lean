import Subleq.Fault
import Subleq.Monitor.Image

/-!
# The journal

What a session notes about its work. An event names the channel it is noted on, has a number by
which it can be told from the other events of its channel, and has one line of text. The monitor is
assembled when it is first used, which is noted once.
-/

namespace Subleq

/-- Something worth a note. -/
inductive Event where
  | assembled (sizes : Assembly.Measure)
  | monitorAssembled (cells : Nat)
  | imageFileRead (path : String) (cells : Nat)
  | textLoaded (cells : Nat) (base : Int) (fresh : Bool)
  | imageLoaded (cells : Nat) (base : Int)
  | ran (steps : Nat)
  | evalIgnored (characters : Nat)
  | evalStaged (characters : Nat) (pc : Int)
  | evalHalted (steps : Nat)
  | evalRested (pc : Int) (steps : Nat)
  | machineCreated (pid : Int) (name : String) (cells : Nat)
  deriving Repr, DecidableEq

namespace Event

def channel : Event → String
  | assembled _ => "subleq_asm"
  | monitorAssembled _ | imageFileRead _ _ => "subleq_forth_image"
  | textLoaded _ _ _ | imageLoaded _ _ | ran _ => "subleq_vm_core"
  | evalIgnored _ | evalStaged _ _ | evalHalted _ | evalRested _ _ => "subleq_runtime"
  | machineCreated _ _ _ => "subleq_host_core"

/-- The number of an event in its channel. -/
def place : Event → Nat
  | assembled _ => 275
  | monitorAssembled _ => 316
  | imageFileRead _ _ => 337
  | textLoaded _ _ _ => 257
  | imageLoaded _ _ => 273
  | ran _ => 334
  | evalIgnored _ => 109
  | evalStaged _ _ => 113
  | evalHalted _ => 127
  | evalRested _ _ => 129
  | machineCreated _ _ _ => 111

def message : Event → String
  | assembled sizes =>
      "assemble: " ++ toString sizes.cells ++ " cellules, " ++ toString sizes.names ++
        " labels, " ++ toString sizes.constants ++ " constantes"
  | monitorAssembled cells => "forth_image: " ++ toString cells ++ " cellules"
  | imageFileRead path cells =>
      "load_image_file: " ++ path ++ ", " ++ toString cells ++ " cellules"
  | textLoaded cells base fresh =>
      "load_from_text: " ++ toString cells ++ " cellules en " ++ Text.decimal base ++
        " (reset=" ++ (if fresh then "True" else "False") ++ ")"
  | imageLoaded cells base =>
      "load: image de " ++ toString cells ++ " cellules en " ++ Text.decimal base
  | ran steps => "run: arrêt après " ++ toString steps ++ " pas"
  | evalIgnored characters =>
      "eval: machine arrêtée, " ++ toString characters ++ " caractères ignorés"
  | evalStaged characters pc =>
      "eval: " ++ toString characters ++ " caractères préparés en pc=" ++ Text.decimal pc
  | evalHalted steps => "eval: arrêt après " ++ toString steps ++ " pas"
  | evalRested pc steps =>
      "eval: au repos en pc=" ++ Text.decimal pc ++ " après " ++ toString steps ++ " pas"
  | machineCreated pid name cells =>
      "new_machine: pid=" ++ Text.decimal pid ++ " name=" ++ Text.quoted name ++
        " cells=" ++ toString cells

end Event

/-- The events so far, and whether the monitor was assembled. -/
structure Journal where
  events : Array Event := #[]
  monitorAssembled : Bool := false
  deriving Repr

namespace Journal

def note (journal : Journal) (event : Event) : Journal :=
  { journal with events := journal.events.push event }

/-- Notes the first use of the monitor. -/
def useMonitor (journal : Journal) : Journal :=
  if journal.monitorAssembled then journal
  else
    { (journal.note (.assembled Monitor.measure)).note (.monitorAssembled Monitor.image.length) with
      monitorAssembled := true }

end Journal

end Subleq
