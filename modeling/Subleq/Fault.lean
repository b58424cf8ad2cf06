import Subleq.Assembly.Layout
import Subleq.Files.Basic
import Subleq.Machine.Run

/-!
# Faults

Everything that can go wrong in a session, with the text of its complaint. A fault is the machine's
own if it is about addresses, programs or assembly, or if a port reports it as such; sessions print
the machine's own faults and go on, while others end the command that met them.
-/

namespace Subleq

/-- What went wrong. -/
inductive Fault where
  | address (fault : AddressFault)
  | port (fault : PortFault)
  | program (fault : Program.Fault)
  /-- A bad token in an image file. -/
  | imageToken (path text : String) (line index : Nat)
  | datum (fault : Datum.NotInteger)
  | assembly (fault : Assembly.Fault)
  | file (fault : ReadFault)
  /-- A width that no memory has. -/
  | memoryWidth (width : Int)
  /-- A width that no machine can be asked for. -/
  | machineWidth (width : Int)
  /-- A width that no integer can be wrapped to. -/
  | wrapWidth
  /-- Ports that are not there. -/
  | unconnected (port : Unconnected)
  /-- Ports that are not there when a machine is asked for. -/
  | machineUnconnected (port : Unconnected)
  /-- No machine has this number. -/
  | unknownPid (pid : Int)
  /-- A code that is no character. -/
  | code (fault : CodeFault)
  /-- A write for which there is no room. -/
  | storage (fault : StorageFault)
  /-- An integer with too many digits to be written. -/
  | unwritable
  /-- Nobody takes the output of a machine. -/
  | noListener
  /-- The bound on the number of steps is used up. -/
  | outOfFuel
  /-- The bound on the nesting of scripts is used up. -/
  | nesting

namespace Fault

/-- The fault of a bad address, if the complaint about it can be written. -/
def ofAddress (fault : AddressFault) : Fault :=
  if fault.isWritable then .address fault else .unwritable

def ofWrite : Memory.WriteFault → Fault
  | .address fault => .ofAddress fault
  | .storage fault => .storage fault

def ofMachine : Machine.StepFault → Fault
  | .address fault => .ofAddress fault
  | .port fault => .port fault
  | .storage fault => .storage fault

/-- The fault of a datum in the place of a cell value, if the complaint about it can be written. -/
def ofDatum (fault : Datum.NotInteger) : Fault :=
  if fault.datum.isWritable then .datum fault else .unwritable

def ofLoad : Machine.LoadFault → Fault
  | .base fault => .ofAddress fault
  | .program fault => .program fault
  | .datum fault => .ofDatum fault
  | .storage fault => .storage fault

/-- The port in words. -/
def portName : Unconnected → String
  | .source => "source"
  | .sink => "sink"

def message : Fault → String
  | address fault => fault.message
  | port fault => fault.message
  | program fault => fault.message
  | imageToken path text line index => path ++ ": " ++ (Program.Fault.token text line index).message
  | datum fault => fault.message
  | assembly fault => fault.message
  | file fault => fault.message
  | memoryWidth width => "cell_bits trop petit: " ++ Text.decimal width
  | machineWidth width => "MachineConfig.cell_bits invalide: " ++ Text.decimal width
  | wrapWidth => "negative shift count"
  | unconnected side => portName side ++ " doit être appelable"
  | machineUnconnected side => "MachineConfig." ++ portName side ++ " doit être appelable"
  | unknownPid pid => "pid " ++ Text.decimal pid ++ " inconnu"
  | code fault => fault.message
  | storage fault => fault.message
  | unwritable => Text.unwritableMessage
  | noListener => ""
  | outOfFuel => "out of fuel"
  | nesting => "maximum recursion depth exceeded"

/-- Whether a fault is of the machine's own kind. -/
def isOwn : Fault → Bool
  | address _ => true
  | port (.stuck _) => true
  | program (.token _ _ _) => true
  | imageToken _ _ _ _ => true
  | datum _ => true
  | assembly (.line ⟨_, .tooLong _⟩) => false
  | assembly _ => true
  | _ => false

def isRefusal : Fault → Bool
  | file (.refused _) => true
  | _ => false

end Fault

/-- Reads an image file: its values, or the first bad token with the path before its complaint. -/
def readImageFile (disk : Disk) (path : String) : Except Fault (List Int) :=
  match disk.readText path with
  | .error fault => .error (.file fault)
  | .ok text =>
      match Program.read text with
      | .ok values => .ok values
      | .error (.token token line index) => .error (.imageToken path token line index)
      | .error fault => .error (.program fault)

/-- The character of a code: its lowest eight bits. -/
def codeToText (code : Int) : String := String.singleton (Char.ofNat (code % 256).toNat)

end Subleq
