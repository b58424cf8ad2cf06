/-!
# Ports

A machine reads character codes from a source and emits them to a sink. What lies behind the two is
an environment of any type; a port acts on it and may fail, and a failing port may still have
changed the environment. `Tape` is the environment of recorded sessions: prepared input, collected
output.
-/

namespace Subleq

/-- How a port fails. -/
inductive PortFault where
  /-- The port reports a fault of the machine's own kind. -/
  | stuck (reason : String)
  /-- The port breaks down for a reason of its own. -/
  | broken (reason : String)
  deriving Repr, DecidableEq

def PortFault.message : PortFault → String
  | .stuck reason => reason
  | .broken reason => reason

/-- The code that a source at its end delivers. -/
def endOfInput : Int := -1

/-- The source and the sink of a machine in an environment of type `σ`. -/
structure Ports (σ : Type) where
  source : σ → Except PortFault Int × σ
  sink : Int → σ → Except PortFault Unit × σ

/-- What is said of a source or a sink that is not there. -/
inductive Unconnected where
  | source
  | sink
  deriving Repr, DecidableEq

/-- Joins a source and a sink, if both are there; the source is looked at first. -/
def Ports.connect {σ : Type} (source : Option (σ → Except PortFault Int × σ))
    (sink : Option (Int → σ → Except PortFault Unit × σ)) : Except Unconnected (Ports σ) :=
  match source, sink with
  | none, _ => .error .source
  | _, none => .error .sink
  | some source, some sink => .ok ⟨source, sink⟩

/-- Why a code is no character. -/
inductive CodeFault where
  /-- It is beyond the code points. -/
  | range
  /-- It is beyond the numbers of 32 bits. -/
  | size
  deriving Repr, DecidableEq

def CodeFault.message : CodeFault → String
  | .range => "chr() arg not in range(0x110000)"
  | .size => "Python int too large to convert to C int"

def charOf (code : Int) : Except CodeFault Char :=
  if code < -0x80000000 ∨ 0x7fffffff < code then .error .size
  else if 0 ≤ code ∧ code < 0x110000 then .ok (Char.ofNat code.toNat)
  else .error .range

/-- Prepared input and collected output. `inputs` is what the source still delivers, before it fails
with `atEnd` or delivers the end of input for ever; `room` is how many more codes the sink accepts
before it fails with `whenFull`, if there is a bound. -/
structure Tape where
  inputs : List Int := []
  outputs : Array Int := #[]
  reads : Nat := 0
  atEnd : Option PortFault := none
  room : Option Nat := none
  whenFull : PortFault := .stuck "sink"
  deriving Repr

namespace Tape

/-- Delivers the next input; every call is counted. -/
def read (tape : Tape) : Except PortFault Int × Tape :=
  match tape.inputs with
  | code :: inputs => (.ok code, { tape with inputs, reads := tape.reads + 1 })
  | [] =>
      match tape.atEnd with
      | none => (.ok endOfInput, { tape with reads := tape.reads + 1 })
      | some fault => (.error fault, { tape with reads := tape.reads + 1 })

/-- Accepts a code. -/
def emit (code : Int) (tape : Tape) : Except PortFault Unit × Tape :=
  match tape.room with
  | some 0 => (.error tape.whenFull, tape)
  | some (room + 1) =>
      (.ok (), { tape with outputs := tape.outputs.push code, room := some room })
  | none => (.ok (), { tape with outputs := tape.outputs.push code })

def ports : Ports Tape := ⟨read, emit⟩

/-- The characters of the codes on a tape, unless one of them is no character. -/
def text (tape : Tape) : Except CodeFault String :=
  (tape.outputs.toList.mapM charOf).map String.ofList

end Tape

end Subleq
