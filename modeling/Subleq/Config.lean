import Subleq.Fault

/-!
# Building machines

A machine is built from a source, a sink and a width. Parts that cannot make a machine are refused
in a fixed order: a bare machine judges the width first and then its ports, the source before the
sink; a session's machine judges the sink, the source and then the width.
-/

namespace Subleq

abbrev Source? (σ : Type) := Option (σ → Except PortFault Int × σ)

abbrev Sink? (σ : Type) := Option (Int → σ → Except PortFault Unit × σ)

/-- `wrap` for a width that is any integer; a width below one is refused, and so is one for which
there is no room. -/
def wrapWithin (room : Room) (width value : Int) : Except Fault Int :=
  if width < 1 then .error .wrapWidth
  else match room.widthFault? width.toNat with
    | some fault => .error (.storage fault)
    | none => .ok (wrap width.toNat value)

/-- The memory of a width that is any integer. -/
def Memory.ofBits (bits : Int) : Except Fault Memory :=
  if bits < Memory.leastWidth then .error (.memoryWidth bits) else .ok (.empty bits.toNat)

/-- The ports made of a source and a sink. -/
def Ports.ofParts {σ : Type} (source : Source? σ) (sink : Sink? σ) : Except Fault (Ports σ) :=
  (Ports.connect source sink).mapError .unconnected

/-- A bare machine with its ports. -/
def Machine.build {σ : Type} (source : Source? σ) (sink : Sink? σ) (bits : Int) :
    Except Fault (Ports σ × Machine) := do
  let memory ← Memory.ofBits bits
  let ports ← Ports.ofParts source sink
  return (ports, { memory })

/-- The settings of a session's machine; the terminator ends every text it evaluates. -/
structure Config (σ : Type) where
  ports : Ports σ
  width : Nat
  terminator : String

/-- What ends an evaluated text where nothing else is asked for. -/
def defaultTerminator : String := "\n"

def Config.ofParts {σ : Type} (sink : Sink? σ) (source : Source? σ) (bits : Int)
    (terminator : String) : Except Fault (Config σ) :=
  match sink, source with
  | none, _ => .error (.machineUnconnected .sink)
  | _, none => .error (.machineUnconnected .source)
  | some sink, some source =>
      if bits < Memory.leastWidth then .error (.machineWidth bits)
      else .ok { ports := { source, sink }, width := bits.toNat, terminator }

def Config.machine {σ : Type} (config : Config σ) : Machine := .ofWidth config.width

end Subleq
