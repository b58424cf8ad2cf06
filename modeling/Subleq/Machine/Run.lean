import Subleq.Machine.Step

/-!
# Runs

A run repeats steps until a condition holds. The machine itself sets no bound, so a run takes a
number of steps it may do at most; a run that uses it up ends apart from one that stops or fails.
`run` stops at the halt; `eval` stages a text and stops at the halt or at rest, which is when all
staged input is consumed and the next instruction reads input. Not every list of codes is that of a
text, so `evalCodes` takes the codes themselves.
-/

namespace Subleq.Machine

/-- How a run ends. -/
inductive Ending where
  | stopped
  | failed (fault : StepFault)
  | outOfFuel
  deriving Repr, DecidableEq

/-- The machine and the environment after a run, the number of completed steps, and how it ended. -/
structure Progress (σ : Type) where
  machine : Machine
  env : σ
  steps : Nat
  ending : Ending

/-- Steps until `stop` holds, at most `fuel` times; `steps` counts the steps done before. -/
@[specialize] def advance {σ : Type} (ports : Ports σ) (stop : Machine → Bool) :
    (fuel steps : Nat) → Machine → σ → Progress σ
  | 0, steps, machine, env =>
      let ending := if stop machine then .stopped else .outOfFuel
      { machine, env, steps, ending }
  | fuel + 1, steps, machine, env =>
      if stop machine then { machine, env, steps, ending := .stopped }
      else match step ports machine env with
        | { machine, env, fault := none } => advance ports stop fuel (steps + 1) machine env
        | { machine, env, fault := some fault } => { machine, env, steps, ending := .failed fault }

def run {σ : Type} (ports : Ports σ) (fuel : Nat) (machine : Machine) (env : σ) : Progress σ :=
  advance ports halted fuel 0 machine env

/-- Whether all staged input is consumed and the next instruction reads input. -/
def waiting (machine : Machine) : Bool :=
  if machine.pc < 0 || !machine.staged.isEmpty then false
  else machine.memory.get machine.pc.toNat == sentinel

/-- Whether a machine has halted or is at rest. -/
def idle (machine : Machine) : Bool := machine.halted || machine.waiting

/-- A text with a terminator at its end. -/
def terminated (terminator text : String) : String :=
  if terminator.isEmpty || terminator.toList.isSuffixOf text.toList then text
  else text ++ terminator

/-- Codes with those of a terminator at their end. -/
def terminatedCodes (terminator codes : List Int) : List Int :=
  if terminator.isEmpty || terminator.isSuffixOf codes then codes else codes ++ terminator

/-- Forgets what is still staged after an evaluation that halted or failed by a fault of the
machine's own kind: it has no reader any more. -/
def Progress.settle {σ : Type} (progress : Progress σ) : Progress σ :=
  match progress with
  | { machine, env, steps, ending } =>
      let forget := match ending with
        | .stopped => machine.halted
        | .failed fault => fault.isOwn
        | .outOfFuel => false
      { machine := if forget then machine.clearStaged else machine, env, steps, ending }

/-- Stages codes with a terminator and runs until the machine halts or rests. A halted machine takes
no codes. -/
def evalCodes {σ : Type} (ports : Ports σ) (fuel : Nat) (terminator codes : List Int)
    (machine : Machine) (env : σ) : Progress σ :=
  if machine.halted then { machine, env, steps := 0, ending := .stopped }
  else (advance ports idle fuel 0 (machine.stage (terminatedCodes terminator codes)) env).settle

def eval {σ : Type} (ports : Ports σ) (fuel : Nat) (terminator text : String) (machine : Machine)
    (env : σ) : Progress σ :=
  evalCodes ports fuel (codesOf terminator) (codesOf text) machine env

/-- The program counters after each of at most `count` steps, last one first before `done`; a halt
or a fault ends the list. -/
def trace {σ : Type} (ports : Ports σ) : (count : Nat) → (done : List Int) → Machine → σ →
    List Int × Stepped σ
  | 0, done, machine, env => (done, { machine, env })
  | count + 1, done, machine, env =>
      if machine.halted then (done, { machine, env })
      else match step ports machine env with
        | { machine, env, fault := none } => trace ports count (machine.pc :: done) machine env
        | stepped => (done, stepped)

end Subleq.Machine
