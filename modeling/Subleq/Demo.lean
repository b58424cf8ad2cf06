import Subleq.Bench
import Subleq.Config

/-!
# The demo

A recorded session on one machine: two programs that greet, then the monitor, which tells its size
and its words.
-/

namespace Subleq.Demo

def hi : String := "9 -1 3 10 -1 6 0 0 -1 72 105 0"

/-- A program that emits `Hello, World!` and a line feed. -/
def hello : String :=
  "12 12 3 36 37 6 37 12 9 37 37 12 0 -1 15 38 36 18\n" ++
  "12 12 21 53 37 24 37 12 27 37 37 30 36 12 -1 37 37 0 39 0 -1 72 101 108\n" ++
  "108 111 44 32 87 111 114 108 100 33 10 53"

/-- The line that makes the monitor tell its size. -/
def sizeLine : String := ".( EFORTH LOADED - USED:) here u. cr"

/-- The line that makes the monitor list its words. -/
def wordsLine : String := ".( WORDS: ) words cr"

/-- One act after another, until one fails. -/
def perform {σ : Type} (bench : Bench σ) :
    List (Bench σ → Except Fault Unit × Bench σ) → Except Fault Unit × Bench σ
  | [] => (.ok (), bench)
  | act :: acts =>
      match act bench with
      | (.ok (), bench) => perform bench acts
      | failed => failed

/-- An act whose result does not matter. -/
def quietly {σ α : Type} (result : Except Fault α × Bench σ) : Except Fault Unit × Bench σ :=
  (result.1.map fun _ => (), result.2)

def acts {σ : Type} (config : Config σ) (fuel : Nat) :
    List (Bench σ → Except Fault Unit × Bench σ) :=
  [fun bench => quietly (bench.loadText hi true 0),
    fun bench => quietly (bench.run config.ports fuel),
    fun bench => bench.emit config.ports 10,
    fun bench => quietly (bench.loadText hello true 0),
    fun bench => quietly (bench.run config.ports fuel),
    fun bench => quietly bench.loadMonitor,
    fun bench => quietly (bench.eval config.ports fuel config.terminator sizeLine),
    fun bench => quietly (bench.eval config.ports fuel config.terminator wordsLine)]

/-- Plays the demo on a machine in some room. -/
def play {σ : Type} (room : Room) (config : Config σ) (fuel : Nat) (env : σ) (journal : Journal) :
    Except Fault Unit × Bench σ :=
  perform { machine := config.machine.within room, env, journal } (acts config fuel)

end Subleq.Demo
