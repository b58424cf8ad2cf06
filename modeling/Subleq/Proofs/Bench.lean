import Subleq.Bench
import Subleq.Proofs.Machine.Environments

/-!
# Work at a bench

The journal is written and never read: what is done at a bench does not depend on it. It depends on
the environment only by what the ports answer, so work on a machine comes to the same in two
environments that the ports cannot tell apart.
-/

namespace Subleq.Bench

variable {σ α : Type} {related : σ → σ → Prop}

/-- Benches with the same machine, in related environments. -/
structure Alike (related : σ → σ → Prop) (first second : Bench σ) : Prop where
  machine : first.machine = second.machine
  env : related first.env second.env

/-- Work with the same outcome at benches that are alike, and which stay alike. -/
def Steady (related : σ → σ → Prop) (work : Bench σ → Except Fault α × Bench σ) : Prop :=
  ∀ first second, Alike related first second →
    (work first).1 = (work second).1 ∧ Alike related (work first).2 (work second).2

theorem loaded_steady (event : Nat → Event)
    (load : Machine → Except Machine.LoadFault Nat × Machine) :
    Steady related fun bench => bench.loaded event (load bench.machine) := by
  rintro ⟨machine, env, journal⟩ ⟨_, other, otherJournal⟩ ⟨rfl, alike⟩
  cases loads : load machine with
  | mk result after =>
      simp only [loads]
      cases result with
      | ok count => exact ⟨rfl, rfl, alike⟩
      | error fault => exact ⟨rfl, rfl, alike⟩

theorem loadData_steady (data : List Datum) (base : Int) :
    Steady related fun bench => bench.loadData data base :=
  loaded_steady (.imageLoaded · base) (·.loadData data base)

theorem loadText_steady (text : String) (fresh : Bool) (base : Int) :
    Steady related fun bench => bench.loadText text fresh base :=
  loaded_steady (.textLoaded · base fresh) (·.loadText text fresh base)

theorem loadMonitor_steady : Steady related fun bench : Bench σ => bench.loadMonitor := by
  intro first second alike
  exact loaded_steady (.imageLoaded · 0) (·.load Monitor.image 0) _ _ ⟨alike.machine, alike.env⟩

theorem outcome_alike {first second : Machine.Progress σ}
    (alike : Machine.Progress.Alike related first second) : outcome first = outcome second := by
  rw [outcome, outcome, alike.ending, alike.steps]

theorem run_steady {ports : Ports σ} (sinks : SinksAgree related ports ports)
    (sources : SourcesAgree related ports ports) (fuel : Nat) :
    Steady related fun bench => bench.run ports fuel := by
  rintro ⟨machine, env, journal⟩ ⟨_, other, otherJournal⟩ ⟨rfl, alike⟩
  have ran := Machine.run_alike sinks sources fuel machine alike
  have ended := outcome_alike ran
  simp only [run, ended]
  split
  · exact ⟨rfl, ran.machine, ran.env⟩
  · exact ⟨rfl, ran.machine, ran.env⟩
  · exact ⟨rfl, ran.machine, ran.env⟩

theorem eval_steady {ports : Ports σ} (sinks : SinksAgree related ports ports) (fuel : Nat)
    (terminator text : String) :
    Steady related fun bench => bench.eval ports fuel terminator text := by
  rintro ⟨machine, env, journal⟩ ⟨_, other, otherJournal⟩ ⟨rfl, alike⟩
  have evaluated := Machine.eval_alike sinks fuel terminator text machine alike
  have ended := outcome_alike evaluated
  simp only [eval, ended]
  split
  · exact ⟨rfl, rfl, alike⟩
  · split
    · exact ⟨rfl, evaluated.machine, evaluated.env⟩
    · exact ⟨rfl, evaluated.machine, evaluated.env⟩

/-! ## What work comes to -/

theorem loaded_eq (bench : Bench σ) (event : Nat → Event)
    (outcome : Except Machine.LoadFault Nat × Machine) :
    ((bench.loaded event outcome).1, (bench.loaded event outcome).2.machine) =
      (outcome.1.mapError .ofLoad, outcome.2) := by
  obtain ⟨result, machine⟩ := outcome
  cases result with
  | ok count => rfl
  | error fault => rfl

/-- An evaluation is answered as it ends, also on a machine that takes no text. -/
theorem eval_eq (bench : Bench σ) (ports : Ports σ) (fuel : Nat) (terminator text : String) :
    ((bench.eval ports fuel terminator text).1, (bench.eval ports fuel terminator text).2.machine) =
      (outcome (bench.machine.eval ports fuel terminator text bench.env),
        (bench.machine.eval ports fuel terminator text bench.env).machine) := by
  unfold eval
  dsimp only
  split
  next halted =>
    rw [Machine.eval_of_halted ports fuel terminator text halted]
    rfl
  next =>
    split
    next answered => rw [answered]; rfl
    next answered => rw [answered]

theorem run_eq (bench : Bench σ) (ports : Ports σ) (fuel : Nat) :
    ((bench.run ports fuel).1, (bench.run ports fuel).2.machine) =
      (outcome (bench.machine.run ports fuel bench.env),
        (bench.machine.run ports fuel bench.env).machine) := by
  unfold run
  dsimp only
  split
  next answered => rw [answered]
  next answered => rw [answered]; rfl
  next answered => rw [answered]

end Subleq.Bench
