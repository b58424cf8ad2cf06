import Subleq.Proofs.Monitor.Program

/-!
# Paths through the monitor

`Leads` is the execution of the monitor from one point to another: statements that keep to its
cells, none of which waits for input, and the emitter, which emits the cell its operand was set to.
A machine that runs the assembled monitor follows every such path without coming to rest on it.
-/

namespace Subleq.Monitor

open Assembly
open Abstract (Reaches)

/-- The execution of the monitor gets from one point to another without waiting for input. -/
inductive Leads {σ : Type} (words : List String) (width : Nat) (ports : Ports σ) :
    Execution → σ → Execution → σ → Prop where
  | refl (execution : Execution) (env : σ) : Leads words width ports execution env execution env
  /-- A line without a statement is passed over. -/
  | skip {line : Line} {rest : Listing} {cells : Nat → Int} {staged : List Int} {env : σ}
      {last : Execution} {lastEnv : σ} :
      line.statement = none →
      Leads words width ports ⟨some rest, cells, staged⟩ env last lastEnv →
      Leads words width ports ⟨some (line :: rest), cells, staged⟩ env last lastEnv
  /-- A statement is executed; one that reads finds staged input. -/
  | step {line : Line} {rest : Listing} {statement : Statement} {cells : Nat → Int}
      {staged : List Int} {env : σ} {next : Execution} {nextEnv : σ} {last : Execution}
      {lastEnv : σ} :
      line.statement = some statement →
      keeps statement = true →
      (∀ cell, statement = .inp cell → staged ≠ []) →
      (programWith words).execute width ports rest ⟨some (line :: rest), cells, staged⟩ env
        statement = some { execution := next, env := nextEnv } →
      Leads words width ports next nextEnv last lastEnv →
      Leads words width ports ⟨some (line :: rest), cells, staged⟩ env last lastEnv
  /-- The emitter emits the cell its operand was set to. -/
  | emit {rest : Listing} {cells : Nat → Int} {staged : List Int} {env nextEnv : σ}
      {last : Execution} {lastEnv : σ} {pointer : Nat} :
      (programWith words).counter (some (does emitter :: rest)) = emitterPlace →
      cells emitterPlace = pointer →
      Writable words pointer →
      ports.sink (cells pointer) env = (.ok (), nextEnv) →
      Leads words width ports ⟨some rest, cells, staged⟩ nextEnv last lastEnv →
      Leads words width ports ⟨some (does emitter :: rest), cells, staged⟩ env last lastEnv

namespace Leads

variable {σ : Type} {words : List String} {width : Nat} {ports : Ports σ}

theorem trans {first middle last : Execution} {firstEnv middleEnv lastEnv : σ}
    (left : Leads words width ports first firstEnv middle middleEnv)
    (right : Leads words width ports middle middleEnv last lastEnv) :
    Leads words width ports first firstEnv last lastEnv := by
  induction left with
  | refl => exact right
  | skip empty _ ih => exact .skip empty (ih right)
  | step has kept fed does _ ih => exact .step has kept fed does (ih right)
  | emit placed pointing writable accepted _ ih =>
      exact .emit placed pointing writable accepted (ih right)

variable {image : List Int}
  {assembled : (programWith words).image (.ofListing (programWith words)) 0 = .ok image}
  {small : (image.length : Int) ≤ cellBound width}

theorem emitter_cells {machine : Abstract} {rest : Listing} {cells : Nat → Int}
    {staged : List Int}
    (represents : Represents (built words width image assembled small) machine
      ⟨some (does emitter :: rest), cells, staged⟩)
    (placed : (programWith words).counter (some (does emitter :: rest)) = emitterPlace) :
    machine.pc = (emitterPlace : Nat) ∧ machine.cell emitterPlace = cells emitterPlace ∧
      machine.cell (emitterPlace + 1) = -1 := by
  have pc : machine.pc = (emitterPlace : Nat) := represents.pc.trans placed
  refine ⟨pc, represents.written _ (Or.inr rfl), ?_⟩
  obtain ⟨before, split⟩ := represents.placed _ rfl
  change before ++ does emitter :: rest = programWith words at split
  have size : Listing.size before = emitterPlace := by
    rw [← split, Listing.counter_append] at placed
    omega
  have parts : Listing.image (before ++ does emitter :: rest)
      (.ofListing (programWith words)) 0 = .ok image := by
    rw [split]
    exact assembled
  have term : (emitter.terms (Listing.size before))[1]? = some (.value (-1)) := rfl
  obtain ⟨value, resolved, held⟩ := Listing.getElem?_image_statement parts rfl term
  cases resolved
  rw [size] at held
  have inside : emitterPlace + 1 < (programWith words).size := by
    rw [size_programWith, emitterPlace, listPlace]
    omega
  have fixed : ¬Writable words (emitterPlace + 1) := by
    rintro (isDatum | same)
    · rw [← split, ← size] at isDatum
      exact Listing.not_isDatum rfl rfl (by decide) isDatum
    · exact absurd same (by decide)
  have notScratch : ∀ scratch,
      emitterPlace + 1 ≠ (built words width image assembled small).layout.address
        (.scratch scratch) := by
    intro scratch
    rw [Layout.address_scratch, Assembled.size_layout]
    change _ ≠ (programWith words).size + _
    omega
  rw [represents.intact _ _ held fixed (notScratch .difference) (notScratch .opposite)]
  exact wrap_of_fitsCell (Assembled.width_positive (built words width image assembled small))
    (Assembled.fitsCell_mark (built words width image assembled small))

theorem reaches_emitter {machine : Abstract} {rest : Listing} {cells : Nat → Int}
    {staged : List Int} {env nextEnv : σ} {pointer : Nat}
    (represents : Represents (built words width image assembled small) machine
      ⟨some (does emitter :: rest), cells, staged⟩)
    (placed : (programWith words).counter (some (does emitter :: rest)) = emitterPlace)
    (pointing : cells emitterPlace = pointer) (writable : Writable words pointer)
    (accepted : ports.sink (cells pointer) env = (.ok (), nextEnv)) :
    ∃ after, Reaches ports Abstract.idle 1 machine env after nextEnv ∧
      Represents (built words width image assembled small) after ⟨some rest, cells, staged⟩ := by
  obtain ⟨pc, cellA, cellB⟩ := emitter_cells represents placed
  rw [pointing] at cellA
  have stepped := Abstract.step_output ports env pc cellA cellB
  rw [represents.written pointer writable, accepted] at stepped
  have active : machine.idle = false := by
    apply Abstract.lively_idle
    · omega
    · rw [pc, Int.toNat_natCast, cellA]
      omega
  refine ⟨_, .single active stepped, ?_⟩
  apply represents.goTo
  · rintro _ ⟨⟩
    exact (List.suffix_cons _ _).trans (represents.placed _ rfl)
  · have size : Line.size (does emitter) = 3 := rfl
    change _ = (programWith words).counter _
    simp only [Listing.counter, Listing.size, size] at placed ⊢
    omega
  · intro position _ _
    rfl
  · exact represents.fits

theorem reaches {first last : Execution} {env lastEnv : σ}
    (leads : Leads words width ports first env last lastEnv) {machine : Abstract}
    (represents : Represents (built words width image assembled small) machine first) :
    ∃ count after, Reaches ports Abstract.idle count machine env after lastEnv ∧
      Represents (built words width image assembled small) after last := by
  induction leads generalizing machine with
  | refl execution env => exact ⟨0, machine, .refl machine env, represents⟩
  | skip empty _ ih => exact ih (represents.skip rfl empty)
  | @step line rest statement cells staged env next nextEnv last lastEnv has kept fed does _ ih =>
      have found : Listing.next? (line :: rest) = some (statement, rest) := by
        rw [Listing.next?, has]
      obtain ⟨before, other, split, otherHas, pc⟩ := represents.facing rfl found
      have fit := @sound words width image assembled small _ _ _ _ split otherHas kept
      have active := represents.idle_eq_false fit pc fed
      obtain ⟨count, middle, -, path, there⟩ :=
        represents.follows fit pc Abstract.lively_idle active does
      obtain ⟨more, after, others, arrived⟩ := ih there
      exact ⟨count + more, after, path.trans others, arrived⟩
  | emit placed pointing writable accepted _ ih =>
      obtain ⟨middle, path, there⟩ := reaches_emitter represents placed pointing writable accepted
      obtain ⟨more, after, others, arrived⟩ := ih there
      exact ⟨1 + more, after, path.trans others, arrived⟩

end Leads

end Subleq.Monitor
