import Subleq.Proofs.Limits

/-!
# Self-checks

The program can check itself. A trial works on a subject and records checks, each with the values
it saw; a trial that meets a fault it does not expect ends there. A trial passes if all its checks
hold. No trial can tell how wide its limits are unless they cut it off: every trial comes with the
proof of this.
-/

namespace Subleq.SelfCheck

/-- A value that a check saw. -/
inductive Observed where
  | integer (value : Int)
  | text (value : String)
  | list (items : List Observed)
  deriving Repr

mutual

/-- Whether two values are the same. -/
def Observed.same : Observed → Observed → Bool
  | integer first, integer second => first == second
  | text first, text second => first == second
  | list first, list second => sameItems first second
  | _, _ => false

/-- Whether two lists hold the same values. -/
def Observed.sameItems : List Observed → List Observed → Bool
  | [], [] => true
  | first :: firsts, second :: seconds => first.same second && sameItems firsts seconds
  | _, _ => false

end

instance : BEq Observed := ⟨Observed.same⟩

/-- Values that checks can see. -/
class Observable (α : Type) where
  observe : α → Observed

export Observable (observe)

instance : Observable Int := ⟨.integer⟩

instance : Observable Nat := ⟨fun value => .integer value⟩

instance : Observable String := ⟨.text⟩

instance {α : Type} [Observable α] : Observable (List α) := ⟨fun items => .list (items.map observe)⟩

instance {α β : Type} [Observable α] [Observable β] : Observable (α × β) :=
  ⟨fun (first, second) => .list [observe first, observe second]⟩

/-- What ended an act that was expected not to end normally. -/
inductive Raised where
  | fault (fault : Fault)
  | quit

/-- A check with the values it saw. -/
inductive Check where
  | equal (first second : Observed)
  | differ (first second : Observed)
  | holds (value : Bool)
  | fails (value : Bool)
  /-- Two values are one and the same. -/
  | same (value : Bool)
  /-- A part of a text, or an item of a list. -/
  | contains (item container : Observed)
  /-- An entry of a table. -/
  | member (value : Bool)
  | raises (raised : Option Raised)

/-- Whether a list of characters stands somewhere in another. -/
def occursIn (part : List Char) : List Char → Bool
  | [] => part.isEmpty
  | c :: rest => part.isPrefixOf (c :: rest) || occursIn part rest

def Check.passes : Check → Bool
  | equal first second => first == second
  | differ first second => !(first == second)
  | holds value => value
  | fails value => !value
  | same value => value
  | contains (.text part) (.text whole) => occursIn part.toList whole.toList
  | contains item (.list items) => items.contains item
  | contains _ _ => false
  | member value => value
  | raises raised => raised.isSome

/-- The subject of a trial and the checks so far. -/
structure TrialState (σ : Type) where
  subject : σ
  checks : Array Check := #[]

/-- Work that is done in the same way within all wider limits, unless it is cut off. -/
def Steady {σ α : Type} (work : Limits → σ → Except Fault α × σ) : Prop :=
  ∀ {limits wider}, limits.Within wider → Widens (work limits) (work wider)

/-- A piece of a trial on a subject of type `σ`. -/
structure Trial (σ α : Type) where
  run : Limits → TrialState σ → Except Fault α × TrialState σ
  steady : Steady run

namespace Trial

variable {σ α β : Type}

protected def pure (value : α) : Trial σ α where
  run _ state := (.ok value, state)
  steady _ := .refl _

protected def bind (trial : Trial σ α) (next : α → Trial σ β) : Trial σ β where
  run limits state :=
    match trial.run limits state with
    | (.ok value, state) => (next value).run limits state
    | (.error fault, state) => (.error fault, state)
  steady := by
    intro limits wider within state uncut
    dsimp only at uncut ⊢
    have same : trial.run wider state = trial.run limits state := by
      refine (trial.steady within).same fun fault after isCut failed => ?_
      rw [failed] at uncut
      exact uncut fault isCut rfl
    rw [same]
    split
    next value after ran =>
      rw [ran] at uncut
      exact (next value).steady within after uncut
    next => rfl

instance : Monad (Trial σ) where
  pure := Trial.pure
  bind := Trial.bind

def record (check : Check) : Trial σ Unit where
  run _ state := (.ok (), { state with checks := state.checks.push check })
  steady _ := .refl _

/-- Acts on the subject within the limits. A fault ends the trial. -/
def actWithin (work : Limits → σ → Except Fault α × σ) (steady : Steady work) : Trial σ α where
  run limits state :=
    let (result, subject) := work limits state.subject
    (result, { state with subject })
  steady within state uncut := by
    have same := steady within state.subject uncut
    simp only [same]

/-- Acts on the subject. -/
def act (work : σ → Except Fault α × σ) : Trial σ α := actWithin (fun _ => work) fun _ => .refl _

/-- The value of a result that is reached within the limits. -/
def valueWithin (result : Limits → Except Fault α)
    (steady : ∀ {limits wider : Limits}, limits.Within wider → Uncut (result limits) →
      result wider = result limits) : Trial σ α :=
  actWithin (fun limits subject => (result limits, subject)) fun within subject uncut =>
    congrArg (·, subject) (steady within uncut)

/-- The value of a result; a fault ends the trial. -/
def valueOf (result : Except Fault α) : Trial σ α := valueWithin (fun _ => result) fun _ _ => rfl

def subject : Trial σ σ := act fun subject => (.ok subject, subject)

def change (update : σ → σ) : Trial σ Unit := act fun subject => (.ok (), update subject)

/-- Expects a piece of a trial to end with a fault. -/
def refused (trial : Trial σ α) : Trial σ Unit where
  run limits state :=
    match trial.run limits state with
    | (.ok _, state) => (record (.raises none)).run limits state
    | (.error fault, state) =>
        if fault.isCut then (.error fault, state)
        else (record (.raises (some (.fault fault)))).run limits state
  steady := by
    intro limits wider within state uncut
    dsimp only at uncut ⊢
    rw [(trial.steady within).same fun fault after isCut failed => ?_]
    · rfl
    · rw [failed] at uncut
      exact uncut fault isCut (by simp only [if_pos isCut])

/-- Expects a result to be a fault. -/
def isRefused (result : Except Fault α) : Trial σ Unit := refused (valueOf result)

def equal [Observable α] (first second : α) : Trial σ Unit :=
  record (.equal (observe first) (observe second))

def differ [Observable α] (first second : α) : Trial σ Unit :=
  record (.differ (observe first) (observe second))

def holds (value : Bool) : Trial σ Unit := record (.holds value)

def fails (value : Bool) : Trial σ Unit := record (.fails value)

/-- Expects a text to hold another. -/
def contains (part whole : String) : Trial σ Unit :=
  record (.contains (.text part) (.text whole))

end Trial

/-- How a trial ended, and its checks. -/
structure Verdict where
  fault : Option Fault
  checks : List Check := []

namespace Verdict

/-- Whether a trial met no fault and all its checks hold. -/
def passed (verdict : Verdict) : Bool :=
  verdict.fault.isNone && verdict.checks.all Check.passes

/-- A verdict on a trial that was not cut off. -/
def Uncut (verdict : Verdict) : Prop := ∀ fault, fault.isCut = true → verdict.fault ≠ some fault

/-- The verdict on a trial that has run. -/
def ofRun {σ : Type} : Except Fault Unit × TrialState σ → Verdict
  | (.ok (), state) => { fault := none, checks := state.checks.toList }
  | (.error fault, state) => { fault := some fault, checks := state.checks.toList }

end Verdict

/-- A named trial of a group. -/
structure Scenario where
  group : String
  name : String
  run : Limits → Verdict
  steady : ∀ {limits wider : Limits}, limits.Within wider → (run limits).Uncut →
    run wider = run limits

/-- The name of a scenario, led by its group and a dot. -/
def Scenario.title (scenario : Scenario) : String := scenario.group ++ "." ++ scenario.name

/-- A scenario of a trial on a subject that may depend on the room. -/
def Trial.scenario {σ : Type} (start : Room → Except Fault σ) (group name : String)
    (trial : Trial σ Unit) : Scenario where
  group := group
  name := name
  run limits :=
    match start limits.room with
    | .error fault => { fault := some fault }
    | .ok subject => .ofRun (trial.run limits { subject })
  steady := by
    intro limits wider within uncut
    rw [← within.room]
    cases started : start limits.room with
    | error fault => rfl
    | ok subject =>
        rw [started] at uncut
        dsimp only at uncut ⊢
        rw [(trial.steady within).same fun fault after isCut failed => ?_]
        rw [failed] at uncut
        exact uncut fault isCut rfl

/-- Scenarios about one part of the program. -/
structure Suite where
  name : String
  scenarios : List Scenario

/-- The order of groups and, in a group, of names. -/
def Scenario.precedes (left right : Scenario) : Bool :=
  !decide (right.group < left.group) &&
    (left.group != right.group || !decide (right.name < left.name))

/-- The scenarios of a suite, sorted by group and name. -/
def Suite.sorted (suite : Suite) : List Scenario := suite.scenarios.mergeSort Scenario.precedes

def Suite.run (suite : Suite) (limits : Limits) : List (Scenario × Verdict) :=
  suite.sorted.map fun scenario => (scenario, scenario.run limits)

abbrev TapeBench := Bench Tape

def freshBench (inputs : List Int) : TapeBench :=
  { machine := .ofWidth defaultWidth, env := { inputs } }

def textOf {σ : Type} (bench : TapeBench) : Trial σ String :=
  Trial.valueOf (bench.env.text.mapError .code)

/-- Assembles, loads and runs a source on a fresh bench, and gives the text it emitted. -/
def runSource (limits : Limits) (source : String) : Except Fault String × Journal :=
  match (freshBench []).loadSource source 0 with
  | (.error fault, bench) => (.error fault, bench.journal)
  | (.ok _, bench) =>
      match bench.run Tape.ports limits.fuel with
      | (.error fault, bench) => (.error fault, bench.journal)
      | (.ok _, bench) => (bench.env.text.mapError .code, bench.journal)

theorem runSource_of_within {limits wider : Limits} (within : limits.Within wider) (source : String)
    (uncut : Uncut (runSource limits source).1) :
    runSource wider source = runSource limits source := by
  unfold runSource at uncut ⊢
  split
  · rfl
  next count bench loaded =>
    rw [loaded] at uncut
    dsimp only at uncut
    have same : bench.run Tape.ports wider.fuel = bench.run Tape.ports limits.fuel := by
      refine (Bench.widens_run Tape.ports within.fuel).same fun fault after isCut failed => ?_
      rw [failed] at uncut
      exact uncut fault isCut rfl
    rw [same]

end Subleq.SelfCheck
