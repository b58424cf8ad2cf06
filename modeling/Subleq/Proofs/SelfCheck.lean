import Mathlib.Data.Prod.Lex
import Mathlib.Data.String.Basic
import Subleq.SelfCheck.Suites

/-!
# What self-checks say

A check passes if what it says of the values it saw is true. A suite runs every scenario once, by
group and name. A suite that passes within some limits passes within all wider ones, with the same
report: whether the program is in order does not depend on its bounds.
-/

namespace Subleq.SelfCheck

/-! ## Checks -/

mutual

theorem Observed.same_iff : ∀ first second : Observed, first.same second = true ↔ first = second
  | .integer _, second => by cases second <;> simp [Observed.same]
  | .text _, second => by cases second <;> simp [Observed.same]
  | .list items, second => by
      cases second with
      | list others => simp [Observed.same, Observed.sameItems_iff items others]
      | _ => simp [Observed.same]

theorem Observed.sameItems_iff :
    ∀ firsts seconds : List Observed, Observed.sameItems firsts seconds = true ↔ firsts = seconds
  | [], seconds => by cases seconds <;> simp [Observed.sameItems]
  | first :: firsts, [] => by simp [Observed.sameItems]
  | first :: firsts, second :: seconds => by
      simp [Observed.sameItems, Observed.same_iff first second,
        Observed.sameItems_iff firsts seconds]

end

instance : LawfulBEq Observed where
  eq_of_beq same := (Observed.same_iff _ _).mp same
  rfl := (Observed.same_iff _ _).mpr rfl

theorem occursIn_iff {part whole : List Char} : occursIn part whole = true ↔ part <:+: whole := by
  induction whole with
  | nil => simp [occursIn]
  | cons c rest ih => simp [occursIn, List.infix_cons_iff, ih]

/-- What a check says of the values it saw. -/
def Check.Holds : Check → Prop
  | equal first second => first = second
  | differ first second => first ≠ second
  | holds value => value = true
  | fails value => value = false
  | same value => value = true
  | contains (.text part) (.text whole) => part.toList <:+: whole.toList
  | contains item (.list items) => item ∈ items
  | contains _ _ => False
  | member value => value = true
  | raises raised => ∃ what, raised = some what

theorem Check.passes_iff (check : Check) : check.passes = true ↔ check.Holds := by
  cases check with
  | equal first second => exact beq_iff_eq
  | differ first second => simp [Check.passes, Check.Holds]
  | contains item container =>
      cases container with
      | integer value => simp [Check.passes, Check.Holds]
      | text whole =>
          cases item with
          | text part => exact occursIn_iff
          | _ => simp [Check.passes, Check.Holds]
      | list items => simp [Check.passes, Check.Holds]
  | raises raised => exact Option.isSome_iff_exists
  | fails value => simp [Check.passes, Check.Holds]
  | _ => rfl

/-- A trial has passed if it met no fault and what its checks say is true. -/
theorem Verdict.passed_iff (verdict : Verdict) :
    verdict.passed = true ↔ verdict.fault = none ∧ ∀ check ∈ verdict.checks, check.Holds := by
  simp [Verdict.passed, Check.passes_iff]

/-! ## Scenarios -/

theorem Scenario.precedes_iff (left right : Scenario) :
    left.precedes right = true ↔
      toLex (left.group, left.name) ≤ toLex (right.group, right.name) := by
  rw [Prod.Lex.toLex_le_toLex]
  simp only [Scenario.precedes, Bool.and_eq_true, Bool.not_eq_true', decide_eq_false_iff_not,
    Bool.or_eq_true, bne_iff_ne, not_lt]
  grind

theorem Suite.pairwise_sorted (suite : Suite) :
    suite.sorted.Pairwise fun left right => left.precedes right = true := by
  refine List.pairwise_mergeSort ?_ ?_ suite.scenarios
  · intro first second third before after
    rw [Scenario.precedes_iff] at before after ⊢
    exact before.trans after
  · intro left right
    rw [Bool.or_eq_true, Scenario.precedes_iff, Scenario.precedes_iff]
    exact le_total _ _

theorem Suite.run_perm (suite : Suite) (limits : Limits) :
    (suite.run limits).Perm
      (suite.scenarios.map fun scenario => (scenario, scenario.run limits)) :=
  (List.mergeSort_perm suite.scenarios Scenario.precedes).map _

theorem Suite.allPassed_iff (suite : Suite) (limits : Limits) :
    allPassed (suite.run limits) = true ↔
      ∀ scenario ∈ suite.scenarios, (scenario.run limits).passed = true := by
  rw [allPassed, (suite.run_perm limits).all_eq, List.all_map, List.all_eq_true]
  rfl

/-! ## Wider limits -/

theorem Verdict.uncut_of_passed {verdict : Verdict} (passed : verdict.passed = true) :
    verdict.Uncut := by
  intro fault _ failed
  have none := (verdict.passed_iff.mp passed).1
  rw [none] at failed
  cases failed

/-- A suite of which nothing is cut off has the same verdicts within all wider limits. -/
theorem Suite.run_of_within (suite : Suite) {limits wider : Limits} (within : limits.Within wider)
    (uncut : ∀ scenario ∈ suite.scenarios, (scenario.run limits).Uncut) :
    suite.run wider = suite.run limits := by
  refine List.map_congr_left fun scenario member => ?_
  rw [scenario.steady within (uncut scenario (List.mem_mergeSort.mp member))]

/-- A suite that has passed passes within all wider limits, with the same report. -/
theorem Suite.passes_of_within (suite : Suite) {limits wider : Limits}
    (within : limits.Within wider) (passed : allPassed (suite.run limits) = true) :
    allPassed (suite.run wider) = true ∧ report (suite.run wider) = report (suite.run limits) := by
  have each := (suite.allPassed_iff limits).mp passed
  have uncut (scenario : Scenario) (member : scenario ∈ suite.scenarios) :
      (scenario.run limits).Uncut := Verdict.uncut_of_passed (each scenario member)
  rw [suite.run_of_within within uncut]
  exact ⟨passed, rfl⟩

example {limits : Limits} (within : Limits.Within { fuel := 100, nesting := 0 } limits) :
    allPassed (evaluationSuite.run limits) = true := by
  have passed : allPassed (evaluationSuite.run { fuel := 100, nesting := 0 }) = true :=
    (evaluationSuite.allPassed_iff _).mpr (by decide +kernel)
  exact (evaluationSuite.passes_of_within within passed).1

end Subleq.SelfCheck
