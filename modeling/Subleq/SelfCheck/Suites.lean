import Subleq.SelfCheck.Assembly
import Subleq.SelfCheck.Host
import Subleq.SelfCheck.Session

/-!
# All self-checks

The suites by name, and the report that is printed when one of them is run. The program runs the
suite of sessions when it is asked to test itself; each of its parts has a suite of its own.
-/

namespace Subleq.SelfCheck

def suites : List Suite :=
  [machineSuite, evaluationSuite, assemblySuite, monitorSuite, hostSuite, sessionSuite]

def suite? (name : String) : Option Suite := suites.find? (·.name == name)

/-- The scenario of a suite with a title. -/
def Suite.scenario? (suite : Suite) (title : String) : Option Scenario :=
  suite.scenarios.find? (·.title == title)

def Verdict.mark (verdict : Verdict) : String :=
  if verdict.fault.isSome then "E" else if verdict.passed then "." else "F"

/-- Whether all scenarios that were run have passed. -/
def allPassed (results : List (Scenario × Verdict)) : Bool :=
  results.all fun (_, verdict) => verdict.passed

/-- The report on scenarios that were run: a mark for each, how many they are, and whether all of
them passed. -/
def report (results : List (Scenario × Verdict)) : String :=
  String.join (results.map fun (_, verdict) => verdict.mark) ++ "\nRan " ++
    toString results.length ++ " tests\n\n" ++
    (if allPassed results then "OK" else "FAILED") ++ "\n"

end Subleq.SelfCheck
