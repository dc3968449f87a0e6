import Memberwise.Scenario.Expectation

/-!
# Scenarios

A scenario is a named sequence of steps over one state.  Each step changes the
state, validates something and states what the outcome must look like; the first
expectation that fails ends the scenario, and the state stays as it is then.
-/

namespace Memberwise

structure ScenarioStep (σ : Type) where
  name : String
  act : σ → Except ConstraintError Report × σ
  expectation : Expectation

structure Scenario (σ : Type) where
  name : String
  steps : List (ScenarioStep σ)

namespace Scenario

variable {σ : Type}

/-- The name under which a step of a scenario is reported. -/
def stepName (scenario step : String) : String :=
  scenario ++ ":" ++ step

/-- Runs steps in order, with the heap that a state has. -/
def runSteps (heapOf : σ → Heap) (scenario : String) :
    List (ScenarioStep σ) → σ → Except ScenarioError Unit × σ
  | [], s => (.ok (), s)
  | step :: rest, s =>
    let (outcome, s) := step.act s
    match step.expectation.verify (heapOf s) (stepName scenario step.name) outcome with
    | .ok () => runSteps heapOf scenario rest s
    | .error e => (.error e, s)

def run (heapOf : σ → Heap) (scenario : Scenario σ) (s : σ) : Except ScenarioError Unit × σ :=
  runSteps heapOf scenario.name scenario.steps s

theorem runSteps_nil (heapOf : σ → Heap) (scenario : String) (s : σ) :
    runSteps heapOf scenario [] s = (.ok (), s) := rfl

end Scenario

end Memberwise
