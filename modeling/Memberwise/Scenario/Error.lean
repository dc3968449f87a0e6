import Memberwise.Constraint.Error
import Memberwise.Registry.Error

/-!
# Errors of scenarios
-/

namespace Memberwise

inductive ScenarioError where
  | assertionFailed (step explanation : String)
  /-- The fixture could not be made. -/
  | registry (error : RegistryError)
  | element (error : MemberError)
  | constraint (error : ConstraintError)

def ScenarioError.code : ScenarioError → String
  | assertionFailed .. => "AssertionFailed"
  | registry error => error.code
  | element error => error.code
  | constraint error => error.code

def ScenarioError.message : ScenarioError → String
  | assertionFailed step explanation => "Step '" ++ step ++ "' failed: " ++ explanation
  | registry error => "Fixture error: " ++ error.message
  | element error => error.message
  | constraint error => error.message

instance : Reported ScenarioError := ⟨ScenarioError.code, ScenarioError.message⟩

end Memberwise
