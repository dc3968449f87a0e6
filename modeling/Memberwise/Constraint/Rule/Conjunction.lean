import Memberwise.Constraint.Validator

/-!
# Conjunctions

Several checkers in order: the first verdict that is not valid counts.
-/

namespace Memberwise.Rule

/-- Judges by all of some checkers; those behind the first verdict that is not
valid are not asked. -/
def all : List Checker → Checker
  | [], _, _ => pure .valid
  | c :: rest, h, v => do
    let verdict ← c h v
    if verdict.isValid then all rest h v else return verdict

theorem all_nil (h : Heap) (v : Value) : all [] h v = pure .valid := rfl

theorem all_cons (c : Checker) (rest : List Checker) (h : Heap) (v : Value) :
    all (c :: rest) h v = do
      let verdict ← c h v
      if verdict.isValid then all rest h v else return verdict := rfl

end Memberwise.Rule
