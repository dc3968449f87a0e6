import Memberwise.Constraint.Validator
import Memberwise.Registry.BuiltIn

/-!
# Presence

Values must be there, and strings and collections must have something in them.
-/

namespace Memberwise.Rule

/-- Null is invalid, all else valid. -/
def notNull : Checker := fun _ v =>
  pure (.ofBool !v.isNull)

/-- Whether a value has nothing in it, where that can be said; null does not count as empty. -/
def isEmpty? (h : Heap) : Value → Option Bool
  | .null => some false
  | .string s => some s.toList.isEmpty
  | .list l => some (h.items l).isEmpty
  | .map m => some (h.entries m).pairs.isEmpty
  | .properties p => some (h.propertyDict p).pairs.isEmpty
  | _ => none

/-- Empty strings and collections are invalid. -/
def notEmpty : Checker := fun h v =>
  match isEmpty? h v with
  | some empty => pure (.ofBool !empty)
  | none => throw (.unsupportedValue BuiltIn.notEmpty v.sortName)

end Memberwise.Rule
