import Memberwise.Constraint.PatternEngine
import Memberwise.Constraint.Validator
import Memberwise.Registry.BuiltIn

/-!
# Shapes of strings

A pattern has to occur in a string between both of its ends.
-/

namespace Memberwise.Rule

/-- A pattern as a part between both ends of a text.  One that closes the part itself
has alternatives that are free of them, so that `a)|(?:b` occurs wherever `a` starts
a text or `b` ends one. -/
def anchored (text : String) : String :=
  "^(?:" ++ text ++ ")$"

variable [PatternEngine]

/-- The pattern of a text, between the ends of strings. -/
def readPattern (text : String) : Except ConstraintError PatternEngine.Compiled :=
  match PatternEngine.read? (anchored text) with
  | some p => .ok p
  | none => .error (.invalidPattern text)

/-- The pattern that a tag states. -/
def patternOfTag (t : Tag) : Except ConstraintError PatternEngine.Compiled :=
  match t.string? "regex" with
  | some text => readPattern text
  | none => .error (.missingParam t.name "regex")

/-- Judges strings by a pattern.  Null is valid. -/
def matching (p : PatternEngine.Compiled) : Checker := fun _ v =>
  match v with
  | .null => pure .valid
  | .string s => pure (.ofBool (PatternEngine.occursIn p s))
  | other => throw (.unsupportedValue BuiltIn.pattern other.sortName)

end Memberwise.Rule
