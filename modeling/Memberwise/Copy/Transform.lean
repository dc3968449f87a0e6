import Memberwise.Copy.Basic

/-!
# Ready-made transforms
-/

namespace Memberwise.Transform

/-- Strings in ASCII upper case. -/
def upper : Transform := fun _ v =>
  match v with
  | .string s => .string s.toUpper
  | other => other

def toNull : Transform := fun _ _ => .null

/-- Everything as its text. -/
def text : Transform := fun h v => .string (v.display h)

/-- Integers plus one, the greatest being followed by the least. -/
def increment : Transform := fun _ v =>
  match v with
  | .int i => .int (i + 1)
  | other => other

def same : Transform := fun _ v => v

/-- Lets pairs pass whose value is not null. -/
def nonNull (c : CopyCandidate) : Bool := !c.value.isNull

end Memberwise.Transform
