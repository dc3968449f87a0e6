import Memberwise.Constraint.Validator
import Memberwise.Registry.BuiltIn

/-!
# Numeric bounds

A lower or upper limit for numbers.  Numbers within `delta` of the limit count
as equal to it.  All numbers are compared as floats.
-/

namespace Memberwise.Rule

inductive BoundKind where
  | min
  | max
  deriving DecidableEq

/-- The name of the built-in tag of a kind of bound. -/
def BoundKind.name : BoundKind → String
  | min => BuiltIn.min
  | max => BuiltIn.max

structure Bound where
  kind : BoundKind
  limit : Float
  delta : Float
  inclusive : Bool

namespace Bound

/-- The exact bound that the limit itself satisfies. -/
def exact (kind : BoundKind) (limit : Float) : Bound :=
  ⟨kind, limit, 0, true⟩

def withDelta (b : Bound) (delta : Float) : Bound :=
  { b with delta := delta.abs }

def exclusive (b : Bound) : Bound :=
  { b with inclusive := false }

/-- The bound that a tag states; the limit cannot be left out. -/
def ofTag (kind : BoundKind) (t : Tag) : Except ConstraintError Bound :=
  match t.number? "value" with
  | some limit =>
    .ok ⟨kind, limit, ((t.number? "delta").getD 0).abs, (t.bool? "inclusive").getD true⟩
  | none => .error (.missingParam t.name "value")

def admits (b : Bound) (n : Float) : Bool :=
  if (n - b.limit).abs ≤ b.delta then b.inclusive
  else
    match b.kind with
    | .min => n > b.limit
    | .max => n < b.limit

/-- Judges numbers by the bound.  Null is valid. -/
def checker (b : Bound) : Checker := fun _ v =>
  if v.isNull then pure .valid
  else
    match v.asNumber with
    | some n => pure (.ofBool (b.admits n))
    | none => throw (.unsupportedValue b.kind.name v.sortName)

end Bound

end Memberwise.Rule
