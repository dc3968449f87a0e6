import Memberwise.Constraint.Validator
import Memberwise.Registry.BuiltIn
import Memberwise.Text.Blank

/-!
# Lengths

Bounds for the number of characters of a string and for the size of a
collection, both ends included.
-/

namespace Memberwise.Rule

structure Length where
  min : Int64
  max : Int64
  /-- Leaves out the blanks at both ends of a string. -/
  trims : Bool

namespace Length

/-- The bounds that a tag states; without them every length is right. -/
def ofTag (t : Tag) : Length :=
  ⟨(t.int? "min").getD 0, (t.int? "max").getD Int64.maxValue, (t.bool? "trim").getD false⟩

/-- The length of a value that has one. -/
def measure? (l : Length) (h : Heap) : Value → Option Nat
  | .string s => some (if l.trims then Text.trim s.toList else s.toList).length
  | .list r => some (h.items r).length
  | .map m => some (h.entries m).size
  | .properties p => some (h.propertyDict p).size
  | _ => none

/-- Lengths beyond the greatest integer count as that. -/
def admits (l : Length) (length : Nat) : Bool :=
  let n : Int := Nat.min length Int64.maxValue.toInt.toNat
  l.min.toInt ≤ n && n ≤ l.max.toInt

/-- Judges strings and collections by their length.  Null is valid. -/
def checker (l : Length) : Checker := fun h v =>
  if v.isNull then pure .valid
  else
    match l.measure? h v with
    | some length => pure (.ofBool (l.admits length))
    | none => throw (.unsupportedValue BuiltIn.length v.sortName)

end Length

end Memberwise.Rule
