import Memberwise.Constraint.Rule.Bound
import Memberwise.Constraint.Rule.Inner
import Memberwise.Constraint.Rule.Length
import Memberwise.Constraint.Rule.Presence
import Memberwise.Constraint.Rule.Shape

/-!
# The validators of the built-in tags

Each is registered under the name of its tag, with the types of the members
that the tag may stand on.  Patterns are left to an engine.
-/

namespace Memberwise.Rule

def isNumeric : ValueType → Bool
  | .int | .float | .any => true
  | _ => false

def isText : ValueType → Bool
  | .string | .any => true
  | _ => false

/-- Whether values of the type have a length. -/
def isSized : ValueType → Bool
  | .string | .list _ | .map _ | .properties | .any => true
  | _ => false

/-- Whether values of the type may have members. -/
def isNestable (t : ValueType) : Bool :=
  t == .any || t.isContainer

/-- Whether values of the type have items that may have members. -/
def isIterable : ValueType → Bool
  | .list item | .map item => isNestable item
  | .any => true
  | _ => false

def bound (kind : BoundKind) : Registration :=
  (Registration.ofTag fun t => (Bound.ofTag kind t).map (·.checker)).supporting isNumeric

/-- The built-in registrations by identifier. -/
def builtIn [PatternEngine] : List (String × Registration) :=
  [(BuiltIn.notNull, .always notNull),
   (BuiltIn.notEmpty, (Registration.always notEmpty).supporting isSized),
   (BuiltIn.min, bound .min),
   (BuiltIn.max, bound .max),
   (BuiltIn.length,
    (Registration.ofTag fun t => .ok (Length.ofTag t).checker).supporting isSized),
   (BuiltIn.pattern,
    ((Registration.ofTag fun t => (patternOfTag t).map matching).supporting isText).checking
      fun t => (patternOfTag t).map fun _ => ()),
   (BuiltIn.valid,
    ((Registration.plain fun ctx => pure (valid ctx.engine)).requiring .engine).supporting
      isNestable),
   (BuiltIn.valids,
    ((Registration.plain fun ctx => pure (valids ctx.engine)).requiring .engine).supporting
      isIterable)]

end Memberwise.Rule
