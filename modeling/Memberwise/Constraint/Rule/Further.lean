import Memberwise.Constraint.Validator

/-!
# Further validators

Registrations that no built-in tag uses: constant ones, ones that look at the
place of the value, and ones that hand the value on to a narrowed run or to the
checker of another tag.
-/

namespace Memberwise.Rule

def accepting : Registration :=
  .always fun _ _ => pure .valid

def rejecting : Registration :=
  .always fun _ _ => pure .invalid

/-- Cannot check any value. -/
def refusing (id : String) : Registration :=
  .always fun _ v => throw (.unsupportedValue id v.sortName)

/-- The name of the member is no valid value for it. -/
def notMemberName : Registration :=
  .plain fun ctx =>
    let name := ctx.member.elim "" (·.name)
    pure fun _ v => pure (.ofBool (v.asString != some name))

/-- The container is no valid value for its own member. -/
def notTarget : Registration :=
  .plain fun ctx =>
    pure fun _ v => pure (.ofBool !(ctx.target.any fun target => v.same target))

/-- The parameter `limit` of a tag. -/
def limitOfTag (t : Tag) : Except ConstraintError Float :=
  match t.number? "limit" with
  | some limit => .ok limit
  | none => .error (.missingParam t.name "limit")

/-- Checks that a tag has a numeric limit. -/
def checkLimit (t : Tag) : Except ConstraintError Unit :=
  (limitOfTag t).map fun _ => ()

/-- Numbers are valid up to the limit that the tag states, other values always. -/
def upTo : Registration :=
  .ofTag fun t => (limitOfTag t).map fun limit _ v =>
    pure (.ofBool (v.asNumber.all fun n => n ≤ limit))

/-- Values are valid while the running engine is above a level. -/
def depthBelow (level : Nat) : Registration :=
  .plain fun ctx => pure fun _ _ => pure (.ofBool (ctx.engine.depth < level))

/-- Validates only the member of a name inside the value. -/
def narrowing (name : String) : Registration :=
  .plain fun ctx => pure fun h v =>
    if v.isContainer then do
      let run ← Query.ofExcept (ctx.engine.nested (some (.named name)))
      return .ofElements (← run h v).elements
    else pure .valid

/-- Asks the checker of another tag, and accepts nothing if that tag is a mark. -/
def delegating (tag : String) : Registration :=
  .plain fun ctx => do
    match ← ctx.create (.plain tag) with
    | some checker => return fun h v => return .ofBool (← checker h v).isValid
    | none => return fun _ _ => pure .invalid

/-- Cannot be built, and says for which context. -/
def describing (id : String) : Registration :=
  .plain fun ctx => throw (.unsupportedValue id ctx.inspect)

/-- Whether members of strings only are meant. -/
def isString (t : ValueType) : Bool :=
  t == .string

/-- No member type is supported. -/
def isUnsupported (_ : ValueType) : Bool :=
  false

end Memberwise.Rule
