import Memberwise.Constraint.Error
import Memberwise.Constraint.Report
import Memberwise.Member.Predicate
import Memberwise.Text.Layout
import Memberwise.Text.Quoted

/-!
# Validators

A checker judges values on behalf of one tag.  It is built for a context, which
says what tag it enforces and on which member, and through which it may start
the running engine anew on a value inside the one that it judges.  A
registration says how the checkers of one identifier are built.
-/

namespace Memberwise

inductive Verdict where
  | valid
  | invalid
  /-- Invalid, because of what was found inside the value; paths start there. -/
  | nested (elements : List InvalidElement)

namespace Verdict

def isValid : Verdict → Bool
  | valid => true
  | invalid | nested _ => false

def ofBool (valid : Bool) : Verdict :=
  if valid then .valid else .invalid

/-- Nested, if anything was found. -/
def ofElements : List InvalidElement → Verdict
  | [] => valid
  | es => nested es

/-- What was found inside the value. -/
def elements : Verdict → List InvalidElement
  | valid | invalid => []
  | nested es => es

theorem isValid_ofBool (b : Bool) : (ofBool b).isValid = b := by
  cases b <;> rfl

theorem elements_ofBool (b : Bool) : (ofBool b).elements = [] := by
  cases b <;> rfl

theorem isValid_ofElements (es : List InvalidElement) : (ofElements es).isValid = es.isEmpty := by
  cases es <;> rfl

theorem elements_ofElements (es : List InvalidElement) : (ofElements es).elements = es := by
  cases es <;> rfl

end Verdict

/-- Judges a value. -/
abbrev Checker := Heap → Value → Query ConstraintError Verdict

/-- Validates a container. -/
abbrev Run := Heap → Value → Query ConstraintError Report

/-- The engine that is running, as validators see it. -/
structure Running where
  catalog : CatalogRef
  filter : Option MemberPredicate
  depth : Nat
  /-- The run one level further down under a filter, if that is not too deep. -/
  nested : Option MemberPredicate → Except ConstraintError Run

/-- The run one level further down, under the filter of the running engine. -/
def Running.descend (e : Running) : Except ConstraintError Run :=
  e.nested e.filter

/-- What is at hand when a checker is built. -/
structure Context where
  tag : Tag
  member : Option Member
  /-- The container whose member is checked. -/
  target : Option Value
  engine : Running
  /-- Builds the checker of another tag, none for a mere mark. -/
  create : Tag → Query ConstraintError (Option Checker)

namespace Context

def provides (ctx : Context) : Capability → Bool
  | .tag | .engine | .factory => true
  | .member => ctx.member.isSome
  | .target => ctx.target.isSome

/-- The context of another tag in the same place. -/
def withTag (ctx : Context) (t : Tag) : Context :=
  { ctx with tag := t }

/-- The diagnostic text of a context. -/
def inspect (ctx : Context) : String :=
  Text.record "ValidatorContext"
    [("tag", Text.quoted ctx.tag.name),
     ("member", Text.optional (ctx.member.map fun m => Text.quoted m.name)),
     ("target", Text.optional (ctx.target.map fun v => Text.quoted v.sortName))] false

end Context

/-- How the checkers of one identifier are built. -/
structure Registration where
  requires : List Capability
  /-- The member types that its tags may stand on; all without it. -/
  supports : Option (ValueType → Bool)
  /-- What is checked of its tags before anything is validated. -/
  checkTag : Option (Tag → Except ConstraintError Unit)
  build : Context → Query ConstraintError Checker

namespace Registration

def plain (build : Context → Query ConstraintError Checker) : Registration :=
  ⟨[], none, none, build⟩

/-- The checker is the same in every context. -/
def always (c : Checker) : Registration :=
  plain fun _ => pure c

/-- The checker follows from the tag alone. -/
def ofTag (build : Tag → Except ConstraintError Checker) : Registration :=
  plain fun ctx => Query.ofExcept (build ctx.tag)

/-- Requires a capability; it is listed once. -/
def requiring (r : Registration) (c : Capability) : Registration :=
  if r.requires.contains c then r else { r with requires := r.requires ++ [c] }

def supporting (r : Registration) (supports : ValueType → Bool) : Registration :=
  { r with supports := some supports }

def checking (r : Registration) (check : Tag → Except ConstraintError Unit) : Registration :=
  { r with checkTag := some check }

/-- The diagnostic text of a registration. -/
def inspect (r : Registration) : String :=
  Text.record "ValidatorRegistration"
    [("requires", Text.listed (r.requires.map Capability.inspect)),
     ("supports", Text.truth r.supports.isSome),
     ("check_tag", Text.truth r.checkTag.isSome)] false

end Registration

end Memberwise
