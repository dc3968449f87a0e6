import Memberwise.Constraint.Rule.BuiltIn
import Memberwise.Constraint.Rule.Conjunction

/-!
# From tags to checkers

A tag whose definition names a validator is enforced by the checker that is
registered for it, a tag composed of others by the conjunction of theirs, and
any other tag is a mark without a checker.  Definitions stand latest first and
are composed of older ones only, so the parts of a tag are looked up behind it;
that is why composition ends.
-/

namespace Memberwise

structure Factory where
  catalog : CatalogRef
  registrations : Dict Registration

namespace Factory

/-- The factory of a catalog with the built-in validators. -/
def ofCatalog [PatternEngine] (d : CatalogRef) : Factory :=
  ⟨d, .ofList Rule.builtIn⟩

/-- Registers a validator, in place of one of the same identifier. -/
def register (f : Factory) (id : String) (r : Registration) : Factory :=
  { f with registrations := f.registrations.insert id r }

/-- The registration for the validator that a tag names. -/
def registration (f : Factory) (t : Tag) (id : String) : Except ConstraintError Registration :=
  match f.registrations.get? id with
  | some r => .ok r
  | none => .error (.unknownValidator t.name id)

/-- Builds the checker of an identifier, if the context provides what it requires. -/
def construct (f : Factory) (ctx : Context) (id : String) : Query ConstraintError Checker := do
  let r ← Query.ofExcept (f.registration ctx.tag id)
  match r.requires.find? fun c => !ctx.provides c with
  | some missing => throw (.missingCapability id missing)
  | none => r.build ctx

/-- The checker of a tag, by definitions with the latest first. -/
def resolveAmong (f : Factory) (ctx : Context) :
    List TagDefinition → Tag → Query ConstraintError (Option Checker)
  | [], t => throw (.unknownTag t.name)
  | d :: older, t =>
    if d.name == t.name then
      match d.validator with
      | some id => return some (← f.construct (ctx.withTag t) id)
      | none =>
        if d.isComposite then do
          let parts ← d.metaTags.mapM fun part => resolveAmong f ctx older part
          return some (Rule.all (parts.filterMap id))
        else pure none
    else resolveAmong f ctx older t

/-- The checker for the tag of a context, none for a mark. -/
def resolve (f : Factory) (ctx : Context) : Query ConstraintError (Option Checker) := do
  let r ← Query.registry f.catalog
  f.resolveAmong ctx r.tags ctx.tag

/-- Checks that a tag can be enforced on a member, by definitions with the latest first. -/
def checkAmong (f : Factory) (memberName : String) (declaredType : ValueType) :
    List TagDefinition → Tag → Except ConstraintError Unit
  | [], t => throw (.unknownTag t.name)
  | d :: older, t =>
    if d.name == t.name then
      match d.validator with
      | some id => do
        let r ← f.registration t id
        if r.supports.any fun supports => !supports declaredType then
          throw (.unsupportedShape t.name memberName declaredType)
        match r.checkTag with
        | some check => check t
        | none => pure ()
      | none => d.metaTags.forM fun part => checkAmong f memberName declaredType older part
    else checkAmong f memberName declaredType older t

/-- Checks that a tag can be enforced on a member of a declared type. -/
def check (f : Factory) (r : Registry) (t : Tag) (memberName : String)
    (declaredType : ValueType) : Except ConstraintError Unit :=
  f.checkAmong memberName declaredType r.tags t

/-- The diagnostic text of a factory. -/
def inspect (f : Factory) : String :=
  Text.record "ValidatorFactory"
    [("validators", Text.listed (f.registrations.keys.map Text.quoted))] true

end Factory

end Memberwise
