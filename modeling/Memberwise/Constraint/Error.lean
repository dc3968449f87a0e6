import Memberwise.Fault
import Memberwise.ValueType

/-!
# Errors of constraint checking

What can keep a constraint from being checked.  That a value breaks a
constraint is no error; it is reported.
-/

namespace Memberwise

/-- What a validator may need when it is built. -/
inductive Capability where
  /-- The tag that is enforced. -/
  | tag
  /-- The member whose value is checked. -/
  | member
  /-- The container whose member is checked. -/
  | target
  /-- The engine that is running. -/
  | engine
  /-- The factory, to build the validators of other tags. -/
  | factory
  deriving DecidableEq

namespace Capability

def display : Capability → String
  | tag => "tag"
  | member => "member"
  | target => "target"
  | engine => "engine"
  | factory => "factory"

/-- The diagnostic text of a capability. -/
def inspect : Capability → String
  | tag => "Tag"
  | member => "Member"
  | target => "Target"
  | engine => "Engine"
  | factory => "Factory"

end Capability

inductive ConstraintError where
  | unknownTag (name : String)
  /-- A tag names a validator that is not registered. -/
  | unknownValidator (tag validator : String)
  | missingCapability (validator : String) (capability : Capability)
  /-- A tag stands on a member of a type that it cannot be enforced on. -/
  | unsupportedShape (tag member : String) (declaredType : ValueType)
  | unsupportedValue (validator sortName : String)
  | missingParam (tag param : String)
  | invalidPattern (pattern : String)
  | depthExceeded (maxDepth : Nat)
  | element (error : MemberError)

def ConstraintError.code : ConstraintError → String
  | unknownTag .. => "UnknownTag"
  | unknownValidator .. => "UnknownValidator"
  | missingCapability .. => "MissingCapability"
  | unsupportedShape .. => "UnsupportedShape"
  | unsupportedValue .. => "UnsupportedValue"
  | missingParam .. => "MissingParam"
  | invalidPattern .. => "InvalidPattern"
  | depthExceeded .. => "DepthExceeded"
  | element error => "Element(" ++ error.code ++ ")"

def ConstraintError.message : ConstraintError → String
  | unknownTag name => "Unknown tag: @" ++ name
  | unknownValidator tag validator =>
    "Unknown validator '" ++ validator ++ "' declared by @" ++ tag
  | missingCapability validator capability =>
    "Validator '" ++ validator ++ "' requires the " ++ capability.display ++ " capability"
  | unsupportedShape tag member declaredType =>
    "@" ++ tag ++ " does not support " ++ declaredType.display ++ " (member '" ++ member ++ "')"
  | unsupportedValue validator sortName =>
    "Validator '" ++ validator ++ "' cannot check a " ++ sortName ++ " value"
  | missingParam tag param => "@" ++ tag ++ " is missing parameter '" ++ param ++ "'"
  | invalidPattern pattern => "Invalid pattern '" ++ pattern ++ "'"
  | depthExceeded maxDepth => "Nested validation exceeded depth " ++ toString maxDepth
  | element error => error.message

instance : Reported ConstraintError := ⟨ConstraintError.code, ConstraintError.message⟩

instance : Inhabited ConstraintError := ⟨.depthExceeded 0⟩

end Memberwise
