import Memberwise.Reported

/-!
# What can go wrong when a member is accessed

`AccessError` lists the faults of the containers themselves, `MemberError` what
can be wrong with a member or a query for one.  A member that cannot be handled
keeps the cause as a `Fault`: an error of a container, of another member on the
way to it, or the text of a failure from elsewhere.
-/

namespace Memberwise

/-- Faults of containers. -/
inductive AccessError where
  /-- A position outside the current length of a sequence. -/
  | indexOutOfBounds (index length : Nat)
  /-- A value that does not fit where it is to be stored, or a container of a wrong kind. -/
  | typeMismatch (expected actual : String)
  /-- A column number outside `1..=count`. -/
  | columnOutOfRange (ordinal count : Nat)
  | unknownColumn (label : String)
  /-- The cursor stands before the first or after the last row. -/
  | noCurrentRow
  | failed (message : String)
  deriving DecidableEq

def AccessError.code : AccessError → String
  | indexOutOfBounds .. => "IndexOutOfBounds"
  | typeMismatch .. => "TypeMismatch"
  | columnOutOfRange .. => "ColumnOutOfRange"
  | unknownColumn .. => "UnknownColumn"
  | noCurrentRow => "NoCurrentRow"
  | failed .. => "Failed"

def AccessError.message : AccessError → String
  | indexOutOfBounds index length =>
    "Index " ++ toString index ++ " out of bounds for length " ++ toString length
  | typeMismatch expected actual => "Type mismatch: expected " ++ expected ++ ", got " ++ actual
  | columnOutOfRange ordinal count =>
    "Column ordinal " ++ toString ordinal ++ " out of range (1..=" ++ toString count ++ ")"
  | unknownColumn label => "Unknown column: " ++ label
  | noCurrentRow => "Cursor is not positioned on a row"
  | failed message => message

mutual

/-- What can be wrong with a member or a query for one. -/
inductive MemberError where
  | unreadable (name : String)
  | unwritable (name : String)
  /-- An access without a target, through a member that is not bound to one. -/
  | nonSpecific (name : String)
  | handling (name : String) (cause : Fault)
  | unknownType (name : String)
  | ambiguous (count : Nat)
  | notAContainer (typeName : String)

/-- Why a member could not be handled. -/
inductive Fault where
  | access (error : AccessError)
  | member (error : MemberError)
  /-- Any other failure, by its text. -/
  | foreign (text : String)

end

mutual

def MemberError.code : MemberError → String
  | .unreadable .. => "Unreadable"
  | .unwritable .. => "Unwritable"
  | .nonSpecific .. => "NonSpecific"
  | .handling _ cause => "Handling(" ++ cause.code ++ ")"
  | .unknownType .. => "UnknownType"
  | .ambiguous .. => "Ambiguous"
  | .notAContainer .. => "NotAContainer"

def Fault.code : Fault → String
  | .access error => error.code
  | .member error => error.code
  | .foreign _ => "Fault"

end

mutual

def MemberError.message : MemberError → String
  | .unreadable name => "Member '" ++ name ++ "' is not readable"
  | .unwritable name => "Member '" ++ name ++ "' is not writable"
  | .nonSpecific name => "Member '" ++ name ++ "' is not bound to a target"
  | .handling name cause => "Failed to handle member '" ++ name ++ "': " ++ cause.message
  | .unknownType name => "Unknown type: " ++ name
  | .ambiguous count => "Ambiguous query: " ++ toString count ++ " members match"
  | .notAContainer typeName => typeName ++ " values have no members"

def Fault.message : Fault → String
  | .access error => error.message
  | .member error => error.message
  | .foreign text => text

end

instance : Inhabited MemberError := ⟨.ambiguous 0⟩

instance : Reported AccessError := ⟨AccessError.code, AccessError.message⟩

instance : Reported MemberError := ⟨MemberError.code, MemberError.message⟩

instance : Reported Fault := ⟨Fault.code, Fault.message⟩

end Memberwise
