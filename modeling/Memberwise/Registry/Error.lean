import Memberwise.Reported
import Memberwise.ValueType

/-!
# Errors of definitions
-/

namespace Memberwise

/-- What can be declared twice on one definition. -/
inductive DeclarationKind where
  | field
  | accessor
  | mutator
  | parameter
  deriving DecidableEq

def DeclarationKind.name : DeclarationKind → String
  | field => "field"
  | accessor => "accessor"
  | mutator => "mutator"
  | parameter => "parameter"

inductive RegistryError where
  | duplicateTypeName (name : String)
  | duplicateTagName (name : String)
  | unknownParentType (name : String)
  | duplicateMember (owner : String) (kind : DeclarationKind) (member : String)
  | unknownTag (name : String)
  | unknownTagParam (tag param : String)
  | missingTagParam (tag param : String)
  | invalidTagParam (tag param : String) (expected : ValueType) (actual : String)
  | unknownType (name : String)
  | abstractType (name : String)
  deriving DecidableEq

def RegistryError.code : RegistryError → String
  | duplicateTypeName .. => "DuplicateTypeName"
  | duplicateTagName .. => "DuplicateTagName"
  | unknownParentType .. => "UnknownParentType"
  | duplicateMember .. => "DuplicateMember"
  | unknownTag .. => "UnknownTag"
  | unknownTagParam .. => "UnknownTagParam"
  | missingTagParam .. => "MissingTagParam"
  | invalidTagParam .. => "InvalidTagParam"
  | unknownType .. => "UnknownType"
  | abstractType .. => "AbstractType"

def RegistryError.message : RegistryError → String
  | duplicateTypeName name => "Duplicate type name: " ++ name
  | duplicateTagName name => "Duplicate tag name: " ++ name
  | unknownParentType name => "Unknown parent type: " ++ name
  | duplicateMember owner kind member =>
    "Duplicate " ++ kind.name ++ " '" ++ member ++ "' on " ++ owner
  | unknownTag name => "Unknown tag: @" ++ name
  | unknownTagParam tag param => "Unknown parameter '" ++ param ++ "' on @" ++ tag
  | missingTagParam tag param => "Missing required parameter '" ++ param ++ "' on @" ++ tag
  | invalidTagParam tag param expected actual =>
    "Parameter '" ++ param ++ "' on @" ++ tag ++ " expects " ++ expected.display ++
      ", got " ++ actual
  | unknownType name => "Unknown type: " ++ name
  | abstractType name => "Cannot instantiate abstract type: " ++ name

instance : Reported RegistryError := ⟨RegistryError.code, RegistryError.message⟩

end Memberwise
