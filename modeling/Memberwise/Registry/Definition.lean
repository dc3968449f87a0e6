import Memberwise.Display

/-!
# Definitions

What a registry knows of a type of objects and of a tag.  A type has fields,
which are slots of its objects, and accessors and mutators, which read and
write under a name of their own.  A tag has typed parameters; it is enforced by
a validator, or composed of other tags, or only a mark.

Accessors and mutators are code from elsewhere.  Here they are functions of the
heap and of the slots of an object, so that reading changes nothing, and writing
changes the slots of the one object or, if it fails, nothing.  They do not see of
what type the object is and cannot make it one of another; what copies have to do
with code that does all that is told of a `CopySetting`.
-/

namespace Memberwise

/-- Reads a value out of the slots of an object, or fails.  The heap serves to look
into the containers that slots refer to. -/
abbrev Getter := Heap → Dict Value → Except Fault Value

/-- The slots of an object after a value has been written into them, or why it
was refused.  Other containers stay as they are. -/
abbrev Setter := Heap → Dict Value → Value → Except Fault (Dict Value)

namespace Getter

/-- Reads a slot, null if it was never written. -/
def slot (name : String) : Getter := fun _ slots =>
  .ok ((slots.get? name).getD .null)

/-- Reads the text of a slot's value, behind a given text. -/
def slotText (lead name : String) : Getter := fun h slots =>
  .ok (.string (lead ++ ((slots.get? name).getD .null).display h))

def const (value : Value) : Getter := fun _ _ => .ok value

def failing (message : String) : Getter := fun _ _ => .error (.access (.failed message))

end Getter

namespace Setter

def slot (name : String) : Setter := fun _ slots value =>
  .ok (slots.insert name value)

def failing (text : String) : Setter := fun _ _ _ => .error (.foreign text)

end Setter

/-- A slot declared on a type. -/
structure Field where
  name : String
  type : ValueType
  tags : List Tag
  readOnly : Bool
  initial : Option Value
  /-- Whether a container field starts as an empty container of its own. -/
  initialized : Bool

def Field.plain (name : String) (type : ValueType) : Field :=
  ⟨name, type, [], false, none, false⟩

/-- A read path under a name. -/
structure Accessor where
  name : String
  returns : ValueType
  tags : List Tag
  getter : Getter

/-- The accessor that reads the slot of its name. -/
def Accessor.ofSlot (name : String) (returns : ValueType) : Accessor :=
  ⟨name, returns, [], Getter.slot name⟩

/-- A write path under a name. -/
structure Mutator where
  name : String
  accepts : ValueType
  tags : List Tag
  setter : Setter

/-- The mutator that writes the slot of its name. -/
def Mutator.ofSlot (name : String) (accepts : ValueType) : Mutator :=
  ⟨name, accepts, [], Setter.slot name⟩

/-- The number of a type.  Numbers are given out one after another without an end; those of
32 bits would serve for 2 ^ 32 definitions. -/
abbrev TypeId := Nat

/-- The number of a tag, without an end like those of types. -/
abbrev TagId := Nat

/-- The names of a list, each at its first place. -/
def distinct (names : List String) : List String :=
  names.foldl (fun acc n => if acc.contains n then acc else acc ++ [n]) []

structure TypeDefinition where
  id : TypeId
  name : String
  parentIds : List TypeId
  /-- The names of all types that this one descends from. -/
  supertypes : List String
  fields : List Field
  accessors : List Accessor
  mutators : List Mutator
  tags : List Tag
  isAbstract : Bool

namespace TypeDefinition

def field? (d : TypeDefinition) (name : String) : Option Field :=
  d.fields.find? (·.name == name)

def accessor? (d : TypeDefinition) (name : String) : Option Accessor :=
  d.accessors.find? (·.name == name)

def mutator? (d : TypeDefinition) (name : String) : Option Mutator :=
  d.mutators.find? (·.name == name)

/-- The names of the type's own members: those of fields first, then those that
only an accessor has, then those that only a mutator has. -/
def memberNames (d : TypeDefinition) : List String :=
  distinct (d.fields.map (·.name) ++ d.accessors.map (·.name) ++ d.mutators.map (·.name))

def isA (d : TypeDefinition) (name : String) : Bool :=
  d.name == name || d.supertypes.any (· == name)

def hasTag (d : TypeDefinition) (name : String) : Bool :=
  d.tags.any (·.name == name)

end TypeDefinition

/-- A parameter of a tag.  Without a default it must be given wherever the tag is used. -/
structure TagParameter where
  name : String
  type : ValueType
  default : Option Value

structure TagDefinition where
  id : TagId
  name : String
  params : List TagParameter
  /-- The validator that enforces the tag. -/
  validator : Option String
  /-- The tags that the tag is composed of. -/
  metaTags : List Tag
  /-- Whether what the validator finds inside a value is reported too. -/
  mergesElements : Bool

namespace TagDefinition

def param? (d : TagDefinition) (name : String) : Option TagParameter :=
  d.params.find? (·.name == name)

def isComposite (d : TagDefinition) : Bool :=
  !d.metaTags.isEmpty

/-- Whether the tag is more than a mark. -/
def isConstraint (d : TagDefinition) : Bool :=
  d.validator.isSome || d.isComposite

end TagDefinition

end Memberwise
