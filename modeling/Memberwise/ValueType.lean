/-!
# Types of values

A `ValueType` is the declared type of a member or the type of a value.  Types
of containers also say which kind of container they describe, and with it how
the members of such a container are found.
-/

namespace Memberwise

/-- Declared or actual type of a value. -/
inductive ValueType where
  /-- Accepts any value. -/
  | any
  | bool
  /-- Signed integers of 64 bits. -/
  | int
  /-- Binary floating point of 64 bits. -/
  | float
  | string
  /-- A sequence with an element type. -/
  | list (element : ValueType)
  /-- A map from strings with a value type. -/
  | map (value : ValueType)
  /-- Structured objects, by the name of their registered type. -/
  | object (name : String)
  /-- A store of string properties. -/
  | properties
  /-- A cursor over rows. -/
  | cursor
  /-- Tag instances, by the name of their definition. -/
  | tag (name : String)
  deriving DecidableEq, Inhabited

/-- The shapes of containers. -/
inductive ContainerKind where
  | object
  | tag
  | sequence
  | map
  | properties
  | cursor
  deriving DecidableEq

namespace ContainerKind

/-- Whether all containers of one type have the same members, so that the
members can be found from the type alone.  Those of the other kinds depend on
the container: on its length, its keys or its columns. -/
def isTypeLevel : ContainerKind → Bool
  | object | tag => true
  | sequence | map | properties | cursor => false

end ContainerKind

namespace ValueType

def containerKind : ValueType → Option ContainerKind
  | object _ => some .object
  | tag _ => some .tag
  | list _ => some .sequence
  | map _ => some .map
  | properties => some .properties
  | cursor => some .cursor
  | any | bool | int | float | string => none

def isContainer (t : ValueType) : Bool :=
  t.containerKind.isSome

/-- The type as messages name it. -/
def display : ValueType → String
  | any => "Any"
  | bool => "Bool"
  | int => "Int"
  | float => "Float"
  | string => "String"
  | list element => "List<" ++ element.display ++ ">"
  | map value => "Map<" ++ value.display ++ ">"
  | object name => name
  | properties => "Properties"
  | cursor => "Cursor"
  | tag name => "@" ++ name

/-- The place of a type's constructor in the order of types. -/
def rank : ValueType → Nat
  | any => 0
  | bool => 1
  | int => 2
  | float => 3
  | string => 4
  | list _ => 5
  | map _ => 6
  | object _ => 7
  | properties => 8
  | cursor => 9
  | tag _ => 10

/-- The order of types: by constructor, then by contents, names as strings. -/
def order : ValueType → ValueType → Ordering
  | list a, list b => order a b
  | map a, map b => order a b
  | object a, object b => compare a b
  | tag a, tag b => compare a b
  | a, b => compare a.rank b.rank

/-- Whether a slot declared with the first type can hold values declared with
the second, where `isSubtype sub super` answers for registered type names.
Integers fit where floats are declared, and containers fit when their element
types are the same or the wanted one is `any`. -/
def isAssignableFrom (isSubtype : String → String → Bool) : ValueType → ValueType → Bool
  | any, _ => true
  | float, int => true
  | list a, list b => a == any || a == b
  | map a, map b => a == any || a == b
  | object a, object b => a == b || isSubtype b a
  | a, b => a == b

theorem isContainer_list (t : ValueType) : (list t).isContainer = true := rfl

theorem isContainer_map (t : ValueType) : (map t).isContainer = true := rfl

theorem isAssignableFrom_any (isSubtype : String → String → Bool) (t : ValueType) :
    any.isAssignableFrom isSubtype t = true := by
  cases t <;> rfl

end ValueType

end Memberwise
