import Memberwise.Registry.Definition

/-!
# Subtypes by number

Which types descend from which, by their numbers.  The index is closed in one
pass over the definitions, since the parents of a type are defined before it.
-/

namespace Memberwise

/-- Every type with the numbers of all types that it descends from, latest first. -/
structure SubtypeIndex where
  rows : List (TypeId × List TypeId)

namespace SubtypeIndex

/-- The numbers of the types that a type descends from. -/
def above (index : SubtypeIndex) (id : TypeId) : List TypeId :=
  (index.rows.lookup id).getD []

/-- The parents of a type and all that those descend from. -/
def closure (index : SubtypeIndex) (parents : List TypeId) : List TypeId :=
  (parents.flatMap fun p => p :: index.above p).eraseDups

/-- The index of definitions in which the latest comes first. -/
def ofTypes : List TypeDefinition → SubtypeIndex
  | [] => ⟨[]⟩
  | d :: older =>
    let index := ofTypes older
    ⟨(d.id, index.closure d.parentIds) :: index.rows⟩

/-- Whether the first type is the second or descends from it. -/
def isSubtype (index : SubtypeIndex) (sub super : TypeId) : Bool :=
  sub == super || (index.above sub).contains super

/-- The types that descend from a type, latest first. -/
def below (index : SubtypeIndex) (id : TypeId) : List TypeId :=
  (index.rows.filter fun row => row.2.contains id).map (·.1)

end SubtypeIndex

end Memberwise
