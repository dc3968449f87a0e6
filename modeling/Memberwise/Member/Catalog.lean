import Memberwise.Member.Lookup

/-!
# Members of types and of containers

The members that a catalog finds, as templates.  Those of objects and tags come
through the member cache; those of the other containers are looked up in the
container each time, and their types have no members of their own.
-/

namespace Memberwise

namespace CatalogRef

/-- Asks for the members of a type of objects or tags. -/
def ask (d : CatalogRef) (type : ValueType) (deep : Bool) : Query MemberError (List Template) :=
  ExceptT.mk (.members d ⟨type, deep⟩ .done)

theorem answer_ask (registryOf : CatalogRef → Registry) (d : CatalogRef) (type : ValueType)
    (deep : Bool) :
    (d.ask type deep).answer registryOf = discoverType (registryOf d) type deep := rfl

/-- The members of a type, in order. -/
def templatesOfType (d : CatalogRef) (type : ValueType) (deep : Bool) :
    Query MemberError (List Template) :=
  match type.containerKind with
  | some kind => if kind.isTypeLevel then d.ask type deep else pure []
  | none => throw (.notAContainer type.display)

/-- One member of a type, by name. -/
def templateOfType? (d : CatalogRef) (type : ValueType) (name : String) (deep : Bool) :
    Query MemberError (Option Template) :=
  match type.containerKind with
  | some kind =>
    if kind.isTypeLevel then return atPlaceOf? (← d.ask type deep) name
    else pure (typeTemplate? type name)
  | none => throw (.notAContainer type.display)

/-- The members of a container, in order. -/
def templatesOf (d : CatalogRef) (h : Heap) (target : Value) (deep : Bool) :
    Query MemberError (List Template) :=
  match target.containerKind with
  | some kind =>
    if kind.isTypeLevel then d.ask target.type deep
    else Query.ofExcept (discoverInstance h target)
  | none => throw (.notAContainer target.sortName)

/-- One member of a container, by name. -/
def templateOf? (d : CatalogRef) (h : Heap) (target : Value) (name : String) (deep : Bool) :
    Query MemberError (Option Template) :=
  match target.containerKind with
  | some kind =>
    if kind.isTypeLevel then return atPlaceOf? (← d.ask target.type deep) name
    else Query.ofExcept (findInstance h target name)
  | none => throw (.notAContainer target.sortName)

end CatalogRef

end Memberwise
