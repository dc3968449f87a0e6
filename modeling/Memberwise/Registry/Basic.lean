import Memberwise.Registry.Error
import Memberwise.Registry.Subtypes

/-!
# The registry

All definitions of types and tags.  Definitions are kept latest first, so that
behind each stand those that were known when it was made.  From the registry
objects are created, with every field at its initial value.
-/

namespace Memberwise

structure Registry where
  types : List TypeDefinition
  tags : List TagDefinition
  subtypes : SubtypeIndex

namespace Registry

def empty : Registry := ⟨[], [], ⟨[]⟩⟩

instance : Inhabited Registry := ⟨empty⟩

def type? (r : Registry) (name : String) : Option TypeDefinition :=
  r.types.find? (·.name == name)

def typeById? (r : Registry) (id : TypeId) : Option TypeDefinition :=
  r.types.find? (·.id == id)

def typeId? (r : Registry) (name : String) : Option TypeId :=
  (r.type? name).map (·.id)

/-- All types in the order of their numbers. -/
def allTypes (r : Registry) : List TypeDefinition :=
  r.types.reverse

/-- A type and the types that it descends from, itself first; nothing for an
unknown name. -/
def lineage (r : Registry) (name : String) : List TypeDefinition :=
  match r.type? name with
  | some d => d :: d.supertypes.filterMap r.type?
  | none => []

def tag? (r : Registry) (name : String) : Option TagDefinition :=
  r.tags.find? (·.name == name)

/-- All tags in the order of their numbers. -/
def allTags (r : Registry) : List TagDefinition :=
  r.tags.reverse

/-- Whether the tag of the name is enforced by a validator, or by those of its parts. -/
def isConstraint (r : Registry) (t : Tag) : Bool :=
  (r.tag? t.name).any (·.isConstraint)

/-- Whether what is found inside a value on behalf of the tag is reported. -/
def mergesElements (r : Registry) (t : Tag) : Bool :=
  (r.tag? t.name).any (·.mergesElements)

def isSubtype (r : Registry) (sub super : TypeId) : Bool :=
  r.subtypes.isSubtype sub super

/-- Subtyping by name.  An unknown name is never a subtype. -/
def isSubtypeByName (r : Registry) (sub super : String) : Bool :=
  match r.typeId? sub, r.typeId? super with
  | some a, some b => r.isSubtype a b
  | _, _ => false

/-- Whether a slot declared as `target` can hold values declared as `source`. -/
def isAssignable (r : Registry) (target source : ValueType) : Bool :=
  target.isAssignableFrom r.isSubtypeByName source

/-- An empty container of a type, null for a type without one. -/
def emptyContainer (h : Heap) : ValueType → Value × Heap
  | .list element => let (l, h) := h.newList element []; (.list l, h)
  | .map value => let (m, h) := h.newMap value; (.map m, h)
  | .properties => let (p, h) := h.newProperties .empty; (.properties p, h)
  | _ => (.null, h)

/-- What a field holds in a new object. -/
def initialValue (h : Heap) (f : Field) : Value × Heap :=
  match f.initial with
  | some v => (v, h)
  | none => if f.initialized then emptyContainer h f.type else (.null, h)

/-- Writes the initial values of fields in order. -/
def fillSlots (start : Dict Value × Heap) (fields : List Field) : Dict Value × Heap :=
  fields.foldl (fun acc f =>
    let (v, h) := initialValue acc.2 f
    (acc.1.insert f.name v, h)) start

/-- A new object of a type.  The fields of ancestors are written before those
of the types that descend from them, so a field declared again starts as it is
declared nearest to the type. -/
def instantiate (r : Registry) (h : Heap) (name : String) :
    Except RegistryError (ObjectRef × Heap) :=
  match r.type? name with
  | none => .error (.unknownType name)
  | some d =>
    if d.isAbstract then .error (.abstractType name)
    else
      let fields := (r.lineage name).reverse.flatMap (·.fields)
      let (slots, h) := fillSlots (.empty, h) fields
      .ok (h.newObject d.name d.supertypes slots)

end Registry

end Memberwise
