import Memberwise.Member.Template
import Memberwise.Registry.Basic

/-!
# Members of objects

An object has one member for each name that its type declares.  The member is
read through the accessor of the name, else from the field, and written through
the mutator, else into the field unless that is read-only.  Where inherited
declarations count too, each of the three is the nearest one along the lineage,
so a mutator of a subtype pairs with an inherited accessor.
-/

namespace Memberwise

/-- A declaration with its owner and the owner's place in the lineage. -/
structure Declared (α : Type) where
  depth : Nat
  owner : String
  declaration : α

/-- The nearest declaration along a lineage. -/
def nearest? {α : Type} (pick : TypeDefinition → Option α) :
    List TypeDefinition → Option (Declared α)
  | [] => none
  | d :: ancestors =>
    match pick d with
    | some x => some ⟨0, d.name, x⟩
    | none => (nearest? pick ancestors).map fun found => { found with depth := found.depth + 1 }

/-- The owner with the least depth, the first of several. -/
def nearestOwner? (owners : List (Nat × String)) : Option String :=
  let closer (best : Option (Nat × String)) (next : Nat × String) :=
    match best with
    | some b => if next.1 < b.1 then some next else some b
    | none => some next
  (owners.foldl closer none).map (·.2)

/-- The tags of a list, each name at its first place. -/
def distinctTags (tags : List Tag) : List Tag :=
  tags.foldl (fun acc t => if acc.any (·.name == t.name) then acc else acc ++ [t]) []

/-- What a lineage declares under one name. -/
structure Declarations where
  field : Option (Declared Field)
  accessor : Option (Declared Accessor)
  mutator : Option (Declared Mutator)

namespace Declarations

def along (lineage : List TypeDefinition) (name : String) : Declarations :=
  ⟨nearest? (·.field? name) lineage, nearest? (·.accessor? name) lineage,
   nearest? (·.mutator? name) lineage⟩

def reader (d : Declarations) : Option Getter :=
  match d.accessor, d.field with
  | some a, _ => some a.declaration.getter
  | none, some f => some (Getter.slot f.declaration.name)
  | none, none => none

/-- The write path and the type that it accepts. -/
def writer (d : Declarations) : Option (Setter × ValueType) :=
  match d.mutator, d.field with
  | some m, _ => some (m.declaration.setter, m.declaration.accepts)
  | none, some f =>
    if f.declaration.readOnly then none
    else some (Setter.slot f.declaration.name, f.declaration.type)
  | none, none => none

def declaredType (d : Declarations) : ValueType :=
  match d.accessor, d.field, d.mutator with
  | some a, _, _ => a.declaration.returns
  | none, some f, _ => f.declaration.type
  | none, none, some m => m.declaration.accepts
  | none, none, none => .any

/-- The type that the member is reported under. -/
def declaringName (d : Declarations) : String :=
  match d.accessor, d.field, d.mutator with
  | some a, _, _ => a.owner
  | none, some f, _ => f.owner
  | none, none, some m => m.owner
  | none, none, none => ""

/-- The type that the object must be an instance of: the most derived one that
contributes a declaration. -/
def instanceName (d : Declarations) : String :=
  let owners :=
    (d.field.map fun f => (f.depth, f.owner)).toList ++
    (d.accessor.map fun a => (a.depth, a.owner)).toList ++
    (d.mutator.map fun m => (m.depth, m.owner)).toList
  (nearestOwner? owners).getD d.declaringName

/-- The tags of the field, then the accessor's, then the mutator's, of each
name the first. -/
def tags (d : Declarations) : List Tag :=
  distinctTags
    ((d.field.elim [] (·.declaration.tags)) ++ (d.accessor.elim [] (·.declaration.tags)) ++
      (d.mutator.elim [] (·.declaration.tags)))

/-- The member that the declarations make up together. -/
def merge (d : Declarations) (name : String) : Template where
  name := name
  declaredType := d.declaredType
  declaringType := .object d.declaringName
  readable := d.reader.isSome
  writable := d.writer.isSome
  tags := d.tags
  access := .object d.instanceName d.reader d.writer

end Declarations

/-- The members that a lineage declares, in its order. -/
def membersAlong (lineage : List TypeDefinition) : List Template :=
  (distinct (lineage.flatMap (·.memberNames))).map fun name =>
    (Declarations.along lineage name).merge name

/-- The members of a registered type, with the inherited ones if `deep`. -/
def discoverObject (r : Registry) (typeName : String) (deep : Bool) :
    Except MemberError (List Template) :=
  match r.type? typeName with
  | some d => .ok (membersAlong (if deep then r.lineage typeName else [d]))
  | none => .error (.unknownType typeName)

end Memberwise
