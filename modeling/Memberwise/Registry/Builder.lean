import Memberwise.Registry.Basic

/-!
# Building a registry

Definitions are made one after another.  Each takes the next number of its kind
before it is checked, so a definition that fails uses one up and leaves no other
trace.  A tag is brought into normal form where it is declared on a definition:
its parameters are checked against those that its own definition declares, and
missing ones get their defaults.
-/

namespace Memberwise

/-- A type as it is declared, with its parents by name and its tags as written. -/
structure TypeDraft where
  name : String
  parents : List String
  fields : List Field
  accessors : List Accessor
  mutators : List Mutator
  tags : List Tag
  isAbstract : Bool

namespace TypeDraft

def plain (name : String) : TypeDraft :=
  ⟨name, [], [], [], [], [], false⟩

def extending (d : TypeDraft) (parent : String) : TypeDraft :=
  { d with parents := d.parents ++ [parent] }

def withField (d : TypeDraft) (f : Field) : TypeDraft :=
  { d with fields := d.fields ++ [f] }

def withAccessor (d : TypeDraft) (a : Accessor) : TypeDraft :=
  { d with accessors := d.accessors ++ [a] }

def withMutator (d : TypeDraft) (m : Mutator) : TypeDraft :=
  { d with mutators := d.mutators ++ [m] }

/-- A field together with an accessor and a mutator for its slot. -/
def withProperty (d : TypeDraft) (name : String) (type : ValueType) : TypeDraft :=
  ((d.withField (.plain name type)).withAccessor (.ofSlot name type)).withMutator
    (.ofSlot name type)

end TypeDraft

/-- A tag as it is declared, with the tags that it is composed of as written. -/
structure TagDraft where
  name : String
  params : List TagParameter
  validator : Option String
  metaTags : List Tag
  mergesElements : Bool

def TagDraft.plain (name : String) : TagDraft :=
  ⟨name, [], none, [], false⟩

/-- The definitions made so far, latest first, and the next numbers. -/
structure Builder where
  nextTypeId : TypeId
  nextTagId : TagId
  types : List TypeDefinition
  tags : List TagDefinition

namespace Builder

def empty : Builder := ⟨0, 0, [], []⟩

def type? (b : Builder) (name : String) : Option TypeDefinition :=
  b.types.find? (·.name == name)

def tag? (b : Builder) (name : String) : Option TagDefinition :=
  b.tags.find? (·.name == name)

/-- The first name that has occurred before. -/
def firstRepeat (seen : List String) : List String → Option String
  | [] => none
  | n :: rest => if seen.contains n then some n else firstRepeat (n :: seen) rest

def checkUnique (owner : String) (kind : DeclarationKind) (names : List String) :
    Except RegistryError Unit :=
  match firstRepeat [] names with
  | some member => .error (.duplicateMember owner kind member)
  | none => .ok ()

/-- Checks a given parameter: it must be declared, and null is never given. -/
def checkParam (d : TagDefinition) (p : String × Value) : Except RegistryError Unit :=
  match d.param? p.1 with
  | none => .error (.unknownTagParam d.name p.1)
  | some declared =>
    if p.2.isNull || !declared.type.accepts p.2 then
      .error (.invalidTagParam d.name p.1 declared.type p.2.sortName)
    else .ok ()

/-- A declared parameter with the value given for it, else with its default. -/
def fillParam (d : TagDefinition) (t : Tag) (p : TagParameter) :
    Except RegistryError (String × Value) :=
  match t.get? p.name, p.default with
  | some value, _ => .ok (p.name, value)
  | none, some value => .ok (p.name, value)
  | none, none => .error (.missingTagParam d.name p.name)

/-- A tag with exactly the parameters that its definition declares. -/
def normalize (b : Builder) (t : Tag) : Except RegistryError Tag := do
  let d ← match b.tag? t.name with
    | some d => .ok d
    | none => .error (.unknownTag t.name)
  t.params.forM (checkParam d)
  let params ← d.params.mapM (fillParam d t)
  return ⟨d.name, Pairs.ofList params⟩

def normalizeAll (b : Builder) (ts : List Tag) : Except RegistryError (List Tag) :=
  ts.mapM b.normalize

def parent (b : Builder) (name : String) : Except RegistryError TypeDefinition :=
  match b.type? name with
  | some d => .ok d
  | none => .error (.unknownParentType name)

/-- A draft as a definition with a number. -/
def resolveType (b : Builder) (id : TypeId) (d : TypeDraft) :
    Except RegistryError TypeDefinition := do
  if (b.type? d.name).isSome then throw (.duplicateTypeName d.name)
  checkUnique d.name .field (d.fields.map (·.name))
  checkUnique d.name .accessor (d.accessors.map (·.name))
  checkUnique d.name .mutator (d.mutators.map (·.name))
  let parents ← d.parents.mapM b.parent
  let fields ← d.fields.mapM fun f => do return { f with tags := ← b.normalizeAll f.tags }
  let accessors ← d.accessors.mapM fun a => do return { a with tags := ← b.normalizeAll a.tags }
  let mutators ← d.mutators.mapM fun m => do return { m with tags := ← b.normalizeAll m.tags }
  let tags ← b.normalizeAll d.tags
  return {
    id := id
    name := d.name
    parentIds := parents.map (·.id)
    supertypes := distinct (parents.flatMap fun p => p.name :: p.supertypes)
    fields := fields
    accessors := accessors
    mutators := mutators
    tags := tags
    isAbstract := d.isAbstract }

/-- Checks that the default of a parameter fits its type; null always does. -/
def checkDefault (tag : String) (p : TagParameter) : Except RegistryError Unit :=
  match p.default with
  | some value =>
    if p.type.accepts value then .ok ()
    else .error (.invalidTagParam tag p.name p.type value.sortName)
  | none => .ok ()

/-- A draft as a definition with a number. -/
def resolveTag (b : Builder) (id : TagId) (d : TagDraft) :
    Except RegistryError TagDefinition := do
  if (b.tag? d.name).isSome then throw (.duplicateTagName d.name)
  checkUnique d.name .parameter (d.params.map (·.name))
  d.params.forM (checkDefault d.name)
  let metaTags ← b.normalizeAll d.metaTags
  return ⟨id, d.name, d.params, d.validator, metaTags, d.mergesElements⟩

/-- Takes the next number of a type. -/
def reserveType (b : Builder) : TypeId × Builder :=
  (b.nextTypeId, { b with nextTypeId := b.nextTypeId + 1 })

/-- Takes the next number of a tag. -/
def reserveTag (b : Builder) : TagId × Builder :=
  (b.nextTagId, { b with nextTagId := b.nextTagId + 1 })

/-- Defines a type, whose number is used up also if that fails. -/
def addType (b : Builder) (d : TypeDraft) : Except RegistryError TypeId × Builder :=
  let (id, b) := b.reserveType
  match b.resolveType id d with
  | .ok definition => (.ok id, { b with types := definition :: b.types })
  | .error e => (.error e, b)

/-- Defines a tag, whose number is used up also if that fails. -/
def addTag (b : Builder) (d : TagDraft) : Except RegistryError TagId × Builder :=
  let (id, b) := b.reserveTag
  match b.resolveTag id d with
  | .ok definition => (.ok id, { b with tags := definition :: b.tags })
  | .error e => (.error e, b)

/-- The registry of all definitions made. -/
def build (b : Builder) : Registry :=
  ⟨b.types, b.tags, .ofTypes b.types⟩

end Builder

/-- One step of building a registry. -/
inductive Definition where
  | type (draft : TypeDraft)
  | tag (draft : TagDraft)
  /-- A type that was begun and never finished. -/
  | abandonedType
  /-- A tag that was begun and never finished. -/
  | abandonedTag

/-- The builder after one step, and whether the step made a definition. -/
def Builder.declare (b : Builder) : Definition → Bool × Builder
  | .type d => let (answer, b) := b.addType d; (answer.toBool, b)
  | .tag d => let (answer, b) := b.addTag d; (answer.toBool, b)
  | .abandonedType => (false, b.reserveType.2)
  | .abandonedTag => (false, b.reserveTag.2)

def Builder.declareAll (b : Builder) (ds : List Definition) : Builder :=
  ds.foldl (fun b d => (b.declare d).2) b

end Memberwise
