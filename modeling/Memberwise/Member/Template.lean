import Memberwise.Registry.Definition

/-!
# Member templates

What is known of a member before it is tied to a container: its name, types,
capabilities and tags, and how it is read and written.  A template works on
every container that has the member.

The ways of access are listed in `Access`, one for each kind of container.  Each
checks that it was given a container of its kind, and reading or writing
through a list, map or property store is left to the container's own rules.
-/

namespace Memberwise

/-- Everything that is stated about a member. -/
structure Descriptor where
  name : String
  declaredType : ValueType
  declaringType : ValueType
  readable : Bool
  writable : Bool
  tags : List Tag

namespace Descriptor

/-- The first tag of a name. -/
def tag? (d : Descriptor) (name : String) : Option Tag :=
  d.tags.find? (·.name == name)

def hasTag (d : Descriptor) (name : String) : Bool :=
  (d.tag? name).isSome

end Descriptor

/-- A place in a list.  The two ends are looked up at every access. -/
inductive Position where
  | nth (index : Nat)
  | first
  | last
  deriving DecidableEq

/-- The index of a place in a list of some length. -/
def Position.index (p : Position) (length : Nat) : Except AccessError Nat :=
  match p with
  | nth index => .ok index
  | first => if length = 0 then .error (.indexOutOfBounds 0 0) else .ok 0
  | last => if length = 0 then .error (.indexOutOfBounds 0 0) else .ok (length - 1)

/-- A column of a cursor, by its number from one on or by its label. -/
inductive Column where
  | ordinal (n : Nat)
  | label (text : String)
  deriving DecidableEq

/-- How a member is read from and written to its container. -/
inductive Access where
  /-- Through the paths of an object, which must be an instance of a type.  A
  write path comes with the type that it accepts. -/
  | object (instanceType : String) (reader : Option Getter) (writer : Option (Setter × ValueType))
  | param (name : String)
  | index (position : Position)
  | key (name : String)
  | property (name : String)
  | column (column : Column)

namespace Access

/-- The error of an access to a value that is not a container of the wanted sort. -/
def wrongSort (wanted : String) (target : Value) : Fault :=
  .access (.typeMismatch wanted target.sortName)

/-- The error of an access to a value that is not an object of the wanted type. -/
def wrongObject (typeName : String) (target : Value) : Fault :=
  .access (.typeMismatch typeName target.type.display)

def readObject (h : Heap) (typeName : String) (reader : Option Getter) (target : Value) :
    Except Fault Value :=
  match target with
  | .object o =>
    if o.isA typeName then
      match reader with
      | some getter => getter h (h.slots o)
      | none => .error (.access (.failed "no read path"))
    else .error (wrongObject typeName target)
  | _ => .error (wrongObject typeName target)

/-- Writes through an object's write path, after a check of the value's type. -/
def writeObject (h : Heap) (typeName : String) (writer : Option (Setter × ValueType))
    (target value : Value) : Except Fault Heap :=
  match target with
  | .object o =>
    if o.isA typeName then
      match writer with
      | some (setter, type) =>
        if type.accepts value then
          (setter h (h.slots o) value).map (h.setSlots o)
        else .error (.access (Heap.mismatch type value))
      | none => .error (.access (.failed "no write path"))
    else .error (wrongObject typeName target)
  | _ => .error (wrongObject typeName target)

def readItem (h : Heap) (position : Position) (target : Value) : Except Fault Value :=
  match target with
  | .list l =>
    ((position.index (h.items l).length).bind (h.item l)).mapError .access
  | _ => .error (wrongSort "List" target)

def writeItem (h : Heap) (position : Position) (target value : Value) : Except Fault Heap :=
  match target with
  | .list l =>
    ((position.index (h.items l).length).bind fun i => h.setItem l i value).mapError .access
  | _ => .error (wrongSort "List" target)

/-- A property reads as its text, a missing one as null. -/
def readProperty (h : Heap) (name : String) (target : Value) : Except Fault Value :=
  match target with
  | .properties p => .ok ((h.property? p name).elim .null .string)
  | _ => .error (wrongSort "Properties" target)

/-- Writing null removes a property. -/
def writeProperty (h : Heap) (name : String) (target value : Value) : Except Fault Heap :=
  match target, value with
  | .properties p, .string text => .ok (h.setProperty p name text)
  | .properties p, .null => .ok (h.eraseProperty p name)
  | .properties _, other => .error (wrongSort "String" other)
  | _, _ => .error (wrongSort "Properties" target)

def readColumn (h : Heap) (column : Column) (target : Value) : Except Fault Value :=
  match target with
  | .cursor c =>
    match column with
    | .ordinal n => (h.cursor c).byOrdinal n
    | .label text => (h.cursor c).byLabel text
  | _ => .error (wrongSort "Cursor" target)

def read (h : Heap) (a : Access) (target : Value) : Except Fault Value :=
  match a with
  | object typeName reader _ => readObject h typeName reader target
  | param name =>
    match target with
    | .tag t => .ok ((t.get? name).getD .null)
    | _ => .error (wrongSort "Tag" target)
  | index position => readItem h position target
  | key name =>
    match target with
    | .map m => .ok (h.entry m name)
    | _ => .error (wrongSort "Map" target)
  | property name => readProperty h name target
  | column c => readColumn h c target

def write (h : Heap) (a : Access) (target value : Value) : Except Fault Heap :=
  match a with
  | object typeName _ writer => writeObject h typeName writer target value
  | param _ => .error (.access (.failed "tag parameters are read-only"))
  | index position => writeItem h position target value
  | key name =>
    match target with
    | .map m => (h.insertEntry m name value).mapError .access
    | _ => .error (wrongSort "Map" target)
  | property name => writeProperty h name target value
  | column _ => .error (.access (.failed "cursor columns are read-only"))

end Access

/-- A member that is not tied to a container. -/
structure Template extends Descriptor where
  access : Access

namespace Template

/-- Reads the member of a container. -/
def read (h : Heap) (t : Template) (target : Value) : Except MemberError Value :=
  if t.readable then (t.access.read h target).mapError (.handling t.name)
  else .error (.unreadable t.name)

/-- Writes the member of a container. -/
def write (h : Heap) (t : Template) (target value : Value) : Except MemberError Heap :=
  if t.writable then (t.access.write h target value).mapError (.handling t.name)
  else .error (.unwritable t.name)

end Template

end Memberwise
