import Memberwise.Dict
import Memberwise.ValueType

/-!
# Values

What members read and write: scalars, tag instances and references to
containers.  A reference names its container by number and carries what never
changes about it, its type; the contents are in the heap.  So the type of a
value, and whether a slot accepts it, are known from the value alone.

Values are compared by `same`: scalars and tags by structure, containers by
identity.
-/

namespace Memberwise

/-- Names an object, its type and the types that its type descends from. -/
structure ObjectRef where
  id : Nat
  typeName : String
  supertypes : List String
  deriving DecidableEq

structure ListRef where
  id : Nat
  elementType : ValueType
  deriving DecidableEq

structure MapRef where
  id : Nat
  valueType : ValueType
  deriving DecidableEq

structure PropertiesRef where
  id : Nat
  deriving DecidableEq

structure CursorRef where
  id : Nat
  deriving DecidableEq

/-- Whether the object is an instance of the named type or of a subtype of it. -/
def ObjectRef.isA (o : ObjectRef) (name : String) : Bool :=
  o.typeName == name || o.supertypes.any (· == name)

/-- An instance of a tag: its name and its parameters in ascending order. -/
structure TagOf (α : Type) where
  name : String
  params : List (String × α)

inductive Value where
  | null
  | bool (b : Bool)
  | int (i : Int64)
  | float (f : Float)
  | string (s : String)
  | object (o : ObjectRef)
  | list (l : ListRef)
  | map (m : MapRef)
  | properties (p : PropertiesRef)
  | cursor (c : CursorRef)
  | tag (t : TagOf Value)

instance : Inhabited Value := ⟨.null⟩

/-- A declarative mark on a member or a type, with parameter values. -/
abbrev Tag := TagOf Value

namespace Value

def isNull : Value → Bool
  | null => true
  | _ => false

def asBool : Value → Option Bool
  | bool b => some b
  | _ => none

def asInt : Value → Option Int64
  | int i => some i
  | _ => none

/-- Any number, an integer being rounded to the nearest float. -/
def asNumber : Value → Option Float
  | int i => some (Float.ofInt i.toInt)
  | float f => some f
  | _ => none

def asString : Value → Option String
  | string s => some s
  | _ => none

def asObject : Value → Option ObjectRef
  | object o => some o
  | _ => none

def asList : Value → Option ListRef
  | list l => some l
  | _ => none

def asMap : Value → Option MapRef
  | map m => some m
  | _ => none

def asProperties : Value → Option PropertiesRef
  | properties p => some p
  | _ => none

def asCursor : Value → Option CursorRef
  | cursor c => some c
  | _ => none

def asTag : Value → Option Tag
  | tag t => some t
  | _ => none

/-- The name of a value's sort, without its contents. -/
def sortName : Value → String
  | null => "Null"
  | bool _ => "Bool"
  | int _ => "Int"
  | float _ => "Float"
  | string _ => "String"
  | object _ => "Object"
  | list _ => "List"
  | map _ => "Map"
  | properties _ => "Properties"
  | cursor _ => "Cursor"
  | tag _ => "Tag"

/-- The type of a value; null has the type that accepts everything. -/
def type : Value → ValueType
  | null => .any
  | bool _ => .bool
  | int _ => .int
  | float _ => .float
  | string _ => .string
  | object o => .object o.typeName
  | list l => .list l.elementType
  | map m => .map m.valueType
  | properties _ => .properties
  | cursor _ => .cursor
  | tag t => .tag t.name

def containerKind : Value → Option ContainerKind
  | object _ => some .object
  | tag _ => some .tag
  | list _ => some .sequence
  | map _ => some .map
  | properties _ => some .properties
  | cursor _ => some .cursor
  | null | bool _ | int _ | float _ | string _ => none

def isContainer (v : Value) : Bool :=
  v.containerKind.isSome

theorem containerKind_type (v : Value) : v.type.containerKind = v.containerKind := by
  cases v <;> rfl

mutual

/-- Equality of values: floats as numbers, containers by identity, tags by name
and parameters. -/
def same : Value → Value → Bool
  | null, null => true
  | bool a, bool b => a == b
  | int a, int b => a == b
  | float a, float b => a == b
  | string a, string b => a == b
  | object a, object b => a.id == b.id
  | list a, list b => a.id == b.id
  | map a, map b => a.id == b.id
  | properties a, properties b => a.id == b.id
  | cursor a, cursor b => a.id == b.id
  | tag a, tag b => sameTag a b
  | _, _ => false
termination_by structural v => v

def sameTag : TagOf Value → TagOf Value → Bool
  | ⟨n, ps⟩, ⟨m, qs⟩ => n == m && sameParams ps qs
termination_by structural t => t

def sameParams : List (String × Value) → List (String × Value) → Bool
  | [], [] => true
  | p :: ps, q :: qs => sameParam p q && sameParams ps qs
  | _, _ => false
termination_by structural ps => ps

def sameParam : String × Value → String × Value → Bool
  | (k, v), (l, w) => k == l && same v w
termination_by structural p => p

end

end Value

namespace TagOf

/-- A tag without parameters. -/
def plain (name : String) : Tag := ⟨name, []⟩

/-- The tag with one more parameter, which replaces one of the same name. -/
def withParam (t : Tag) (param : String) (value : Value) : Tag :=
  { t with params := Pairs.insert param value t.params }

def get? (t : Tag) (param : String) : Option Value :=
  Pairs.get? param t.params

def has (t : Tag) (param : String) : Bool :=
  (t.get? param).isSome

def number? (t : Tag) (param : String) : Option Float :=
  (t.get? param).bind Value.asNumber

def int? (t : Tag) (param : String) : Option Int64 :=
  (t.get? param).bind Value.asInt

def bool? (t : Tag) (param : String) : Option Bool :=
  (t.get? param).bind Value.asBool

def string? (t : Tag) (param : String) : Option String :=
  (t.get? param).bind Value.asString

theorem get?_plain (name param : String) : (plain name).get? param = none := rfl

theorem get?_withParam_self (t : Tag) (param : String) (value : Value) :
    (t.withParam param value).get? param = some value :=
  Pairs.get?_insert_self param value t.params

theorem get?_withParam_of_ne (t : Tag) (param other : String) (value : Value)
    (h : other ≠ param) : (t.withParam param value).get? other = t.get? other :=
  Pairs.get?_insert_of_ne param other value t.params h

end TagOf

namespace ValueType

/-- Whether a value may be stored in a slot of the type.  Null may always be. -/
def accepts : ValueType → Value → Bool
  | _, .null => true
  | any, _ => true
  | bool, .bool _ => true
  | int, .int _ => true
  | float, .float _ => true
  | float, .int _ => true
  | string, .string _ => true
  | list element, .list l => element == any || element == l.elementType
  | map value, .map m => value == any || value == m.valueType
  | object name, .object o => o.isA name
  | properties, .properties _ => true
  | cursor, .cursor _ => true
  | tag name, .tag t => t.name == name
  | _, _ => false

theorem accepts_null (t : ValueType) : t.accepts .null = true := by
  cases t <;> rfl

theorem any_accepts (v : Value) : any.accepts v = true := by
  cases v <;> rfl

end ValueType

end Memberwise
