import Memberwise.Heap
import Memberwise.Text.Layout
import Memberwise.Text.Quoted
import Memberwise.Text.Shortest

/-!
# Texts of values

`display` is the short text of a value in messages: containers by their type or
size, strings between quotes as they are.  `inspect` is the diagnostic text,
which also shows the sort of a value and escapes strings; it names containers
by an address, for which `PTR` stands.  Both look one step into the heap, for
the sizes of containers and the contents of property stores, and so end on
cyclic graphs too.
-/

namespace Memberwise

open Text

namespace ValueType

/-- The diagnostic text of a type. -/
def inspect : ValueType → String
  | any => "Any"
  | bool => "Bool"
  | int => "Int"
  | float => "Float"
  | string => "String"
  | list element => applied "List" element.inspect
  | map value => applied "Map" value.inspect
  | object name => applied "Object" (quoted name)
  | properties => "Properties"
  | cursor => "Cursor"
  | tag name => applied "Tag" (quoted name)

end ValueType

namespace Value

mutual

/-- The short text of a value. -/
def display (h : Heap) : Value → String
  | null => "null"
  | bool b => truth b
  | int i => toString i.toInt
  | float f => displayFloat f
  | string s => "\"" ++ s ++ "\""
  | object o => o.typeName ++ "\x7b..\x7d"
  | list l => "[" ++ toString (h.items l).length ++ " items]"
  | map m => "\x7b" ++ toString (h.entries m).size ++ " entries\x7d"
  | properties p => applied "properties" (toString (h.propertyDict p).size)
  | cursor _ => "cursor"
  | tag t => displayTag h t
termination_by structural v => v

def displayTag (h : Heap) : TagOf Value → String
  | ⟨name, ps⟩ =>
    match displayParams h ps with
    | [] => "@" ++ name
    | shown => bracketed ("@" ++ name ++ "(") shown ")"
termination_by structural t => t

def displayParams (h : Heap) : List (String × Value) → List String
  | [] => []
  | p :: ps => displayParam h p :: displayParams h ps
termination_by structural ps => ps

def displayParam (h : Heap) : String × Value → String
  | (k, v) => k ++ " = " ++ display h v
termination_by structural p => p

end

mutual

/-- The diagnostic text of a value. -/
def inspect (h : Heap) : Value → String
  | null => "Null"
  | bool b => applied "Bool" (truth b)
  | int i => applied "Int" (toString i.toInt)
  | float f => applied "Float" (inspectFloat f)
  | string s => applied "String" (quoted s)
  | object o => applied "Object" ("ObjectRef(" ++ o.typeName ++ "@PTR)")
  | list l =>
    applied "List" ("ListRef<" ++ l.elementType.display ++ ">(len=" ++
      toString (h.items l).length ++ ")")
  | map m =>
    applied "Map" ("MapRef<" ++ m.valueType.display ++ ">(len=" ++
      toString (h.entries m).size ++ ")")
  | properties p =>
    applied "Properties" (paired ((h.propertyDict p).pairs.map fun e => (quoted e.1, quoted e.2)))
  | cursor _ =>
    applied "Cursor" "CursorRef(Pointer \x7b addr: PTR, metadata: DynMetadata(PTR) \x7d)"
  | tag t => applied "Tag" (inspectTag h t)
termination_by structural v => v

def inspectTag (h : Heap) : TagOf Value → String
  | ⟨name, ps⟩ =>
    match inspectParams h ps with
    | [] => "@" ++ name
    | shown => "@" ++ name ++ bracketed "\x7b" shown "\x7d"
termination_by structural t => t

def inspectParams (h : Heap) : List (String × Value) → List String
  | [] => []
  | p :: ps => inspectParam h p :: inspectParams h ps
termination_by structural ps => ps

def inspectParam (h : Heap) : String × Value → String
  | (k, v) => quoted k ++ ": " ++ inspect h v
termination_by structural p => p

end

end Value

namespace TagOf

/-- The short text of a tag. -/
def display (h : Heap) (t : Tag) : String :=
  Value.displayTag h t

/-- The diagnostic text of a tag. -/
def inspect (h : Heap) (t : Tag) : String :=
  Value.inspectTag h t

end TagOf

end Memberwise
