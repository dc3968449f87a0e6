import Memberwise.Fault
import Memberwise.Value

/-!
# The heap

Containers are shared: several values may refer to one container, and a change
made through one of them is seen through all.  The heap holds the contents of
every container, one store for each kind, under the number by which references
name it.  Containers are only ever added, so a reference stays valid.

A failing operation yields an error and no heap, which leaves its caller with
the heap of before.
-/

namespace Memberwise

/-- Cells under consecutive numbers. -/
structure Store (α : Type) where
  cells : Array α

namespace Store

variable {α : Type}

def empty : Store α := ⟨#[]⟩

def size (s : Store α) : Nat :=
  s.cells.size

def get? (s : Store α) (id : Nat) : Option α :=
  s.cells[id]?

/-- Replaces a cell; nothing happens under a number that is not in use. -/
def set (s : Store α) (id : Nat) (cell : α) : Store α :=
  ⟨s.cells.setIfInBounds id cell⟩

/-- A new cell, whose number is the size of before. -/
def push (s : Store α) (cell : α) : Store α :=
  ⟨s.cells.push cell⟩

theorem size_set (s : Store α) (id : Nat) (cell : α) : (s.set id cell).size = s.size := by
  simp [size, set]

theorem size_push (s : Store α) (cell : α) : (s.push cell).size = s.size + 1 := by
  simp [size, push]

theorem get?_set_self (s : Store α) (id : Nat) (cell : α) (h : id < s.size) :
    (s.set id cell).get? id = some cell := by
  simp [get?, set, show id < s.cells.size from h]

theorem get?_set_of_ne (s : Store α) (id other : Nat) (cell : α) (h : other ≠ id) :
    (s.set id cell).get? other = s.get? other := by
  simp [get?, set, Ne.symm h]

theorem get?_push_self (s : Store α) (cell : α) : (s.push cell).get? s.size = some cell := by
  simp [get?, push, size]

theorem get?_push_of_lt (s : Store α) (id : Nat) (cell : α) (h : id < s.size) :
    (s.push cell).get? id = s.get? id := by
  have h' : id < s.cells.size := h
  simp [get?, push, Array.getElem?_push, Nat.ne_of_lt h']

end Store

/-- Rows in memory and a position among them, `none` before the first row. -/
structure RowSet where
  columns : List String
  rows : List (List Value)
  position : Option Nat

namespace RowSet

def ofRows (columns : List String) (rows : List (List Value)) : RowSet :=
  ⟨columns, rows, none⟩

/-- The position one further; it comes to rest just after the last row. -/
def next (s : RowSet) : RowSet :=
  { s with position := some (min (s.position.elim 0 (· + 1)) s.rows.length) }

def currentRow (s : RowSet) : Except AccessError (List Value) :=
  match s.position.bind (s.rows[·]?) with
  | some row => .ok row
  | none => .error .noCurrentRow

/-- Whether the position is on a row. -/
def onRow (s : RowSet) : Bool :=
  (s.position.bind (s.rows[·]?)).isSome

/-- The value in the column of a number, counted from one.  A row that is too
short reads as null there. -/
def byOrdinal (s : RowSet) (ordinal : Nat) : Except AccessError Value :=
  if ordinal = 0 ∨ s.columns.length < ordinal then
    .error (.columnOutOfRange ordinal s.columns.length)
  else
    s.currentRow.map fun row => (row[ordinal - 1]?).getD .null

/-- The place of the first column with a label, ASCII case aside. -/
def columnIndex? (s : RowSet) (label : String) : Option Nat :=
  s.columns.findIdx? fun c => c.toLower == label.toLower

def byLabel (s : RowSet) (label : String) : Except AccessError Value :=
  match s.columnIndex? label with
  | some i => s.byOrdinal (i + 1)
  | none => .error (.unknownColumn label)

theorem columns_next (s : RowSet) : s.next.columns = s.columns := rfl

theorem rows_next (s : RowSet) : s.next.rows = s.rows := rfl

end RowSet

/-- A cursor whose rows live elsewhere, given by its answers. -/
structure ForeignCursor where
  columnCount : Except Fault Nat
  byOrdinal : Nat → Except Fault Value
  byLabel : String → Except Fault Value

/-- A cursor that fails at everything, each time with a text of its own. -/
def ForeignCursor.broken (message : String) : ForeignCursor where
  columnCount := .error (.foreign message)
  byOrdinal n := .error (.access (.failed (message ++ " at " ++ toString n)))
  byLabel label := .error (.access (.failed (message ++ " at '" ++ label ++ "'")))

inductive Cursor where
  | rows (s : RowSet)
  | foreign (c : ForeignCursor)

namespace Cursor

def columnCount : Cursor → Except Fault Nat
  | rows s => .ok s.columns.length
  | foreign c => c.columnCount

def byOrdinal : Cursor → Nat → Except Fault Value
  | rows s, ordinal => (s.byOrdinal ordinal).mapError .access
  | foreign c, ordinal => c.byOrdinal ordinal

def byLabel : Cursor → String → Except Fault Value
  | rows s, label => (s.byLabel label).mapError .access
  | foreign c, label => c.byLabel label

end Cursor

/-- The contents of all containers. -/
structure Heap where
  objects : Store (Dict Value)
  lists : Store (List Value)
  maps : Store (Dict Value)
  properties : Store (Dict String)
  cursors : Store Cursor

namespace Heap

def empty : Heap := ⟨.empty, .empty, .empty, .empty, .empty⟩

instance : Inhabited Heap := ⟨empty⟩

/-- How many containers there are. -/
def size (h : Heap) : Nat :=
  h.objects.size + h.lists.size + h.maps.size + h.properties.size + h.cursors.size

/-- Whether the container that a value refers to exists; true of scalars and tags. -/
def Live (h : Heap) : Value → Prop
  | .object o => o.id < h.objects.size
  | .list l => l.id < h.lists.size
  | .map m => m.id < h.maps.size
  | .properties p => p.id < h.properties.size
  | .cursor c => c.id < h.cursors.size
  | _ => True

/-! Objects: slots by name, which are not checked here. -/

def slots (h : Heap) (o : ObjectRef) : Dict Value :=
  (h.objects.get? o.id).getD .empty

/-- The value of a slot; a slot that was never written reads as null. -/
def slot (h : Heap) (o : ObjectRef) (name : String) : Value :=
  ((h.slots o).get? name).getD .null

def setSlots (h : Heap) (o : ObjectRef) (slots : Dict Value) : Heap :=
  { h with objects := h.objects.set o.id slots }

def setSlot (h : Heap) (o : ObjectRef) (name : String) (value : Value) : Heap :=
  h.setSlots o ((h.slots o).insert name value)

def newObject (h : Heap) (typeName : String) (supertypes : List String) (slots : Dict Value) :
    ObjectRef × Heap :=
  (⟨h.objects.size, typeName, supertypes⟩, { h with objects := h.objects.push slots })

/-! Lists: items of a common type. -/

def items (h : Heap) (l : ListRef) : List Value :=
  (h.lists.get? l.id).getD []

def setItems (h : Heap) (l : ListRef) (items : List Value) : Heap :=
  { h with lists := h.lists.set l.id items }

/-- A new list; its items are not checked. -/
def newList (h : Heap) (elementType : ValueType) (items : List Value) : ListRef × Heap :=
  (⟨h.lists.size, elementType⟩, { h with lists := h.lists.push items })

def item (h : Heap) (l : ListRef) (index : Nat) : Except AccessError Value :=
  match (h.items l)[index]? with
  | some v => .ok v
  | none => .error (.indexOutOfBounds index (h.items l).length)

/-- The error for a value that does not fit a type. -/
def mismatch (expected : ValueType) (value : Value) : AccessError :=
  .typeMismatch expected.display value.type.display

/-- Replaces an item.  The type of the value is checked before the position. -/
def setItem (h : Heap) (l : ListRef) (index : Nat) (value : Value) : Except AccessError Heap :=
  if l.elementType.accepts value then
    if index < (h.items l).length then .ok (h.setItems l ((h.items l).set index value))
    else .error (.indexOutOfBounds index (h.items l).length)
  else .error (mismatch l.elementType value)

def pushItem (h : Heap) (l : ListRef) (value : Value) : Except AccessError Heap :=
  if l.elementType.accepts value then .ok (h.setItems l (h.items l ++ [value]))
  else .error (mismatch l.elementType value)

/-! Maps: values of a common type under ordered keys. -/

def entries (h : Heap) (m : MapRef) : Dict Value :=
  (h.maps.get? m.id).getD .empty

def setEntries (h : Heap) (m : MapRef) (entries : Dict Value) : Heap :=
  { h with maps := h.maps.set m.id entries }

def newMap (h : Heap) (valueType : ValueType) : MapRef × Heap :=
  (⟨h.maps.size, valueType⟩, { h with maps := h.maps.push .empty })

/-- The value under a key; a missing key reads as null. -/
def entry (h : Heap) (m : MapRef) (key : String) : Value :=
  ((h.entries m).get? key).getD .null

def insertEntry (h : Heap) (m : MapRef) (key : String) (value : Value) :
    Except AccessError Heap :=
  if m.valueType.accepts value then .ok (h.setEntries m ((h.entries m).insert key value))
  else .error (mismatch m.valueType value)

def eraseEntry (h : Heap) (m : MapRef) (key : String) : Heap :=
  h.setEntries m ((h.entries m).erase key)

/-! Property stores: strings under ordered keys. -/

def propertyDict (h : Heap) (p : PropertiesRef) : Dict String :=
  (h.properties.get? p.id).getD .empty

def setPropertyDict (h : Heap) (p : PropertiesRef) (d : Dict String) : Heap :=
  { h with properties := h.properties.set p.id d }

def newProperties (h : Heap) (d : Dict String) : PropertiesRef × Heap :=
  (⟨h.properties.size⟩, { h with properties := h.properties.push d })

def property? (h : Heap) (p : PropertiesRef) (key : String) : Option String :=
  (h.propertyDict p).get? key

def setProperty (h : Heap) (p : PropertiesRef) (key text : String) : Heap :=
  h.setPropertyDict p ((h.propertyDict p).insert key text)

def eraseProperty (h : Heap) (p : PropertiesRef) (key : String) : Heap :=
  h.setPropertyDict p ((h.propertyDict p).erase key)

/-! Cursors. -/

/-- The answers of a cursor that is not in the heap. -/
def noCursor : ForeignCursor :=
  ⟨.ok 0, fun n => .error (.access (.columnOutOfRange n 0)),
   fun l => .error (.access (.unknownColumn l))⟩

def cursor (h : Heap) (c : CursorRef) : Cursor :=
  (h.cursors.get? c.id).getD (.foreign noCursor)

def newCursor (h : Heap) (c : Cursor) : CursorRef × Heap :=
  (⟨h.cursors.size⟩, { h with cursors := h.cursors.push c })

/-- Advances a cursor with rows in memory, and says whether it then is on a
row; nothing for other cursors. -/
def nextRow? (h : Heap) (c : CursorRef) : Option (Bool × Heap) :=
  match h.cursor c with
  | .rows s => some (s.next.onRow, { h with cursors := h.cursors.set c.id (.rows s.next) })
  | .foreign _ => none

end Heap

end Memberwise
