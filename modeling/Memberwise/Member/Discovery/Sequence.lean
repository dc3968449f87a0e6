import Memberwise.Member.Template
import Memberwise.Text.Numeral

/-!
# Members of lists

The members of a list are its positions, named by plain decimal numerals from
zero on.  `first` and `last` name its ends, whatever its length is when they
are used; they can be asked for and are not listed.
-/

namespace Memberwise

/-- Positions and column numbers are below this. -/
def indexLimit : Nat := Nat.pow 2 64

/-- The position that a member name stands for. -/
def Position.parse? (name : String) : Option Position :=
  if name = "first" then some .first
  else if name = "last" then some .last
  else (Text.Numeral.read? indexLimit name).map .nth

def itemTemplate (element : ValueType) (name : String) (p : Position) : Template where
  name := name
  declaredType := element
  declaringType := .list element
  readable := true
  writable := true
  tags := []
  access := .index p

/-- The positions of a list, in order. -/
def discoverList (h : Heap) (l : ListRef) : List Template :=
  (List.range (h.items l).length).map fun i =>
    itemTemplate l.elementType (Text.Numeral.write i) (.nth i)

/-- A member for any list of an element type, whatever its length. -/
def listTemplate? (element : ValueType) (name : String) : Option Template :=
  (Position.parse? name).map (itemTemplate element name)

/-- A member of a list by name.  Positions past the end are absent. -/
def findInList? (h : Heap) (l : ListRef) (name : String) : Option Template :=
  match Position.parse? name with
  | some (.nth i) =>
    if i < (h.items l).length then some (itemTemplate l.elementType name (.nth i)) else none
  | some p => some (itemTemplate l.elementType name p)
  | none => none

end Memberwise
