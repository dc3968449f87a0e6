import Memberwise.Member.Discovery.Cursor
import Memberwise.Member.Discovery.Keyed
import Memberwise.Member.Discovery.Object
import Memberwise.Member.Discovery.Tag

/-!
# Discovery

Which members a container has, by its kind: those of objects and tags follow
from their type, those of the other kinds from the container itself.
-/

namespace Memberwise

/-- The members of a type of objects or tags. -/
def discoverType (r : Registry) (type : ValueType) (deep : Bool) :
    Except MemberError (List Template) :=
  match type with
  | .object name => discoverObject r name deep
  | .tag name => discoverTag r name
  | other => .error (.notAContainer other.display)

/-- The members of a container of another kind, in order. -/
def discoverInstance (h : Heap) (target : Value) : Except MemberError (List Template) :=
  match target with
  | .list l => .ok (discoverList h l)
  | .map m => .ok (discoverMap h m)
  | .properties p => .ok (discoverProperties h p)
  | .cursor c => discoverCursor h c
  | other => .error (.notAContainer other.sortName)

/-- One member of a container of another kind, by name. -/
def findInstance (h : Heap) (target : Value) (name : String) :
    Except MemberError (Option Template) :=
  match target with
  | .list l => .ok (findInList? h l name)
  | .map m => .ok (some (keyTemplate m.valueType name))
  | .properties _ => .ok (some (propertyTemplate name))
  | .cursor _ => .ok (some (columnTemplate name))
  | other => .error (.notAContainer other.sortName)

/-- A member for any container of a type of another kind, by name. -/
def typeTemplate? (type : ValueType) (name : String) : Option Template :=
  match type with
  | .list element => listTemplate? element name
  | .map value => some (keyTemplate value name)
  | .properties => some (propertyTemplate name)
  | .cursor => some (columnTemplate name)
  | _ => none

end Memberwise
