import Memberwise.Member.Template

/-!
# Members of maps and property stores

The members are the keys that are present.  Any other key can be asked for as
well: it reads as null, and writing adds it.
-/

namespace Memberwise

def keyTemplate (value : ValueType) (key : String) : Template where
  name := key
  declaredType := value
  declaringType := .map value
  readable := true
  writable := true
  tags := []
  access := .key key

/-- The keys of a map, in order. -/
def discoverMap (h : Heap) (m : MapRef) : List Template :=
  (h.entries m).keys.map (keyTemplate m.valueType)

def propertyTemplate (key : String) : Template where
  name := key
  declaredType := .string
  declaringType := .properties
  readable := true
  writable := true
  tags := []
  access := .property key

/-- The keys of a property store, in order. -/
def discoverProperties (h : Heap) (p : PropertiesRef) : List Template :=
  (h.propertyDict p).keys.map propertyTemplate

end Memberwise
