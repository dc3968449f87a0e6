import Memberwise.Constraint.Engine
import Memberwise.Pattern.Engine
import Memberwise.Registry.BuiltIn
import Memberwise.Scenario.Error
import Memberwise.World

/-!
# A small shop

A registry of customers, their addresses and their purchases, with constraints
on most members.  The member `code` of a customer is written as a number and
read as a text, both through the slot `serial`.
-/

namespace Memberwise.Shop

/-- The composite tag of texts that must be there: not null, not empty, and of
at most forty characters. -/
def requiredText : String := "required_text"

def requiredTextDraft : TagDraft :=
  { TagDraft.plain requiredText with
    metaTags :=
      [.plain BuiltIn.notNull, .plain BuiltIn.notEmpty,
       (TagOf.plain BuiltIn.length).withParam "max" (.int 40)] }

def minimum (n : Int64) : Tag :=
  (TagOf.plain BuiltIn.min).withParam "value" (.int n)

def maximum (n : Int64) : Tag :=
  (TagOf.plain BuiltIn.max).withParam "value" (.int n)

def shaped (regex : String) : Tag :=
  (TagOf.plain BuiltIn.pattern).withParam "regex" (.string regex)

/-- A field under tags. -/
def tagged (name : String) (type : ValueType) (tags : List Tag) : Field :=
  { Field.plain name type with tags := tags }

/-- A field under tags that starts with an empty container. -/
def collection (name : String) (type : ValueType) (tags : List Tag) : Field :=
  { tagged name type tags with initialized := true }

def person : TypeDraft :=
  ((TypeDraft.plain "Person").withField (tagged "name" .string [.plain requiredText])).withField
    (.plain "nickname" .string)

def address : TypeDraft :=
  ((TypeDraft.plain "Address").withField
    (tagged "street" .string [.plain BuiltIn.notNull, .plain BuiltIn.notEmpty])).withField
    (tagged "zip" .string [shaped "\\d\x7b5\x7d"])

/-- Writes a customer's number into the slot of its serial text: a letter and at
least four places. -/
def writeSerial : Setter := fun _ slots v =>
  match v with
  | .null => .ok (slots.insert "serial" .null)
  | .int n => .ok (slots.insert "serial" (.string ("C" ++ Text.Numeral.writePadded 4 n.toInt)))
  | other => .error (.access (.typeMismatch "Int" other.sortName))

def customer : TypeDraft :=
  { TypeDraft.plain "Customer" with
    parents := ["Person"]
    fields :=
      [tagged "age" .int [minimum 0, maximum 150],
       tagged "email" .string [shaped "[^@\\s]+@[^@\\s]+"],
       tagged "address" (.object "Address") [.plain BuiltIn.valid],
       { Field.plain "serial" .string with readOnly := true }]
    accessors := [⟨"code", .string, [], Getter.slot "serial"⟩]
    mutators := [⟨"code", .int, [], writeSerial⟩] }

def item : TypeDraft :=
  ((TypeDraft.plain "Item").withField (tagged "sku" .string [.plain BuiltIn.notNull])).withField
    (tagged "quantity" .int [minimum 1])

def purchase : TypeDraft :=
  { TypeDraft.plain "Purchase" with
    fields :=
      [tagged "customer" (.object "Customer") [.plain BuiltIn.notNull, .plain BuiltIn.valid],
       collection "items" (.list (.object "Item")) [.plain BuiltIn.notEmpty, .plain BuiltIn.valids],
       collection "extras" (.map (.object "Item")) [.plain BuiltIn.valids],
       collection "notes" .properties []] }

/-- The registry of the shop. -/
def registry : Registry :=
  (BuiltIn.builder.declareAll
    [.tag requiredTextDraft, .type person, .type address, .type customer, .type item,
     .type purchase]).build

/-- Writes a slot directly; nothing happens to values other than objects. -/
def setSlot (h : Heap) (target : Value) (name : String) (value : Value) : Heap :=
  match target with
  | .object o => h.setSlot o name value
  | _ => h

/-- Reads a slot directly; values other than objects have null there. -/
def slot (h : Heap) (target : Value) (name : String) : Value :=
  match target with
  | .object o => h.slot o name
  | _ => .null

/-- A new object of a type with some slots written. -/
def newObject (r : Registry) (h : Heap) (typeName : String) (slots : List (String × Value)) :
    Except ScenarioError (Value × Heap) :=
  match r.instantiate h typeName with
  | .ok (o, h) =>
    .ok (.object o, slots.foldl (fun h s => h.setSlot o s.1 s.2) h)
  | .error e => .error (.registry e)

def newCustomer (r : Registry) (h : Heap) (name : Option String) (age : Int64) :
    Except ScenarioError (Value × Heap) :=
  newObject r h "Customer" [("name", name.elim .null .string), ("age", .int age)]

def newAddress (r : Registry) (h : Heap) (street zip : String) :
    Except ScenarioError (Value × Heap) :=
  newObject r h "Address" [("street", .string street), ("zip", .string zip)]

def newItem (r : Registry) (h : Heap) (sku : String) (quantity : Int64) :
    Except ScenarioError (Value × Heap) :=
  newObject r h "Item" [("sku", .string sku), ("quantity", .int quantity)]

/-- A purchase of items in a list of its own. -/
def newPurchase (r : Registry) (h : Heap) (customer : Value) (items : List Value) :
    Except ScenarioError (Value × Heap) :=
  let (l, h) := h.newList (.object "Item") items
  newObject r h "Purchase" [("customer", customer), ("items", .list l)]

/-- The shop in a world: its catalog, and the engine over it. -/
def opened (w : World) : Except ScenarioError (CatalogRef × Engine) × World :=
  let (d, catalogs) := w.catalogs.add registry
  let (engine, w) := Query.run ⟨w.heap, catalogs⟩ fun _ =>
    Engine.withConfig (.ofCatalog d) .standard
  (match engine with
    | .ok e => .ok (d, e)
    | .error e => .error (.constraint e), w)

end Memberwise.Shop
