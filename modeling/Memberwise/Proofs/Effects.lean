import Memberwise.Proofs.Listing

/-!
# What a write does

A write that succeeds does one of five things, and `Writes` lists them with all that
has been checked before.  Each of them changes one container, and in a list, a map
or a property store only the place that the member names (`Writes.changes`).
Setters are functions from the slots of an object to new ones, so they change
nothing else, and nothing at all where they fail; getters have no heap to give back.
-/

namespace Memberwise

namespace Access

/-- A write through an access into a container succeeds, with a heap after it. -/
inductive Writes (h : Heap) (value : Value) : Access → Value → Heap → Prop
  | slots {o : ObjectRef} {type : String} {reader : Option Getter} {setter : Setter}
      {accepted : ValueType} {slots : Dict Value} (inst : o.isA type = true)
      (fits : accepted.accepts value = true) (set : setter h (h.slots o) value = .ok slots) :
      Writes h value (.object type reader (some (setter, accepted))) (.object o)
        (h.setSlots o slots)
  | item {l : ListRef} {p : Position} {i : Nat} (place : p.index (h.items l).length = .ok i)
      (within : i < (h.items l).length) (fits : l.elementType.accepts value = true) :
      Writes h value (.index p) (.list l) (h.setItems l ((h.items l).set i value))
  | entry {m : MapRef} {key : String} (fits : m.valueType.accepts value = true) :
      Writes h value (.key key) (.map m) (h.setEntries m ((h.entries m).insert key value))
  | property {p : PropertiesRef} {key text : String} (string : value = .string text) :
      Writes h value (.property key) (.properties p) (h.setProperty p key text)
  | removal {p : PropertiesRef} {key : String} (null : value = .null) :
      Writes h value (.property key) (.properties p) (h.eraseProperty p key)

variable {h after : Heap} {a : Access} {target value : Value}

theorem writes_of_writeObject {type : String} {reader : Option Getter}
    {writer : Option (Setter × ValueType)}
    (written : writeObject h type writer target value = .ok after) :
    Writes h value (.object type reader writer) target after := by
  cases target with
  | object o =>
      simp only [writeObject] at written
      split at written
      · rename_i inst
        split at written
        · split at written
          · rename_i setter accepted fits
            cases set : setter h (h.slots o) value with
            | error e =>
                rw [set] at written
                cases written
            | ok slots =>
                rw [set] at written
                cases written
                exact .slots inst fits set
          · cases written
        · cases written
      · cases written
  | _ => cases written

theorem writes_of_writeItem {p : Position} (written : writeItem h p target value = .ok after) :
    Writes h value (.index p) target after := by
  cases target with
  | list l =>
      rw [writeItem, mapError_eq_ok] at written
      cases place : p.index (h.items l).length with
      | error e =>
          rw [place] at written
          cases written
      | ok i =>
          rw [place] at written
          replace written : h.setItem l i value = .ok after := written
          rw [Heap.setItem] at written
          split at written
          · rename_i fits
            split at written
            · rename_i within
              cases written
              exact .item place within fits
            · cases written
          · cases written
  | _ => cases written

/-- Every write that succeeds is one of those listed. -/
theorem writes_of_write (written : a.write h target value = .ok after) :
    a.Writes h value target after := by
  cases a with
  | object type reader writer => exact writes_of_writeObject written
  | param name => cases written
  | index p => exact writes_of_writeItem written
  | key name =>
      cases target with
      | map m =>
          rw [write, mapError_eq_ok, Heap.insertEntry] at written
          split at written
          · rename_i fits
            cases written
            exact .entry fits
          · cases written
      | _ => cases written
  | property name =>
      cases target with
      | properties p =>
          cases value with
          | null =>
              cases written
              exact .removal rfl
          | string text =>
              cases written
              exact .property rfl
          | _ => cases written
      | _ => cases written
  | column c => cases written

end Access

/-! What is left as it is. -/

namespace Heap

/-- All containers but one have the same contents, and there are as many of each kind. -/
structure SameBut (owner : Value) (h after : Heap) : Prop where
  objects : ∀ id, (∀ o, owner = .object o → id ≠ o.id) →
    after.objects.get? id = h.objects.get? id
  lists : ∀ id, (∀ l, owner = .list l → id ≠ l.id) → after.lists.get? id = h.lists.get? id
  maps : ∀ id, (∀ m, owner = .map m → id ≠ m.id) → after.maps.get? id = h.maps.get? id
  properties : ∀ id, (∀ p, owner = .properties p → id ≠ p.id) →
    after.properties.get? id = h.properties.get? id
  cursors : after.cursors = h.cursors
  sizes : after.objects.size = h.objects.size ∧ after.lists.size = h.lists.size ∧
    after.maps.size = h.maps.size ∧ after.properties.size = h.properties.size

variable (h : Heap)

theorem sameBut_setSlots (o : ObjectRef) (slots : Dict Value) :
    SameBut (.object o) h (h.setSlots o slots) where
  objects _ other := Store.get?_set_of_ne _ _ _ _ (other o rfl)
  lists _ _ := rfl
  maps _ _ := rfl
  properties _ _ := rfl
  cursors := rfl
  sizes := ⟨Store.size_set _ _ _, rfl, rfl, rfl⟩

theorem sameBut_setItems (l : ListRef) (items : List Value) :
    SameBut (.list l) h (h.setItems l items) where
  objects _ _ := rfl
  lists _ other := Store.get?_set_of_ne _ _ _ _ (other l rfl)
  maps _ _ := rfl
  properties _ _ := rfl
  cursors := rfl
  sizes := ⟨rfl, Store.size_set _ _ _, rfl, rfl⟩

theorem sameBut_setEntries (m : MapRef) (entries : Dict Value) :
    SameBut (.map m) h (h.setEntries m entries) where
  objects _ _ := rfl
  lists _ _ := rfl
  maps _ other := Store.get?_set_of_ne _ _ _ _ (other m rfl)
  properties _ _ := rfl
  cursors := rfl
  sizes := ⟨rfl, rfl, Store.size_set _ _ _, rfl⟩

theorem sameBut_setPropertyDict (p : PropertiesRef) (d : Dict String) :
    SameBut (.properties p) h (h.setPropertyDict p d) where
  objects _ _ := rfl
  lists _ _ := rfl
  maps _ _ := rfl
  properties _ other := Store.get?_set_of_ne _ _ _ _ (other p rfl)
  cursors := rfl
  sizes := ⟨rfl, rfl, rfl, Store.size_set _ _ _⟩

/-! What a changed container holds, if it is there, and nothing otherwise. -/

theorem slots_setSlots (o : ObjectRef) (slots : Dict Value) (live : h.Live (.object o)) :
    (h.setSlots o slots).slots o = slots := by
  rw [Heap.slots, setSlots, Store.get?_set_self _ _ _ live, Option.getD_some]

theorem items_setItems (l : ListRef) (items : List Value) (live : h.Live (.list l)) :
    (h.setItems l items).items l = items := by
  rw [Heap.items, setItems, Store.get?_set_self _ _ _ live, Option.getD_some]

theorem entries_setEntries (m : MapRef) (entries : Dict Value) (live : h.Live (.map m)) :
    (h.setEntries m entries).entries m = entries := by
  rw [Heap.entries, setEntries, Store.get?_set_self _ _ _ live, Option.getD_some]

theorem propertyDict_setPropertyDict (p : PropertiesRef) (d : Dict String)
    (live : h.Live (.properties p)) : (h.setPropertyDict p d).propertyDict p = d := by
  rw [propertyDict, setPropertyDict, Store.get?_set_self _ _ _ live, Option.getD_some]

end Heap

theorem Store.set_of_size_le {α : Type} (s : Store α) (id : Nat) (cell : α) (h : s.size ≤ id) :
    s.set id cell = s := by
  rw [set, Array.setIfInBounds_eq_of_size_le h]

/-- The access leads to the place of a name.  The place of a parameter or of a column
matters to no write. -/
def Access.NamedBy (name : String) : Access → Prop
  | index p => p.NamedBy name
  | key k | property k => k = name
  | object _ _ _ | param _ | column _ => True

/-- Only one container differs, and in a list, a map or a property store only at
the place of a name; a list is as long as before. -/
structure Heap.Changes (owner : Value) (name : String) (h after : Heap) : Prop where
  others : h.SameBut owner after
  items : ∀ l, owner = .list l → ∃ p i, Position.NamedBy p name ∧
    p.index (h.items l).length = .ok i ∧ (after.items l).length = (h.items l).length ∧
    ∀ j, j ≠ i → (after.items l)[j]? = (h.items l)[j]?
  entries : ∀ m, owner = .map m → ∀ key, key ≠ name →
    (after.entries m).get? key = (h.entries m).get? key
  properties : ∀ p, owner = .properties p → ∀ key, key ≠ name →
    after.property? p key = h.property? p key

namespace Heap

variable {h : Heap} {name : String}

theorem changes_setSlots (o : ObjectRef) (slots : Dict Value) :
    Changes (.object o) name h (h.setSlots o slots) where
  others := h.sameBut_setSlots o slots
  items := by rintro l ⟨⟩
  entries := by rintro m ⟨⟩
  properties := by rintro p ⟨⟩

theorem changes_setItems {l : ListRef} {p : Position} {i : Nat} (named : p.NamedBy name)
    (place : p.index (h.items l).length = .ok i) (value : Value) :
    Changes (.list l) name h (h.setItems l ((h.items l).set i value)) where
  others := h.sameBut_setItems l _
  items := by
    rintro _ ⟨⟩
    refine ⟨p, i, named, place, ?_⟩
    by_cases live : h.Live (.list l)
    · rw [items_setItems _ _ _ live]
      refine ⟨List.length_set, ?_⟩
      intro j other
      exact List.getElem?_set_ne (Ne.symm other)
    · have same : h.setItems l ((h.items l).set i value) = h := by
        rw [setItems, Store.set_of_size_le _ _ _ (Nat.le_of_not_lt live)]
      rw [same]
      exact ⟨rfl, fun _ _ => rfl⟩
  entries := by rintro m ⟨⟩
  properties := by rintro p ⟨⟩

theorem changes_setEntries (m : MapRef) (value : Value) :
    Changes (.map m) name h (h.setEntries m ((h.entries m).insert name value)) where
  others := h.sameBut_setEntries m _
  items := by rintro l ⟨⟩
  entries := by
    rintro _ ⟨⟩ key other
    by_cases live : h.Live (.map m)
    · rw [entries_setEntries _ _ _ live, Dict.get?_insert_of_ne _ _ _ _ other]
    · rw [setEntries, Store.set_of_size_le _ _ _ (Nat.le_of_not_lt live)]
  properties := by rintro p ⟨⟩

/-- A property is set or erased, and the others stay. -/
theorem changes_setPropertyDict {p : PropertiesRef} {d : Dict String}
    (others : ∀ key, key ≠ name → d.get? key = h.property? p key) :
    Changes (.properties p) name h (h.setPropertyDict p d) where
  others := h.sameBut_setPropertyDict p d
  items := by rintro l ⟨⟩
  entries := by rintro m ⟨⟩
  properties := by
    rintro _ ⟨⟩ key other
    by_cases live : h.Live (.properties p)
    · rw [property?, propertyDict_setPropertyDict _ _ _ live, others key other]
    · rw [setPropertyDict, Store.set_of_size_le _ _ _ (Nat.le_of_not_lt live)]

end Heap

/-- A write changes the place that it is given, and no other. -/
theorem Access.Writes.changes {h after : Heap} {a : Access} {target value : Value}
    {name : String} (writes : a.Writes h value target after) (named : a.NamedBy name) :
    h.Changes target name after := by
  cases writes with
  | slots inst fits set => exact Heap.changes_setSlots _ _
  | item place within fits => exact Heap.changes_setItems named place value
  | entry fits =>
      cases named
      exact Heap.changes_setEntries _ value
  | property string =>
      cases named
      exact Heap.changes_setPropertyDict fun key other => Dict.get?_insert_of_ne _ _ _ _ other
  | removal null =>
      cases named
      exact Heap.changes_setPropertyDict fun key other => Dict.get?_erase_of_ne _ _ _ other

end Memberwise
