import Memberwise.Proofs.Confinement
import Memberwise.Proofs.Pairs

/-!
# Typed containers

A list or map is made with a type for what it holds, and a reference to it carries
that type.  A typing records the types of all that have been made.  A heap is sound
under a typing if all references in it are as recorded and all items and entries are
accepted by the recorded types.  Reading from a sound heap gives values that are as
recorded (`Access.Keeps.typed_of_read`), and writing such values keeps it sound
(`Heap.Sound.of_writes`), whatever way leads to the place.
-/

namespace Memberwise

/-- The types with which lists and maps were made, by their numbers. -/
structure Typing where
  lists : List ValueType
  maps : List ValueType

namespace Typing

def empty : Typing := ⟨[], []⟩

def withList (τ : Typing) (element : ValueType) : Typing :=
  { τ with lists := τ.lists ++ [element] }

def withMap (τ : Typing) (value : ValueType) : Typing :=
  { τ with maps := τ.maps ++ [value] }

/-- Whatever the first records, the second records too. -/
structure Grows (τ τ' : Typing) : Prop where
  lists : ∀ (id : Nat) type, τ.lists[id]? = some type → τ'.lists[id]? = some type
  maps : ∀ (id : Nat) type, τ.maps[id]? = some type → τ'.maps[id]? = some type

theorem grows_refl (τ : Typing) : τ.Grows τ :=
  ⟨fun _ _ recorded => recorded, fun _ _ recorded => recorded⟩

theorem Grows.trans {τ τ' τ'' : Typing} (first : τ.Grows τ') (later : τ'.Grows τ'') : τ.Grows τ'' :=
  ⟨fun id type recorded => later.lists id type (first.lists id type recorded),
   fun id type recorded => later.maps id type (first.maps id type recorded)⟩

theorem getElem?_concat_of_some {types : List ValueType} {id : Nat} {type new : ValueType}
    (recorded : types[id]? = some type) : (types ++ [new])[id]? = some type := by
  rw [List.getElem?_append_left (List.getElem?_eq_some_iff.1 recorded).1, recorded]

theorem grows_withList (τ : Typing) (element : ValueType) : τ.Grows (τ.withList element) :=
  ⟨fun _ _ => getElem?_concat_of_some, fun _ _ recorded => recorded⟩

theorem grows_withMap (τ : Typing) (value : ValueType) : τ.Grows (τ.withMap value) :=
  ⟨fun _ _ recorded => recorded, fun _ _ => getElem?_concat_of_some⟩

end Typing

/-- Every list or map that the value refers to was made with the type that it says. -/
inductive Value.Typed (τ : Typing) : Value → Prop
  | null : Typed τ .null
  | bool (b : Bool) : Typed τ (.bool b)
  | int (i : Int64) : Typed τ (.int i)
  | float (f : Float) : Typed τ (.float f)
  | string (s : String) : Typed τ (.string s)
  | object (o : ObjectRef) : Typed τ (.object o)
  | list {l : ListRef} (made : τ.lists[l.id]? = some l.elementType) : Typed τ (.list l)
  | map {m : MapRef} (made : τ.maps[m.id]? = some m.valueType) : Typed τ (.map m)
  | properties (p : PropertiesRef) : Typed τ (.properties p)
  | cursor (c : CursorRef) : Typed τ (.cursor c)
  | tag {t : Tag} (params : ∀ p ∈ t.params, Typed τ p.2) : Typed τ (.tag t)

theorem Value.Typed.grow {τ τ' : Typing} {v : Value} (typed : v.Typed τ) (grows : τ.Grows τ') :
    v.Typed τ' := by
  induction typed with
  | list made => exact .list (grows.lists _ _ made)
  | map made => exact .map (grows.maps _ _ made)
  | tag params ih => exact .tag ih
  | null => exact .null
  | bool b => exact .bool b
  | int i => exact .int i
  | float f => exact .float f
  | string s => exact .string s
  | object o => exact .object o
  | properties p => exact .properties p
  | cursor c => exact .cursor c

/-! What holds of everything in a dictionary or a store. -/

namespace Dict

variable {α : Type} {P : α → Prop} {d : Dict α}

/-- All values of a dictionary have a property. -/
def All (P : α → Prop) (d : Dict α) : Prop :=
  ∀ key value, d.get? key = some value → P value

theorem all_empty : (empty : Dict α).All P := by
  intro key value found
  cases found

/-- What a key without a value reads as has the property too. -/
theorem All.getD (all : d.All P) (key : String) {missing : α} (absent : P missing) :
    P ((d.get? key).getD missing) := by
  cases found : d.get? key with
  | none => exact absent
  | some value => exact all key value found

theorem All.insert (all : d.All P) (key : String) {value : α} (new : P value) :
    (d.insert key value).All P := by
  intro other found at_other
  by_cases same : other = key
  · subst same
    rw [get?_insert_self] at at_other
    exact Option.some.inj at_other ▸ new
  · rw [get?_insert_of_ne _ _ _ _ same] at at_other
    exact all other found at_other

theorem All.erase (all : d.All P) (key : String) : (d.erase key).All P := by
  intro other found at_other
  by_cases same : other = key
  · subst same
    rw [get?_erase_self] at at_other
    cases at_other
  · rw [get?_erase_of_ne _ _ _ same] at at_other
    exact all other found at_other

end Dict

namespace Store

variable {α : Type} {P Q : Nat → α → Prop} {s : Store α}

/-- All cells of a store have a property under their numbers. -/
def All (P : Nat → α → Prop) (s : Store α) : Prop :=
  ∀ id cell, s.get? id = some cell → P id cell

theorem All.imp (all : s.All P) (implies : ∀ id cell, P id cell → Q id cell) : s.All Q :=
  fun id cell stored => implies id cell (all id cell stored)

theorem all_empty : (empty : Store α).All P := by
  intro id cell stored
  cases stored

/-- What a number that is not in use reads as has the property too. -/
theorem All.getD (all : s.All P) (id : Nat) {missing : α} (absent : P id missing) :
    P id ((s.get? id).getD missing) := by
  cases stored : s.get? id with
  | none => exact absent
  | some cell => exact all id cell stored

theorem All.set (all : s.All P) {id : Nat} {cell : α} (new : P id cell) :
    (s.set id cell).All P := by
  intro other found stored
  by_cases same : other = id
  · subst same
    by_cases live : other < s.size
    · rw [get?_set_self _ _ _ live] at stored
      exact Option.some.inj stored ▸ new
    · rw [set_of_size_le _ _ _ (Nat.le_of_not_lt live)] at stored
      exact all other found stored
  · rw [get?_set_of_ne _ _ _ _ same] at stored
    exact all other found stored

theorem All.push (all : s.All P) {cell : α} (new : P s.size cell) : (s.push cell).All P := by
  intro id found stored
  have within : id < (s.push cell).size := (Array.getElem?_eq_some_iff.1 stored).1
  rw [size_push] at within
  rcases Nat.lt_succ_iff_lt_or_eq.1 within with before | rfl
  · rw [get?_push_of_lt _ _ _ before] at stored
    exact all id found stored
  · rw [get?_push_self] at stored
    exact Option.some.inj stored ▸ new

end Store

/-- The answers of a cursor are as recorded. -/
def Cursor.Typed (τ : Typing) : Cursor → Prop
  | .rows s => ∀ row ∈ s.rows, ∀ v ∈ row, v.Typed τ
  | .foreign c => (∀ n v, c.byOrdinal n = .ok v → v.Typed τ) ∧
      ∀ label v, c.byLabel label = .ok v → v.Typed τ

/-- The value is as recorded and fits where a type is recorded under a number. -/
def Value.Fits (τ : Typing) (types : List ValueType) (id : Nat) (v : Value) : Prop :=
  v.Typed τ ∧ ∃ type, types[id]? = some type ∧ type.accepts v = true

theorem Value.Fits.accepted_of_list {τ : Typing} {l : ListRef} {v : Value}
    (fits : v.Fits τ τ.lists l.id) (made : (Value.list l).Typed τ) :
    v.Typed τ ∧ l.elementType.accepts v = true := by
  obtain ⟨typed, type, recorded, accepted⟩ := fits
  cases made with
  | list made =>
      cases made.symm.trans recorded
      exact ⟨typed, accepted⟩

theorem Value.Fits.accepted_of_map {τ : Typing} {m : MapRef} {v : Value}
    (fits : v.Fits τ τ.maps m.id) (made : (Value.map m).Typed τ) :
    v.Typed τ ∧ m.valueType.accepts v = true := by
  obtain ⟨typed, type, recorded, accepted⟩ := fits
  cases made with
  | map made =>
      cases made.symm.trans recorded
      exact ⟨typed, accepted⟩

/-- Every list and map is recorded, every reference is as recorded, and what lists and
maps hold is accepted by their types. -/
structure Heap.Sound (τ : Typing) (h : Heap) : Prop where
  listCount : τ.lists.length = h.lists.size
  mapCount : τ.maps.length = h.maps.size
  slots : h.objects.All fun _ slots => slots.All (Value.Typed τ)
  items : h.lists.All fun id items => ∀ v ∈ items, v.Fits τ τ.lists id
  entries : h.maps.All fun id entries => entries.All (Value.Fits τ τ.maps id)
  cursors : h.cursors.All fun _ c => c.Typed τ

/-! Foreign functions that give back no references but such as they were given or found. -/

def Getter.Keeps (τ : Typing) (get : Getter) : Prop :=
  ∀ h slots v, h.Sound τ → slots.All (Value.Typed τ) → get h slots = .ok v → v.Typed τ

def Setter.Keeps (τ : Typing) (set : Setter) : Prop :=
  ∀ h slots v after, h.Sound τ → slots.All (Value.Typed τ) → v.Typed τ →
    set h slots v = .ok after → after.All (Value.Typed τ)

/-- Only the members of objects are read and written through foreign functions. -/
def Access.Keeps (τ : Typing) : Access → Prop
  | .object _ reader writer => (∀ get, reader = some get → get.Keeps τ) ∧
      ∀ set accepted, writer = some (set, accepted) → set.Keeps τ
  | _ => True

def Registry.Keeps (τ : Typing) (r : Registry) : Prop :=
  ∀ u ∈ r.types, (∀ a ∈ u.accessors, a.getter.Keeps τ) ∧ ∀ m ∈ u.mutators, m.setter.Keeps τ

section Reading

variable {τ : Typing} {h : Heap} {target v : Value}

theorem Heap.Sound.typed_slots (sound : h.Sound τ) (o : ObjectRef) :
    (h.slots o).All (Value.Typed τ) :=
  sound.slots.getD o.id Dict.all_empty

theorem Heap.Sound.fits_items (sound : h.Sound τ) (l : ListRef) :
    ∀ v ∈ h.items l, v.Fits τ τ.lists l.id := by
  apply sound.items.getD l.id
  simp

theorem Heap.Sound.fits_entries (sound : h.Sound τ) (m : MapRef) :
    (h.entries m).All (Value.Fits τ τ.maps m.id) :=
  sound.entries.getD m.id Dict.all_empty

theorem Heap.Sound.typed_item {l : ListRef} {i : Nat} (sound : h.Sound τ)
    (read : h.item l i = .ok v) : v.Typed τ := by
  rw [Heap.item] at read
  split at read
  · rename_i item stands
    cases read
    exact (sound.fits_items l v (List.mem_of_getElem? stands)).1
  · cases read

theorem Heap.Sound.typed_entry (sound : h.Sound τ) (m : MapRef) (key : String) :
    (h.entry m key).Typed τ := by
  have typed : (h.entries m).All (Value.Typed τ) := fun key v found =>
    (sound.fits_entries m key v found).1
  exact typed.getD key .null

theorem Value.Typed.param {t : Tag} (typed : (Value.tag t).Typed τ) (name : String) :
    ((t.get? name).getD .null).Typed τ := by
  cases given : t.get? name with
  | none => exact .null
  | some v =>
      cases typed with
      | tag params => exact params _ (Pairs.mem_of_get? given)

theorem Heap.Sound.typed_cursor (sound : h.Sound τ) (c : CursorRef) : (h.cursor c).Typed τ := by
  apply sound.cursors.getD c.id
  refine ⟨?_, ?_⟩
  · intro n v answered
    cases answered
  · intro label v answered
    cases answered

theorem RowSet.typed_of_byOrdinal {s : RowSet} (typed : (Cursor.rows s).Typed τ) {n : Nat}
    (read : s.byOrdinal n = .ok v) : v.Typed τ := by
  rw [byOrdinal] at read
  split at read
  · cases read
  · obtain ⟨row, current, rfl⟩ := map_eq_ok.1 read
    rw [currentRow] at current
    split at current
    · rename_i row' at_position
      cases current
      obtain ⟨i, -, there⟩ := Option.bind_eq_some_iff.1 at_position
      cases cell : row[n - 1]? with
      | none => exact .null
      | some v => exact typed row (List.mem_of_getElem? there) v (List.mem_of_getElem? cell)
    · cases current

theorem Cursor.Typed.of_byOrdinal {c : Cursor} (typed : c.Typed τ) {n : Nat}
    (read : c.byOrdinal n = .ok v) : v.Typed τ := by
  cases c with
  | rows s => exact s.typed_of_byOrdinal typed (mapError_eq_ok.1 read)
  | foreign c => exact typed.1 n v read

theorem Cursor.Typed.of_byLabel {c : Cursor} (typed : c.Typed τ) {label : String}
    (read : c.byLabel label = .ok v) : v.Typed τ := by
  cases c with
  | rows s =>
      have read := mapError_eq_ok.1 read
      rw [RowSet.byLabel] at read
      split at read
      · exact s.typed_of_byOrdinal typed read
      · cases read
  | foreign c => exact typed.2 label v read

/-- What is read is as recorded. -/
theorem Access.Keeps.typed_of_read {a : Access} (keeps : a.Keeps τ) (sound : h.Sound τ)
    (typed : target.Typed τ) (read : a.read h target = .ok v) : v.Typed τ := by
  cases a with
  | object type reader writer =>
      cases target with
      | object o =>
          simp only [Access.read, readObject] at read
          split at read
          · split at read
            · rename_i get
              exact keeps.1 get rfl h (h.slots o) v sound (sound.typed_slots o) read
            · cases read
          · cases read
      | _ => cases read
  | param name =>
      cases target with
      | tag t =>
          cases read
          exact typed.param name
      | _ => cases read
  | index position =>
      cases target with
      | list l =>
          obtain ⟨i, -, read⟩ := bind_eq_ok.1 (mapError_eq_ok.1 read)
          exact sound.typed_item read
      | _ => cases read
  | key name =>
      cases target with
      | map m =>
          cases read
          exact sound.typed_entry m name
      | _ => cases read
  | property name =>
      cases target with
      | properties p =>
          cases read
          cases h.property? p name with
          | none => exact .null
          | some text => exact .string text
      | _ => cases read
  | column column =>
      cases target with
      | cursor c =>
          cases column with
          | ordinal n => exact (sound.typed_cursor c).of_byOrdinal read
          | label text => exact (sound.typed_cursor c).of_byLabel read
      | _ => cases read

/-! Writing. -/

theorem Heap.Sound.setSlots (sound : h.Sound τ) (o : ObjectRef) {slots : Dict Value}
    (new : slots.All (Value.Typed τ)) : (h.setSlots o slots).Sound τ :=
  { sound with slots := sound.slots.set new }

theorem Heap.Sound.setItems (sound : h.Sound τ) (l : ListRef) {items : List Value}
    (new : ∀ v ∈ items, v.Fits τ τ.lists l.id) : (h.setItems l items).Sound τ :=
  { sound with
    listCount := sound.listCount.trans (Store.size_set _ _ _).symm
    items := sound.items.set new }

theorem Heap.Sound.setEntries (sound : h.Sound τ) (m : MapRef) {entries : Dict Value}
    (new : entries.All (Value.Fits τ τ.maps m.id)) : (h.setEntries m entries).Sound τ :=
  { sound with
    mapCount := sound.mapCount.trans (Store.size_set _ _ _).symm
    entries := sound.entries.set new }

theorem Heap.Sound.setPropertyDict (sound : h.Sound τ) (p : PropertiesRef) (d : Dict String) :
    (h.setPropertyDict p d).Sound τ :=
  { sound with }

theorem Value.Typed.fits_item {l : ListRef} (made : (Value.list l).Typed τ) (typed : v.Typed τ)
    (accepted : l.elementType.accepts v = true) : v.Fits τ τ.lists l.id := by
  cases made with
  | list made => exact ⟨typed, _, made, accepted⟩

theorem Value.Typed.fits_entry {m : MapRef} (made : (Value.map m).Typed τ) (typed : v.Typed τ)
    (accepted : m.valueType.accepts v = true) : v.Fits τ τ.maps m.id := by
  cases made with
  | map made => exact ⟨typed, _, made, accepted⟩

theorem Heap.Sound.setItem {l : ListRef} {i : Nat} (sound : h.Sound τ)
    (made : (Value.list l).Typed τ) (typed : v.Typed τ)
    (accepted : l.elementType.accepts v = true) :
    (h.setItems l ((h.items l).set i v)).Sound τ := by
  refine sound.setItems l ?_
  intro u hu
  rcases List.mem_or_eq_of_mem_set hu with hu | rfl
  · exact sound.fits_items l u hu
  · exact made.fits_item typed accepted

theorem Heap.Sound.insertEntry {m : MapRef} (sound : h.Sound τ) (made : (Value.map m).Typed τ)
    (typed : v.Typed τ) (accepted : m.valueType.accepts v = true) (key : String) :
    (h.setEntries m ((h.entries m).insert key v)).Sound τ :=
  sound.setEntries m ((sound.fits_entries m).insert key (made.fits_entry typed accepted))

/-- A write of a value that is as recorded keeps the heap sound. -/
theorem Heap.Sound.of_writes {a : Access} {after : Heap} (sound : h.Sound τ) (keeps : a.Keeps τ)
    (owner : target.Typed τ) (typed : v.Typed τ) (writes : a.Writes h v target after) :
    after.Sound τ := by
  cases writes with
  | @slots o type reader setter accepted slots inst fits set =>
      exact sound.setSlots o
        (keeps.2 setter accepted rfl h (h.slots o) v slots sound (sound.typed_slots o) typed set)
  | item place within fits => exact sound.setItem owner typed fits
  | @entry m key fits => exact sound.insertEntry owner typed fits key
  | property string => exact sound.setPropertyDict _ _
  | removal null => exact sound.setPropertyDict _ _

end Reading

/-! Making containers.  What was as recorded stays so, since a typing only grows. -/

theorem Cursor.Typed.grow {τ τ' : Typing} {c : Cursor} (typed : c.Typed τ) (grows : τ.Grows τ') :
    c.Typed τ' := by
  cases c with
  | rows s =>
      intro row hrow v hv
      exact (typed row hrow v hv).grow grows
  | foreign c =>
      refine ⟨?_, ?_⟩
      · intro n v read
        exact (typed.1 n v read).grow grows
      · intro label v read
        exact (typed.2 label v read).grow grows

theorem Value.Fits.grow {τ τ' : Typing} {types types' : List ValueType} {id : Nat} {v : Value}
    (fits : v.Fits τ types id) (grows : τ.Grows τ')
    (kept : ∀ type, types[id]? = some type → types'[id]? = some type) : v.Fits τ' types' id := by
  obtain ⟨typed, type, recorded, accepted⟩ := fits
  exact ⟨typed.grow grows, type, kept type recorded, accepted⟩

namespace Heap.Sound

variable {τ τ' : Typing} {h : Heap}

/-- Recording more does no harm to what there is. -/
theorem grow_contents (sound : h.Sound τ) (grows : τ.Grows τ') :
    (h.objects.All fun _ slots => slots.All (Value.Typed τ')) ∧
    (h.lists.All fun id items => ∀ v ∈ items, v.Fits τ' τ'.lists id) ∧
    (h.maps.All fun id entries => entries.All (Value.Fits τ' τ'.maps id)) ∧
    h.cursors.All fun _ c => c.Typed τ' := by
  refine ⟨?_, ?_, ?_, ?_⟩
  · refine sound.slots.imp ?_
    intro id slots all key v found
    exact (all key v found).grow grows
  · refine sound.items.imp ?_
    intro id items all v hv
    exact (all v hv).grow grows (grows.lists id)
  · refine sound.entries.imp ?_
    intro id entries all key v found
    exact (all key v found).grow grows (grows.maps id)
  · refine sound.cursors.imp ?_
    intro id c typed
    exact typed.grow grows

theorem empty : Heap.empty.Sound .empty where
  listCount := rfl
  mapCount := rfl
  slots := Store.all_empty
  items := Store.all_empty
  entries := Store.all_empty
  cursors := Store.all_empty

theorem newObject {slots : Dict Value} (sound : h.Sound τ) (new : slots.All (Value.Typed τ))
    (typeName : String) (supertypes : List String) :
    (h.newObject typeName supertypes slots).2.Sound τ :=
  { sound with slots := sound.slots.push new }

theorem newList {element : ValueType} {items : List Value} (sound : h.Sound τ)
    (new : ∀ v ∈ items, v.Typed τ ∧ element.accepts v = true) :
    (h.newList element items).2.Sound (τ.withList element) := by
  have grows := τ.grows_withList element
  obtain ⟨slots, lists, entries, cursors⟩ := sound.grow_contents grows
  refine ⟨?_, sound.mapCount, slots, lists.push ?_, entries, cursors⟩
  · simp [Heap.newList, Typing.withList, Store.size_push, sound.listCount]
  · intro v hv
    refine ⟨(new v hv).1.grow grows, element, ?_, (new v hv).2⟩
    simp [Typing.withList, ← sound.listCount]

theorem newMap (sound : h.Sound τ) (value : ValueType) :
    (h.newMap value).2.Sound (τ.withMap value) := by
  obtain ⟨slots, lists, entries, cursors⟩ := sound.grow_contents (τ.grows_withMap value)
  refine ⟨sound.listCount, ?_, slots, lists, entries.push Dict.all_empty, cursors⟩
  simp [Heap.newMap, Typing.withMap, Store.size_push, sound.mapCount]

theorem newProperties (sound : h.Sound τ) (d : Dict String) : (h.newProperties d).2.Sound τ :=
  { sound with }

theorem newCursor {c : Cursor} (sound : h.Sound τ) (new : c.Typed τ) :
    (h.newCursor c).2.Sound τ :=
  { sound with cursors := sound.cursors.push new }

end Heap.Sound

/-! Using containers directly. -/

namespace Heap.Sound

variable {τ : Typing} {h after : Heap} {v : Value}

theorem of_setItem {l : ListRef} {i : Nat} (sound : h.Sound τ) (made : (Value.list l).Typed τ)
    (typed : v.Typed τ) (set : h.setItem l i v = .ok after) : after.Sound τ := by
  rw [Heap.setItem] at set
  split at set
  · rename_i accepted
    split at set
    · cases set
      exact sound.setItem made typed accepted
    · cases set
  · cases set

theorem of_pushItem {l : ListRef} (sound : h.Sound τ) (made : (Value.list l).Typed τ)
    (typed : v.Typed τ) (pushed : h.pushItem l v = .ok after) : after.Sound τ := by
  rw [Heap.pushItem] at pushed
  split at pushed
  · rename_i accepted
    cases pushed
    refine sound.setItems l ?_
    intro u hu
    rcases List.mem_append.1 hu with hu | hu
    · exact sound.fits_items l u hu
    · rw [List.mem_singleton.1 hu]
      exact made.fits_item typed accepted
  · cases pushed

theorem of_insertEntry {m : MapRef} {key : String} (sound : h.Sound τ)
    (made : (Value.map m).Typed τ) (typed : v.Typed τ)
    (inserted : h.insertEntry m key v = .ok after) : after.Sound τ := by
  rw [Heap.insertEntry] at inserted
  split at inserted
  · rename_i accepted
    cases inserted
    exact sound.insertEntry made typed accepted key
  · cases inserted

theorem eraseEntry (sound : h.Sound τ) (m : MapRef) (key : String) :
    (h.eraseEntry m key).Sound τ :=
  sound.setEntries m ((sound.fits_entries m).erase key)

theorem of_nextRow? {c : CursorRef} {onRow : Bool} (sound : h.Sound τ)
    (moved : h.nextRow? c = some (onRow, after)) : after.Sound τ := by
  have typed := sound.typed_cursor c
  rw [Heap.nextRow?] at moved
  split at moved
  · rename_i s there
    cases moved
    rw [there] at typed
    exact { sound with cursors := sound.cursors.set typed }
  · cases moved

end Heap.Sound

end Memberwise
