import Mathlib.Data.List.Induction
import Memberwise.Registry.Basic

/-!
# Filling the slots of new objects

Initial values are made one field after another.  The heap only grows on the way
(`Heap.Within`), and an empty container that is made for a field is made behind all that
are there, so it is none of these and none of the others.  The last field of a name has its
slot in the end (`Registry.Filled`).
-/

namespace Memberwise

/-- The cells of a store are in another one as they are. -/
structure Store.Within {α : Type} (s after : Store α) : Prop where
  size : s.size ≤ after.size
  cells : ∀ id, id < s.size → after.get? id = s.get? id

namespace Store.Within

variable {α : Type} {s mid after : Store α}

theorem refl (s : Store α) : s.Within s :=
  ⟨Nat.le_refl _, fun _ _ => rfl⟩

theorem trans (first : s.Within mid) (second : mid.Within after) : s.Within after where
  size := Nat.le_trans first.size second.size
  cells id lt :=
    (second.cells id (Nat.lt_of_lt_of_le lt first.size)).trans (first.cells id lt)

theorem push (s : Store α) (cell : α) : s.Within (s.push cell) where
  size := by
    rw [size_push]
    exact Nat.le_succ _
  cells id lt := get?_push_of_lt s id cell lt

/-- What a cell holds it still holds. -/
theorem get?_eq_some (within : s.Within after) {id : Nat} {cell : α} (there : s.get? id = some cell) :
    after.get? id = some cell := by
  have lt : id < s.size := (Array.getElem?_eq_some_iff.1 there).1
  rw [within.cells id lt, there]

end Store.Within

/-- All containers of a heap are in another one with the same contents. -/
structure Heap.Within (h after : Heap) : Prop where
  objects : h.objects.Within after.objects
  lists : h.lists.Within after.lists
  maps : h.maps.Within after.maps
  properties : h.properties.Within after.properties
  cursors : h.cursors.Within after.cursors

namespace Heap

variable {h mid after : Heap} {v w : Value}

theorem Within.refl (h : Heap) : h.Within h :=
  ⟨.refl _, .refl _, .refl _, .refl _, .refl _⟩

theorem Within.trans (first : h.Within mid) (second : mid.Within after) : h.Within after where
  objects := first.objects.trans second.objects
  lists := first.lists.trans second.lists
  maps := first.maps.trans second.maps
  properties := first.properties.trans second.properties
  cursors := first.cursors.trans second.cursors

theorem Within.live (within : h.Within after) (live : h.Live v) : after.Live v := by
  cases v with
  | object o => exact Nat.lt_of_lt_of_le live within.objects.size
  | list l => exact Nat.lt_of_lt_of_le live within.lists.size
  | map m => exact Nat.lt_of_lt_of_le live within.maps.size
  | properties p => exact Nat.lt_of_lt_of_le live within.properties.size
  | cursor c => exact Nat.lt_of_lt_of_le live within.cursors.size
  | _ => trivial

theorem within_newObject (h : Heap) (typeName : String) (supertypes : List String)
    (slots : Dict Value) : h.Within (h.newObject typeName supertypes slots).2 :=
  { Within.refl h with objects := .push h.objects slots }

theorem live_newObject (h : Heap) (typeName : String) (supertypes : List String)
    (slots : Dict Value) : (h.newObject typeName supertypes slots).2.Live
      (.object (h.newObject typeName supertypes slots).1) :=
  Nat.lt_of_lt_of_eq (Nat.lt_succ_self _) (Store.size_push h.objects slots).symm

theorem slots_newObject (h : Heap) (typeName : String) (supertypes : List String)
    (slots : Dict Value) : (h.newObject typeName supertypes slots).2.slots
      (h.newObject typeName supertypes slots).1 = slots := by
  rw [Heap.slots, newObject, Store.get?_push_self]
  rfl

/-- A container that exists is none that does not. -/
theorem same_eq_false_of_live (dead : ¬h.Live v) (live : h.Live w) :
    v.same w = false ∧ w.same v = false := by
  have apart : ∀ {a b n : Nat}, ¬a < n → b < n → (a == b) = false ∧ (b == a) = false := by
    intro a b n dead live
    have differ : b ≠ a := fun same => dead (same ▸ live)
    exact ⟨beq_eq_false_iff_ne.2 differ.symm, beq_eq_false_iff_ne.2 differ⟩
  cases v with
  | object o =>
      cases w with
      | object p => exact apart dead live
      | _ => exact ⟨rfl, rfl⟩
  | list l =>
      cases w with
      | list k => exact apart dead live
      | _ => exact ⟨rfl, rfl⟩
  | map m =>
      cases w with
      | map k => exact apart dead live
      | _ => exact ⟨rfl, rfl⟩
  | properties p =>
      cases w with
      | properties q => exact apart dead live
      | _ => exact ⟨rfl, rfl⟩
  | cursor c =>
      cases w with
      | cursor e => exact apart dead live
      | _ => exact ⟨rfl, rfl⟩
  | _ => exact absurd trivial dead

/-- An empty container of a type, made after one heap and there in another. -/
inductive MakesEmpty (h after : Heap) : ValueType → Value → Prop
  | list {l : ListRef} (new : h.lists.size ≤ l.id) (made : after.lists.get? l.id = some []) :
      MakesEmpty h after (.list l.elementType) (.list l)
  | map {m : MapRef} (new : h.maps.size ≤ m.id) (made : after.maps.get? m.id = some .empty) :
      MakesEmpty h after (.map m.valueType) (.map m)
  | properties {p : PropertiesRef} (new : h.properties.size ≤ p.id)
      (made : after.properties.get? p.id = some .empty) :
      MakesEmpty h after .properties (.properties p)

namespace MakesEmpty

variable {type : ValueType} {before later : Heap}

theorem not_live (makes : h.MakesEmpty after type v) : ¬h.Live v := by
  cases makes with
  | list new made => exact Nat.not_lt_of_le new
  | map new made => exact Nat.not_lt_of_le new
  | properties new made => exact Nat.not_lt_of_le new

theorem live (makes : h.MakesEmpty after type v) : after.Live v := by
  cases makes with
  | list new made => exact (Array.getElem?_eq_some_iff.1 made).1
  | map new made => exact (Array.getElem?_eq_some_iff.1 made).1
  | properties new made => exact (Array.getElem?_eq_some_iff.1 made).1

theorem widen (makes : h.MakesEmpty after type v) (before_h : before.Within h)
    (after_later : after.Within later) : before.MakesEmpty later type v := by
  cases makes with
  | list new made =>
      exact .list (Nat.le_trans before_h.lists.size new) (after_later.lists.get?_eq_some made)
  | map new made =>
      exact .map (Nat.le_trans before_h.maps.size new) (after_later.maps.get?_eq_some made)
  | properties new made =>
      exact .properties (Nat.le_trans before_h.properties.size new)
        (after_later.properties.get?_eq_some made)

end MakesEmpty

end Heap

/-- There are empty values of the type to start with. -/
def ValueType.hasEmpty : ValueType → Bool
  | .list _ | .map _ | .properties => true
  | _ => false

/-- Every object gets an empty container of its own for the field. -/
def Field.ownsContainer (f : Field) : Bool :=
  f.initial.isNone && f.initialized && f.type.hasEmpty

/-- What a field starts with in an object that is made between two heaps: its default, else an
empty container of its own if it is to be initialized and there are such, else null. -/
inductive Field.StartsAs (f : Field) (h after : Heap) : Value → Prop
  | default {v : Value} (given : f.initial = some v) : StartsAs f h after v
  | empty {v : Value} (own : f.ownsContainer = true) (makes : h.MakesEmpty after f.type v) :
      StartsAs f h after v
  | null (bare : f.initial = none) (none : f.ownsContainer = false) : StartsAs f h after .null

namespace Field

variable {f : Field} {h mid after before later : Heap} {v : Value}

theorem initial_of_ownsContainer (own : f.ownsContainer = true) : f.initial = none := by
  rw [ownsContainer, Bool.and_eq_true, Bool.and_eq_true] at own
  exact Option.isNone_iff_eq_none.1 own.1.1

namespace StartsAs

theorem widen (starts : f.StartsAs h after v) (before_h : before.Within h)
    (after_later : after.Within later) : f.StartsAs before later v := by
  cases starts with
  | default given => exact .default given
  | empty own makes => exact .empty own (makes.widen before_h after_later)
  | null bare none => exact .null bare none

theorem makesEmpty (starts : f.StartsAs h after v) (own : f.ownsContainer = true) :
    h.MakesEmpty after f.type v := by
  cases starts with
  | default given =>
      rw [initial_of_ownsContainer own] at given
      cases given
  | empty _ makes => exact makes
  | null _ none =>
      rw [own] at none
      cases none

/-- A value that is not new was there before, if the default was. -/
theorem live_or_makesEmpty (starts : f.StartsAs h after v) (there : ∀ d ∈ f.initial, h.Live d) :
    h.Live v ∨ h.MakesEmpty after f.type v := by
  cases starts with
  | default given => exact .inl (there v given)
  | empty own makes => exact .inr makes
  | null bare none => exact .inl trivial

end StartsAs

end Field

namespace Registry

variable {r : Registry} {s : TypeDefinition} {h after : Heap} {f : Field} {fields : List Field}
  {slots : Dict Value}

/-! ### One field -/

theorem within_emptyContainer (h : Heap) (type : ValueType) :
    h.Within (emptyContainer h type).2 := by
  cases type with
  | list element => exact { Heap.Within.refl h with lists := .push h.lists [] }
  | map value => exact { Heap.Within.refl h with maps := .push h.maps .empty }
  | properties => exact { Heap.Within.refl h with properties := .push h.properties .empty }
  | _ => exact .refl h

theorem makesEmpty_emptyContainer (h : Heap) {type : ValueType} (some : type.hasEmpty = true) :
    h.MakesEmpty (emptyContainer h type).2 type (emptyContainer h type).1 := by
  cases type with
  | list element =>
      exact .list (l := ⟨h.lists.size, element⟩) (Nat.le_refl _) (h.lists.get?_push_self [])
  | map value =>
      exact .map (m := ⟨h.maps.size, value⟩) (Nat.le_refl _) (h.maps.get?_push_self .empty)
  | properties =>
      exact .properties (p := ⟨h.properties.size⟩) (Nat.le_refl _)
        (h.properties.get?_push_self .empty)
  | _ => cases some

theorem emptyContainer_of_none (h : Heap) {type : ValueType} (none : type.hasEmpty = false) :
    emptyContainer h type = (.null, h) := by
  cases type with
  | list | map | properties => cases none
  | _ => rfl

theorem initialValue_of_ownsContainer (h : Heap) (own : f.ownsContainer = true) :
    initialValue h f = emptyContainer h f.type := by
  have initialized : f.initialized = true := by
    rw [Field.ownsContainer, Bool.and_eq_true, Bool.and_eq_true] at own
    exact own.1.2
  rw [initialValue, Field.initial_of_ownsContainer own]
  exact if_pos initialized

theorem initialValue_of_bare (h : Heap) (bare : f.initial = none)
    (none : f.ownsContainer = false) : initialValue h f = (.null, h) := by
  rw [initialValue, bare]
  cases initialized : f.initialized with
  | true =>
      rw [Field.ownsContainer, bare, initialized] at none
      exact emptyContainer_of_none h none
  | false => rfl

/-- What is made for a field, in a heap that keeps all it had. -/
theorem startsAs_initialValue (h : Heap) (f : Field) :
    h.Within (initialValue h f).2 ∧ f.StartsAs h (initialValue h f).2 (initialValue h f).1 := by
  cases given : f.initial with
  | some v =>
      have start : initialValue h f = (v, h) := by rw [initialValue, given]
      rw [start]
      exact ⟨.refl h, .default given⟩
  | none =>
      cases own : f.ownsContainer with
      | true =>
          have some : f.type.hasEmpty = true := by
            rw [Field.ownsContainer, Bool.and_eq_true] at own
            exact own.2
          rw [initialValue_of_ownsContainer h own]
          exact ⟨within_emptyContainer h f.type, .empty own (makesEmpty_emptyContainer h some)⟩
      | false =>
          rw [initialValue_of_bare h given own]
          exact ⟨.refl h, .null given own⟩

/-! ### All fields -/

/-- The field whose value a slot ends with, the last one of the name. -/
def lastField? (fields : List Field) (name : String) : Option Field :=
  fields.reverse.find? (·.name == name)

theorem lastField?_concat_self (fields : List Field) (f : Field) :
    lastField? (fields ++ [f]) f.name = some f := by
  rw [lastField?, List.reverse_append, List.reverse_singleton, List.singleton_append]
  exact List.find?_cons_of_pos (beq_self_eq_true f.name)

theorem lastField?_concat_of_ne (fields : List Field) {name : String} (ne : name ≠ f.name) :
    lastField? (fields ++ [f]) name = lastField? fields name := by
  rw [lastField?, List.reverse_append, List.reverse_singleton, List.singleton_append]
  exact List.find?_cons_of_neg (by simpa using ne.symm)

/-- The slots that were filled for fields from one heap to another.  Slots are present for
the names of the fields only.  A container that was made for a field is in no other slot,
unless as a default that was not there when the slots were filled. -/
structure Filled (h : Heap) (fields : List Field) (slots : Dict Value) (after : Heap) :
    Prop where
  within : h.Within after
  present : ∀ name, (slots.get? name).isSome = (lastField? fields name).isSome
  starts : ∀ {name f v}, lastField? fields name = some f → slots.get? name = some v →
    f.StartsAs h after v
  apart : ∀ {name name' f f' v v'}, name ≠ name' →
    lastField? fields name = some f → slots.get? name = some v →
    lastField? fields name' = some f' → slots.get? name' = some v' →
    f.ownsContainer = true → (∀ d ∈ f'.initial, h.Live d) → v.same v' = false

theorem filled_nil (h : Heap) : Filled h [] .empty h where
  within := .refl h
  present _ := rfl
  starts found := nomatch found
  apart _ found := nomatch found

/-- The next field takes the slot of its name.  What is made for it is new, and so none of what
the other slots hold. -/
theorem Filled.concat (filled : Filled h fields slots after) (f : Field) :
    Filled h (fields ++ [f]) (slots.insert f.name (initialValue after f).1)
      (initialValue after f).2 := by
  obtain ⟨grows, made⟩ := startsAs_initialValue after f
  have others : ∀ {name f'}, name ≠ f.name → lastField? (fields ++ [f]) name = some f' →
      lastField? fields name = some f' := fun ne found =>
    (lastField?_concat_of_ne fields ne).symm.trans found
  have slots_eq : ∀ {name v}, name ≠ f.name →
      (slots.insert f.name (initialValue after f).1).get? name = some v →
      slots.get? name = some v := fun ne slot =>
    (Dict.get?_insert_of_ne _ _ _ _ ne).symm.trans slot
  refine ⟨filled.within.trans grows, ?_, ?_, ?_⟩
  · intro name
    by_cases here : name = f.name
    · rw [here, lastField?_concat_self, Dict.get?_insert_self]
      rfl
    · rw [lastField?_concat_of_ne fields here, Dict.get?_insert_of_ne _ _ _ _ here]
      exact filled.present name
  · intro name g v found slot
    by_cases here : name = f.name
    · subst here
      cases (lastField?_concat_self fields f).symm.trans found
      cases (Dict.get?_insert_self _ _ _).symm.trans slot
      exact made.widen filled.within (.refl _)
    · exact (filled.starts (others here found) (slots_eq here slot)).widen (.refl h) grows
  · intro name name' g g' v v' differ found slot found' slot' own there
    by_cases here : name = f.name
    · -- made now, after all that the other slot holds
      subst here
      cases (lastField?_concat_self fields f).symm.trans found
      cases (Dict.get?_insert_self _ _ _).symm.trans slot
      have starts' := filled.starts (others differ.symm found') (slots_eq differ.symm slot')
      have live : after.Live v' := by
        rcases starts'.live_or_makesEmpty there with live | makes
        · exact filled.within.live live
        · exact makes.live
      exact (Heap.same_eq_false_of_live (made.makesEmpty own).not_live live).1
    · have starts := filled.starts (others here found) (slots_eq here slot)
      have makes := starts.makesEmpty own
      by_cases here' : name' = f.name
      · -- made before, after what defaults refer to and before what is made now
        subst here'
        cases (lastField?_concat_self fields f).symm.trans found'
        cases (Dict.get?_insert_self _ _ _).symm.trans slot'
        generalize (initialValue after f).1 = new at made ⊢
        cases made with
        | default given => exact (Heap.same_eq_false_of_live makes.not_live (there _ given)).1
        | empty _ made => exact (Heap.same_eq_false_of_live made.not_live makes.live).2
        | null => exact (Heap.same_eq_false_of_live (w := .null) makes.not_live trivial).1
      · exact filled.apart differ (others here found) (slots_eq here slot)
          (others here' found') (slots_eq here' slot') own there

theorem filled_fillSlots (h : Heap) (fields : List Field) :
    Filled h fields (fillSlots (.empty, h) fields).1 (fillSlots (.empty, h) fields).2 := by
  induction fields using List.reverseRecOn with
  | nil => exact filled_nil h
  | append_singleton fields f ih =>
      rw [fillSlots, List.foldl_append]
      exact ih.concat f

theorem isSome_lastField? {name : String} :
    (lastField? fields name).isSome ↔ ∃ f ∈ fields, f.name = name := by
  simp only [lastField?, List.find?_isSome, List.mem_reverse, beq_iff_eq]

namespace Filled

theorem isSome_get? (filled : Filled h fields slots after) (name : String) :
    (slots.get? name).isSome ↔ ∃ f ∈ fields, f.name = name := by
  rw [filled.present, isSome_lastField?]

theorem exists_lastField? (filled : Filled h fields slots after) {name : String} {v : Value}
    (slot : slots.get? name = some v) : ∃ f, lastField? fields name = some f := by
  rw [← Option.isSome_iff_exists, ← filled.present, slot]
  rfl

theorem widen (filled : Filled h fields slots after) {later : Heap} (grows : after.Within later) :
    Filled h fields slots later where
  within := filled.within.trans grows
  present := filled.present
  starts found slot := (filled.starts found slot).widen (.refl h) grows
  apart := filled.apart

end Filled

/-- The object that is made of a type is new, and its slots are filled for all fields along
the lineage, ancestors first. -/
theorem filled_of_instantiate {name : String} {o : ObjectRef}
    (made : r.instantiate h name = .ok (o, after)) :
    ¬h.Live (.object o) ∧ after.Live (.object o) ∧
      Filled h ((r.lineage name).reverse.flatMap (·.fields)) (after.slots o) after := by
  have filled := filled_fillSlots h ((r.lineage name).reverse.flatMap (·.fields))
  generalize filling :
    fillSlots (.empty, h) ((r.lineage name).reverse.flatMap (·.fields)) = start at filled
  obtain ⟨slots, mid⟩ := start
  simp only [instantiate, filling] at made
  split at made
  · cases made
  · rename_i s known
    split at made
    · cases made
    · cases made
      refine ⟨Nat.not_lt_of_le filled.within.objects.size, mid.live_newObject _ _ _, ?_⟩
      show Filled h _ ((mid.newObject s.name s.supertypes slots).2.slots
        (mid.newObject s.name s.supertypes slots).1) _
      rw [Heap.slots_newObject]
      exact filled.widen (mid.within_newObject s.name s.supertypes slots)

end Registry

end Memberwise
