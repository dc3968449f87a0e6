import Mathlib.Data.List.Perm.Basic
import Memberwise.Proofs.Pairs
import Memberwise.Proofs.RoundTrips
import Memberwise.Proofs.Writing

/-!
# What containers hold

At each of its places a container holds a value or nothing.  What it holds there is
all that there is to it: heaps that agree on one container place by place, and on
all others, are the same (`Heap.eq_of_at?`).  A write that is kept changes what is
held at one place, and can be made again in any heap that differs from the first
only in what the container holds, not in how long it is (`Access.Writes.again`).
-/

namespace Memberwise

theorem Pairs.eq_of_get? {α : Type} {ps qs : List (String × α)} (hps : Ascending ps)
    (hqs : Ascending qs) (same : ∀ key, get? key ps = get? key qs) : ps = qs := by
  have nodup : ∀ {rs : List (String × α)}, Ascending rs → rs.Nodup := by
    intro rs ascending
    refine List.Pairwise.imp ?_ ascending
    rintro p _ lt rfl
    exact String.lt_irrefl p.1 lt
  have members : ∀ p, p ∈ ps ↔ p ∈ qs := by
    rintro ⟨key, v⟩
    constructor
    · intro h
      exact mem_of_get? ((same key).symm.trans (get?_of_mem hps h))
    · intro h
      exact mem_of_get? ((same key).trans (get?_of_mem hqs h))
  refine List.Perm.eq_of_pairwise (fun p q _ _ lt gt => ?_) hps hqs
    ((List.perm_ext_iff_of_nodup (nodup hps) (nodup hqs)).2 members)
  exact absurd (String.lt_trans lt gt) (String.lt_irrefl p.1)

theorem Dict.eq_of_get? {α : Type} {d e : Dict α} (same : ∀ key, d.get? key = e.get? key) :
    d = e := by
  obtain ⟨ps, hps⟩ := d
  obtain ⟨qs, hqs⟩ := e
  congr
  exact Pairs.eq_of_get? hps hqs same

theorem Store.eq_of_get? {α : Type} {s t : Store α} (same : ∀ id, s.get? id = t.get? id) :
    s = t := by
  obtain ⟨cells⟩ := s
  obtain ⟨cells'⟩ := t
  exact congrArg Store.mk (Array.ext_getElem? same)

/-- Stores that agree but on one cell, and on that too, if it counts for the default
where it is missing, are the same. -/
theorem Store.eq_of_others {α : Type} {s t : Store α} {id : Nat} (default : α) (used : id < s.size)
    (size : t.size = s.size) (others : ∀ other, other ≠ id → t.get? other = s.get? other)
    (cell : (t.get? id).getD default = (s.get? id).getD default) : t = s := by
  refine eq_of_get? fun other => ?_
  by_cases same : other = id
  · subst same
    have used' : other < t.size := size ▸ used
    simp only [get?, Array.getElem?_eq_getElem (show other < s.cells.size from used),
      Array.getElem?_eq_getElem (show other < t.cells.size from used'), Option.getD_some] at cell ⊢
    rw [cell]
  · exact others other same

/-- What a container holds at a place, if anything. -/
def Heap.at? (h : Heap) : Value → Place → Option Value
  | .object o, .slot name => (h.slots o).get? name
  | .list l, .item i => (h.items l)[i]?
  | .map m, .entry key => (h.entries m).get? key
  | .properties p, .property key => (h.property? p key).map .string
  | _, _ => none

/-- What is held at a place once a value is written there.  A property that is null
is none. -/
def Place.kept : Place → Value → Option Value
  | .property _, .null => none
  | _, v => some v

/-- The name that a place goes by, if it is not a position. -/
def Place.name? : Place → Option String
  | slot name | entry name | property name => some name
  | item _ => none

/-- The heaps differ at most in what one container holds at its places; a list has
as many. -/
structure Heap.Refilled (owner : Value) (h after : Heap) : Prop where
  others : h.SameBut owner after
  lengths : ∀ l, owner = .list l → (after.items l).length = (h.items l).length

namespace Heap

variable {h mid after : Heap} {owner other : Value}

theorem SameBut.refl (owner : Value) (h : Heap) : h.SameBut owner h :=
  ⟨fun _ _ => rfl, fun _ _ => rfl, fun _ _ => rfl, fun _ _ => rfl, rfl, rfl, rfl, rfl, rfl⟩

theorem SameBut.trans (first : h.SameBut owner mid) (second : mid.SameBut owner after) :
    h.SameBut owner after where
  objects id apart := (second.objects id apart).trans (first.objects id apart)
  lists id apart := (second.lists id apart).trans (first.lists id apart)
  maps id apart := (second.maps id apart).trans (first.maps id apart)
  properties id apart := (second.properties id apart).trans (first.properties id apart)
  cursors := second.cursors.trans first.cursors
  sizes := ⟨second.sizes.1.trans first.sizes.1, second.sizes.2.1.trans first.sizes.2.1,
    second.sizes.2.2.1.trans first.sizes.2.2.1, second.sizes.2.2.2.trans first.sizes.2.2.2⟩

theorem SameBut.symm (same : h.SameBut owner after) : after.SameBut owner h where
  objects id apart := (same.objects id apart).symm
  lists id apart := (same.lists id apart).symm
  maps id apart := (same.maps id apart).symm
  properties id apart := (same.properties id apart).symm
  cursors := same.cursors.symm
  sizes := ⟨same.sizes.1.symm, same.sizes.2.1.symm, same.sizes.2.2.1.symm, same.sizes.2.2.2.symm⟩

theorem Refilled.refl (owner : Value) (h : Heap) : h.Refilled owner h :=
  ⟨.refl owner h, fun _ _ => rfl⟩

theorem Refilled.trans (first : h.Refilled owner mid) (second : mid.Refilled owner after) :
    h.Refilled owner after :=
  ⟨first.others.trans second.others,
    fun l same => (second.lengths l same).trans (first.lengths l same)⟩

theorem Refilled.symm (refilled : h.Refilled owner after) : after.Refilled owner h :=
  ⟨refilled.others.symm, fun l same => (refilled.lengths l same).symm⟩

theorem SameBut.live (same : h.SameBut owner after) (live : h.Live owner) : after.Live owner := by
  obtain ⟨objects, lists, maps, properties⟩ := same.sizes
  cases owner with
  | object o => exact Nat.lt_of_lt_of_eq live objects.symm
  | list l => exact Nat.lt_of_lt_of_eq live lists.symm
  | map m => exact Nat.lt_of_lt_of_eq live maps.symm
  | properties p => exact Nat.lt_of_lt_of_eq live properties.symm
  | cursor c => exact Nat.lt_of_lt_of_eq live (congrArg Store.size same.cursors).symm
  | _ => trivial

/-! Another container has the same contents. -/

theorem SameBut.slots_eq {o : ObjectRef} (same : h.SameBut owner after)
    (apart : (Value.object o).same owner = false) : after.slots o = h.slots o := by
  rw [slots, slots, same.objects o.id]
  rintro o' rfl
  simpa [Value.same] using apart

theorem SameBut.items_eq {l : ListRef} (same : h.SameBut owner after)
    (apart : (Value.list l).same owner = false) : after.items l = h.items l := by
  rw [items, items, same.lists l.id]
  rintro l' rfl
  simpa [Value.same] using apart

theorem SameBut.entries_eq {m : MapRef} (same : h.SameBut owner after)
    (apart : (Value.map m).same owner = false) : after.entries m = h.entries m := by
  rw [entries, entries, same.maps m.id]
  rintro m' rfl
  simpa [Value.same] using apart

theorem SameBut.propertyDict_eq {p : PropertiesRef} (same : h.SameBut owner after)
    (apart : (Value.properties p).same owner = false) :
    after.propertyDict p = h.propertyDict p := by
  rw [propertyDict, propertyDict, same.properties p.id]
  rintro p' rfl
  simpa [Value.same] using apart

theorem SameBut.at?_eq (same : h.SameBut owner after) (apart : other.same owner = false)
    (p : Place) : after.at? other p = h.at? other p := by
  cases other with
  | object o =>
      cases p with
      | slot name => rw [at?, at?, same.slots_eq apart]
      | _ => rfl
  | list l =>
      cases p with
      | item i => rw [at?, at?, same.items_eq apart]
      | _ => rfl
  | map m =>
      cases p with
      | entry key => rw [at?, at?, same.entries_eq apart]
      | _ => rfl
  | properties store =>
      cases p with
      | property key => rw [at?, at?, property?, property?, same.propertyDict_eq apart]
      | _ => rfl
  | _ => rfl

/-- Heaps in which all containers but one are the same, and that one holds the same
at all of its places, are the same. -/
theorem eq_of_at? (same : h.SameBut owner after) (live : h.Live owner)
    (held : ∀ p, after.at? owner p = h.at? owner p) : after = h := by
  obtain ⟨objectSize, listSize, mapSize, propertySize⟩ := same.sizes
  have objects : after.objects = h.objects := by
    cases owner with
    | object o =>
        refine Store.eq_of_others .empty live objectSize ?_
          (Dict.eq_of_get? fun name => held (.slot name))
        exact fun id ne => same.objects id (by rintro _ ⟨⟩; exact ne)
    | _ => exact Store.eq_of_get? fun id => same.objects id (by rintro _ ⟨⟩)
  have lists : after.lists = h.lists := by
    cases owner with
    | list l =>
        refine Store.eq_of_others [] live listSize ?_
          (List.ext_getElem? fun i => held (.item i))
        exact fun id ne => same.lists id (by rintro _ ⟨⟩; exact ne)
    | _ => exact Store.eq_of_get? fun id => same.lists id (by rintro _ ⟨⟩)
  have maps : after.maps = h.maps := by
    cases owner with
    | map m =>
        refine Store.eq_of_others .empty live mapSize ?_
          (Dict.eq_of_get? fun key => held (.entry key))
        exact fun id ne => same.maps id (by rintro _ ⟨⟩; exact ne)
    | _ => exact Store.eq_of_get? fun id => same.maps id (by rintro _ ⟨⟩)
  have properties : after.properties = h.properties := by
    cases owner with
    | properties p =>
        have texts : ∀ key, after.property? p key = h.property? p key := fun key =>
          Option.map_injective (fun _ _ => Value.string.inj) (held (.property key))
        refine Store.eq_of_others .empty live propertySize ?_ (Dict.eq_of_get? texts)
        exact fun id ne => same.properties id (by rintro _ ⟨⟩; exact ne)
    | _ => exact Store.eq_of_get? fun id => same.properties id (by rintro _ ⟨⟩)
  show Heap.mk after.objects after.lists after.maps after.properties after.cursors = _
  rw [objects, lists, maps, properties, same.cursors]

end Heap

namespace Access

/-- The access reads what is held at the place of a name, and writes nowhere else. -/
inductive Plain (name : String) : Access → Prop
  | object {type : String} {writer : Option (Setter × ValueType)}
      (writes : ∀ path, writer = some path → path.1 = Setter.slot name) :
      Plain name (.object type (some (Getter.slot name)) writer)
  | item (p : Position) : Plain name (.index p)
  | entry (key : String) : Plain name (.key key)
  | property (key : String) : Plain name (.property key)

variable {h mid after : Heap} {a b : Access} {target source value : Value} {name other : String}
  {p q : Place}

theorem Plain.stores (plain : a.Plain name) (path : a.hasWritePath = true) : a.Stores name := by
  cases plain with
  | object writes =>
      obtain ⟨⟨setter, accepted⟩, rfl⟩ := Option.isSome_iff_exists.1 path
      exact ⟨rfl, accepted, by rw [← writes _ rfl]⟩
  | _ => trivial

/-! Places. -/

theorem place?_of_refilled (refilled : h.Refilled target after) :
    a.place? after name target = a.place? h name target := by
  cases target with
  | list l =>
      cases a with
      | index p => rw [place?, place?, refilled.lengths l rfl]
      | _ => rfl
  | _ =>
      cases a with
      | _ => rfl

theorem Writes.exists_place (writes : a.Writes h value target after) (name : String) :
    ∃ p, a.place? h name target = some p := by
  cases writes with
  | @item l p i place within fits => exact ⟨.item i, by rw [place?, place]; rfl⟩
  | _ => exact ⟨_, rfl⟩

theorem name?_of_place? (named : a.NamedBy name) (place : a.place? h name target = some p)
    (other : ∀ l, target ≠ .list l) : p.name? = some name := by
  cases target with
  | list l => exact absurd rfl (other l)
  | object o =>
      cases a with
      | object type reader writer =>
          cases place
          rfl
      | _ => cases place
  | map m =>
      cases a with
      | key k =>
          cases place
          exact congrArg some named
      | _ => cases place
  | properties store =>
      cases a with
      | property k =>
          cases place
          exact congrArg some named
      | _ => cases place
  | _ =>
      cases a with
      | _ => cases place

/-! What a write does to the places of its container. -/

theorem Writes.at?_self (writes : a.Writes h value target after) (live : h.Live target)
    (stores : a.Stores name) (place : a.place? h name target = some p) :
    after.at? target p = p.kept value := by
  cases writes with
  | @slots o type reader setter accepted slots inst fits set =>
      obtain ⟨-, _, writer⟩ := stores
      cases writer
      cases set
      cases place
      rw [Heap.at?, Heap.slots_setSlots _ _ _ live, Dict.get?_insert_self]
      rfl
  | @item l position i found within fits =>
      rw [place?, found] at place
      cases place
      rw [Heap.at?, Heap.items_setItems _ _ _ live, List.getElem?_set_self within]
      rfl
  | @entry m key fits =>
      cases place
      rw [Heap.at?, Heap.entries_setEntries _ _ _ live, Dict.get?_insert_self]
      rfl
  | @property p key text string =>
      cases place
      rw [Heap.at?, Heap.property?, Heap.setProperty,
        Heap.propertyDict_setPropertyDict _ _ _ live, Dict.get?_insert_self, string]
      rfl
  | @removal p key null =>
      cases place
      rw [Heap.at?, Heap.property?, Heap.eraseProperty,
        Heap.propertyDict_setPropertyDict _ _ _ live, Dict.get?_erase_self, null]
      rfl

theorem Writes.at?_of_ne (writes : a.Writes h value target after) (live : h.Live target)
    (stores : a.Stores name) (place : a.place? h name target = some p) (ne : q ≠ p) :
    after.at? target q = h.at? target q := by
  cases writes with
  | @slots o type reader setter accepted slots inst fits set =>
      obtain ⟨-, _, writer⟩ := stores
      cases writer
      cases set
      cases place
      cases q with
      | slot other =>
          rw [Heap.at?, Heap.at?, Heap.slots_setSlots _ _ _ live,
            Dict.get?_insert_of_ne _ _ _ _ fun same => ne (congrArg Place.slot same)]
      | _ => rfl
  | @item l position i found within fits =>
      rw [place?, found] at place
      cases place
      cases q with
      | item j =>
          rw [Heap.at?, Heap.at?, Heap.items_setItems _ _ _ live,
            List.getElem?_set_ne fun same => ne (congrArg Place.item same.symm)]
      | _ => rfl
  | @entry m key fits =>
      cases place
      cases q with
      | entry other =>
          rw [Heap.at?, Heap.at?, Heap.entries_setEntries _ _ _ live,
            Dict.get?_insert_of_ne _ _ _ _ fun same => ne (congrArg Place.entry same)]
      | _ => rfl
  | @property p key text string =>
      cases place
      cases q with
      | property other =>
          rw [Heap.at?, Heap.at?, Heap.property?, Heap.setProperty,
            Heap.propertyDict_setPropertyDict _ _ _ live,
            Dict.get?_insert_of_ne _ _ _ _ fun same => ne (congrArg Place.property same)]
          rfl
      | _ => rfl
  | @removal p key null =>
      cases place
      cases q with
      | property other =>
          rw [Heap.at?, Heap.at?, Heap.property?, Heap.eraseProperty,
            Heap.propertyDict_setPropertyDict _ _ _ live,
            Dict.get?_erase_of_ne _ _ _ fun same => ne (congrArg Place.property same)]
          rfl
      | _ => rfl

theorem Writes.refilled (writes : a.Writes h value target after) (live : h.Live target) :
    h.Refilled target after := by
  cases writes with
  | slots inst fits set => exact ⟨h.sameBut_setSlots _ _, by rintro _ ⟨⟩⟩
  | @item l p i place within fits =>
      refine ⟨h.sameBut_setItems l _, ?_⟩
      rintro _ ⟨⟩
      rw [Heap.items_setItems _ _ _ live, List.length_set]
  | entry fits => exact ⟨h.sameBut_setEntries _ _, by rintro _ ⟨⟩⟩
  | property string => exact ⟨h.sameBut_setPropertyDict _ _, by rintro _ ⟨⟩⟩
  | removal null => exact ⟨h.sameBut_setPropertyDict _ _, by rintro _ ⟨⟩⟩

/-- What is kept once can be written again, whatever the container holds by then. -/
theorem Writes.again (writes : a.Writes h value target after) (stores : a.Stores name)
    (refilled : h.Refilled target mid) : ∃ later, a.Writes mid value target later := by
  cases writes with
  | slots inst fits set =>
      obtain ⟨rfl, _, writer⟩ := stores
      cases writer
      exact ⟨_, .slots inst fits rfl⟩
  | @item l p i place within fits =>
      rw [← refilled.lengths l rfl] at place within
      exact ⟨_, .item place within fits⟩
  | entry fits => exact ⟨_, .entry fits⟩
  | property string => exact ⟨_, .property string⟩
  | removal null => exact ⟨_, .removal null⟩

theorem write_eq_ok_iff : a.write h target value = .ok after ↔ a.Writes h value target after := by
  refine ⟨writes_of_write, fun writes => ?_⟩
  cases writes with
  | slots inst fits set => simp [write, writeObject, inst, fits, set, Except.map]
  | item place within fits =>
      simp [write, writeItem, place, Except.bind, Heap.setItem, fits, within, mapError_ok]
  | entry fits => simp [write, Heap.insertEntry, fits, mapError_ok]
  | property string =>
      subst string
      rfl
  | removal null =>
      subst null
      rfl

/-! What is read. -/

/-- An object that the access is used on is of the type that it is for. -/
def Suits (a : Access) (target : Value) : Prop :=
  ∀ type reader writer o, a = object type reader writer → target = .object o → o.isA type = true

theorem Writes.suits (writes : a.Writes h value target after) : a.Suits target := by
  cases writes with
  | slots inst fits set =>
      rintro _ _ _ _ ⟨⟩ ⟨⟩
      exact inst
  | _ => rintro _ _ _ _ ⟨⟩

theorem read_slot {type : String} {writer : Option (Setter × ValueType)} {o : ObjectRef}
    (inst : o.isA type = true) :
    (object type (some (Getter.slot name)) writer).read h (.object o) = .ok (h.slot o name) := by
  rw [read, readObject, if_pos inst]
  rfl

/-- What is kept at its place is read. -/
theorem Plain.read_of_kept (plain : a.Plain name) (place : a.place? h name target = some p)
    (suits : a.Suits target) (kept : h.at? target p = p.kept value) :
    a.read h target = .ok value := by
  cases plain with
  | object writes =>
      cases target with
      | object o =>
          cases place
          have slot : (h.slots o).get? name = some value := kept
          rw [read_slot (suits _ _ _ o rfl rfl), Heap.slot, slot]
          rfl
      | _ => cases place
  | item position =>
      cases target with
      | list l =>
          cases index : position.index (h.items l).length with
          | error e =>
              rw [place?, index] at place
              cases place
          | ok i =>
              rw [place?, index] at place
              cases place
              have item : (h.items l)[i]? = some value := kept
              rw [read, readItem_of_index index, Heap.item, item]
              rfl
      | _ => cases place
  | entry key =>
      cases target with
      | map m =>
          cases place
          have entry : (h.entries m).get? key = some value := kept
          rw [read, Heap.entry, entry]
          rfl
      | _ => cases place
  | property key =>
      cases target with
      | properties store =>
          cases place
          have text : (h.property? store key).map .string = (Place.property key).kept value := kept
          rw [read, readProperty]
          cases held : h.property? store key with
          | none =>
              rw [held] at text
              cases value with
              | null => rfl
              | _ => cases text
          | some t =>
              rw [held] at text
              cases value with
              | string t' =>
                  cases text
                  rfl
              | _ => cases text
      | _ => cases place

/-- What is held at its place is all that is read. -/
theorem Plain.read_congr (plain : a.Plain name)
    (lengths : ∀ l, target = .list l → (after.items l).length = (h.items l).length)
    (held : ∀ p, a.place? h name target = some p → after.at? target p = h.at? target p) :
    a.read after target = a.read h target := by
  cases plain with
  | object writes =>
      cases target with
      | object o =>
          have slot : (after.slots o).get? name = (h.slots o).get? name := held _ rfl
          simp only [read, readObject, Getter.slot, slot]
      | _ => rfl
  | item position =>
      cases target with
      | list l =>
          have length := lengths l rfl
          cases index : position.index (h.items l).length with
          | error e =>
              rw [read, read, readItem, readItem, length, index]
              rfl
          | ok i =>
              have item : (after.items l)[i]? = (h.items l)[i]? :=
                held (.item i) (by rw [place?, index]; rfl)
              have index' := index
              rw [← length] at index'
              rw [read, read, readItem_of_index index', readItem_of_index index, Heap.item,
                Heap.item, item, length]
      | _ => rfl
  | entry key =>
      cases target with
      | map m =>
          have entry : (after.entries m).get? key = (h.entries m).get? key := held _ rfl
          rw [read, read, Heap.entry, Heap.entry, entry]
      | _ => rfl
  | property key =>
      cases target with
      | properties store =>
          have text : after.property? store key = h.property? store key :=
            Option.map_injective (fun _ _ => Value.string.inj) (held (.property key) rfl)
          rw [read, read, readProperty, readProperty, text]
      | _ => rfl

/-- Another container is read as before. -/
theorem Plain.read_of_sameBut (plain : a.Plain name) (same : h.SameBut target after)
    (apart : source.same target = false) : a.read after source = a.read h source := by
  refine plain.read_congr ?_ fun p _ => same.at?_eq apart p
  rintro l rfl
  rw [same.items_eq apart]

end Access

end Memberwise
