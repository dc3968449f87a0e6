import Memberwise.Proofs.Confinement

/-!
# Reading what was written

The items of a list, the entries of a map and the properties of a store keep what is
written to them, and so do the members of objects that are read from and written to
the slot of their own name.  Reading such a member right after writing gives the
value that was written, null for a property that writing null has removed, and the
members of the same container at other places read as before.
-/

namespace Memberwise

/-- Where a container keeps the value of a member. -/
inductive Place where
  | slot (name : String)
  | item (index : Nat)
  | entry (key : String)
  | property (key : String)
  deriving DecidableEq

namespace Access

/-- What is written is kept, under a name in case of an object. -/
def Stores (name : String) : Access → Prop
  | object _ reader writer =>
    reader = some (Getter.slot name) ∧ ∃ accepted, writer = some (Setter.slot name, accepted)
  | index _ | key _ | property _ => True
  | param _ | column _ => False

/-- The place in a container that keeps what is written. -/
def place? (h : Heap) (name : String) : Access → Value → Option Place
  | object _ _ _, .object _ => some (.slot name)
  | index p, .list l => (p.index (h.items l).length).toOption.map .item
  | key k, .map _ => some (.entry k)
  | property k, .properties _ => some (.property k)
  | _, _ => none

variable {h after : Heap} {a b : Access} {target value : Value} {name other : String}

/-- The item at an index, through a position that comes to that index. -/
theorem readItem_of_index {p : Position} {l : ListRef} {i : Nat}
    (place : p.index (h.items l).length = .ok i) :
    readItem h p (.list l) = (h.item l i).mapError .access := by
  rw [readItem, place]
  rfl

/-- What was written reads back. -/
theorem Writes.read_self (writes : a.Writes h value target after) (live : h.Live target)
    (stores : a.Stores name) : a.read after target = .ok value := by
  cases writes with
  | @slots o type reader setter accepted slots inst fits set =>
      obtain ⟨rfl, _, writer⟩ := stores
      cases writer
      cases set
      have kept : ((h.setSlots o ((h.slots o).insert name value)).slots o).get? name = some value := by
        rw [Heap.slots_setSlots _ _ _ live, Dict.get?_insert_self]
      simp only [read, readObject, inst, if_true, Getter.slot, kept, Option.getD_some]
  | @item l p i place within fits =>
      have items := Heap.items_setItems h l ((h.items l).set i value) live
      have again : p.index ((h.setItems l ((h.items l).set i value)).items l).length = .ok i := by
        rw [items, List.length_set]
        exact place
      rw [read, readItem_of_index again, Heap.item, items, List.getElem?_set_self within]
      rfl
  | @entry m key fits =>
      rw [read, Heap.entry, Heap.entries_setEntries _ _ _ live, Dict.get?_insert_self]
      rfl
  | @property p key text string =>
      rw [read, readProperty, Heap.property?, Heap.setProperty,
        Heap.propertyDict_setPropertyDict _ _ _ live, Dict.get?_insert_self, string]
      rfl
  | @removal p key null =>
      rw [read, readProperty, Heap.property?, Heap.eraseProperty,
        Heap.propertyDict_setPropertyDict _ _ _ live, Dict.get?_erase_self, null]
      rfl

/-- What is kept at another place reads as before. -/
theorem Writes.read_other (writes : a.Writes h value target after) (live : h.Live target)
    (stores : a.Stores name) (stores' : b.Stores other)
    (apart : b.place? h other target ≠ a.place? h name target) :
    b.read after target = b.read h target := by
  cases writes with
  | @slots o type reader setter accepted slots inst fits set =>
      obtain ⟨-, _, writer⟩ := stores
      cases writer
      cases set
      cases b with
      | object type' reader' writer' =>
          obtain ⟨rfl, -⟩ := stores'
          have ne : other ≠ name := fun same => apart (congrArg (some <| Place.slot ·) same)
          have kept : ((h.setSlots o ((h.slots o).insert name value)).slots o).get? other =
              (h.slots o).get? other := by
            rw [Heap.slots_setSlots _ _ _ live, Dict.get?_insert_of_ne _ _ _ _ ne]
          simp only [read, readObject, Getter.slot, kept]
      | _ => rfl
  | @item l p i place within fits =>
      cases b with
      | index p' =>
          have items := Heap.items_setItems h l ((h.items l).set i value) live
          have length : ((h.setItems l ((h.items l).set i value)).items l).length =
              (h.items l).length := by
            rw [items, List.length_set]
          cases place' : p'.index (h.items l).length with
          | error e =>
              rw [read, read, readItem, readItem, length, place']
              rfl
          | ok j =>
              have ne : i ≠ j := by
                rintro rfl
                exact apart (by rw [place?, place?, place, place'])
              have again := place'
              rw [← length] at again
              rw [read, read, readItem_of_index again, readItem_of_index place', Heap.item,
                Heap.item, length, items, List.getElem?_set_ne ne]
      | _ => rfl
  | @entry m key fits =>
      cases b with
      | key key' =>
          have ne : key' ≠ key := fun same => apart (congrArg (some <| Place.entry ·) same)
          rw [read, read, Heap.entry, Heap.entry, Heap.entries_setEntries _ _ _ live,
            Dict.get?_insert_of_ne _ _ _ _ ne]
      | _ => rfl
  | @property p key text string =>
      cases b with
      | property key' =>
          have ne : key' ≠ key := fun same => apart (congrArg (some <| Place.property ·) same)
          rw [read, read, readProperty, readProperty, Heap.property?, Heap.setProperty,
            Heap.propertyDict_setPropertyDict _ _ _ live, Dict.get?_insert_of_ne _ _ _ _ ne]
          rfl
      | _ => rfl
  | @removal p key null =>
      cases b with
      | property key' =>
          have ne : key' ≠ key := fun same => apart (congrArg (some <| Place.property ·) same)
          rw [read, read, readProperty, readProperty, Heap.property?, Heap.eraseProperty,
            Heap.propertyDict_setPropertyDict _ _ _ live, Dict.get?_erase_of_ne _ _ _ ne]
          rfl
      | _ => rfl

end Access

namespace Member

/-- The member keeps what is written to it. -/
def Stores (m : Member) : Prop :=
  ∃ access, m.route = .direct access ∧ access.Stores m.name

/-- The place in a container that keeps what is written to the member. -/
def place? (m : Member) (h : Heap) (target : Value) : Option Place :=
  match m.route with
  | .direct access => access.place? h m.name target
  | .path _ => none

variable {m : Member} {w : World} {target value : Value} {access : Access}

theorem Obtained.target_eq (obtained : m.Obtained target) : m.target = some target := by
  obtain ⟨t, -, rfl⟩ := obtained.exists_template
  rfl

theorem run_read_direct (route : m.route = .direct access) (bound : m.target = some target)
    (w : World) : (Query.run w fun h => m.read h).1 =
      if m.readable then (access.read w.heap target).mapError (.handling m.name)
      else .error (.unreadable m.name) := by
  simp only [Query.run_fst, Member.read, bound, readIn, route, readRoute]
  cases m.readable with
  | true => rfl
  | false => rfl

theorem writes_of_run_assign (route : m.route = .direct access) (bound : m.target = some target)
    (written : ((m.assign value).run w).1 = .ok ()) :
    access.Writes w.heap value target ((m.assign value).run w).2.heap := by
  have answer := EditOf.answer_update w.catalogs.registry (fun h => m.write h value) w.heap
  rw [Edit.run_fst, assign, answer] at written
  rw [Edit.heap_run, assign, answer]
  split at written
  · rename_i after wrote
    simp only [write, bound, writeIn] at wrote
    split at wrote
    · rw [route, Query.answer_mapError, mapError_eq_ok] at wrote
      exact Access.writes_of_write wrote
    · cases wrote
  · cases written

end Member

/-- Where the first accessor and the first mutator of a name, if there are any, go
by the slot of that name, the member stores what is written: a field alone, an
accessor with a mutator, or either of them with a field. -/
theorem Declarations.stores_merge {line : List TypeDefinition} {name : String}
    {target : Option Value}
    (reads : ∀ a, firstAccessor? line name = some a → a.getter = Getter.slot name)
    (writes : ∀ u, firstMutator? line name = some u → u.setter = Setter.slot name)
    (readable : ((along line name).merge name).readable = true)
    (writable : ((along line name).merge name).writable = true) :
    (Member.ofTemplate ((along line name).merge name) target).Stores := by
  refine ⟨_, rfl, ?_, ?_⟩
  · show (along line name).reader = some (Getter.slot name)
    rw [reader_along]
    cases accessor : firstAccessor? line name with
    | some a => exact congrArg some (reads a accessor)
    | none =>
        rcases isSome_reader_along.1 readable with some | some
        · rw [accessor] at some
          cases some
        · obtain ⟨f, field⟩ := Option.isSome_iff_exists.1 some
          rw [field]
          rfl
  · show ∃ accepted, (along line name).writer = some (Setter.slot name, accepted)
    cases mutator : firstMutator? line name with
    | some u => exact ⟨u.accepts, by rw [writer_along_of_mutator mutator, writes u mutator]⟩
    | none =>
        rcases isSome_writer_along.1 writable with some | ⟨f, field, free⟩
        · rw [mutator] at some
          cases some
        · exact ⟨f.type, by rw [writer_along_of_field mutator field, free]; rfl⟩

/-- A value that is written to a member of a container reads back at once, and the
members of the container at other places read as before. -/
theorem written_members_read_back {w : World} {target value : Value} {m : Member}
    (live : w.heap.Live target) (obtained : m.Obtained target) (stores : m.Stores)
    (readable : m.readable = true) (written : ((m.assign value).run w).1 = .ok ()) :
    (Query.run ((m.assign value).run w).2 fun h => m.read h).1 = .ok value ∧
    ∀ n : Member, n.Obtained target → n.Stores →
      n.place? w.heap target ≠ m.place? w.heap target →
      (Query.run ((m.assign value).run w).2 fun h => n.read h).1 =
        (Query.run w fun h => n.read h).1 := by
  obtain ⟨access, route, keeps⟩ := stores
  have writes := Member.writes_of_run_assign route obtained.target_eq written
  constructor
  · rw [Member.run_read_direct route obtained.target_eq, if_pos readable,
      writes.read_self live keeps]
    rfl
  · rintro n obtained' ⟨other, route', keeps'⟩ apart
    rw [Member.place?, Member.place?, route, route'] at apart
    rw [Member.run_read_direct route' obtained'.target_eq,
      Member.run_read_direct route' obtained'.target_eq,
      writes.read_other live keeps keeps' apart]

/-- Boxes with an owner and a label that is read as text, and crates, whose label is
set by number. -/
def stock : List Definition :=
  [.type (((TypeDraft.plain "Box").withField (.plain "owner" .string)).withAccessor
     (.ofSlot "label" .string)),
   .type (((TypeDraft.plain "Crate").extending "Box").withMutator (.ofSlot "label" .int))]

/-- A crate that has an owner and no label yet. -/
def stockWorld : World :=
  ⟨{ Heap.empty with objects := ⟨#[.ofList [("owner", .string "depot")]]⟩ },
   (Catalogs.empty.add (Builder.empty.declareAll stock).build).2⟩

def crate : Value := .object ⟨0, "Crate", ["Box"]⟩

/-- A member of the crate, from the declarations of its name along both types. -/
def crateMember (name : String) : Member :=
  .ofTemplate ((Declarations.along ((stockWorld.catalogs.registry ⟨0⟩).lineage "Crate")
    name).merge name) (some crate)

theorem crate_label_reads_back_and_owner_stays :
    (Query.run (((crateMember "label").assign (.int 7)).run stockWorld).2 fun h =>
        (crateMember "label").read h).1 = .ok (.int 7) ∧
      (Query.run (((crateMember "label").assign (.int 7)).run stockWorld).2 fun h =>
        (crateMember "owner").read h).1 = .ok (.string "depot") := by
  have found : ∀ name ∈ ["label", "owner"], (CatalogRef.memberOf? ⟨0⟩ stockWorld.heap crate name
      true).answer stockWorld.catalogs.registry = .ok (some (crateMember name)) := by
    intro name given
    rcases List.mem_pair.1 given with rfl | rfl
    · rfl
    · rfl
  have label : (crateMember "label").Stores := by
    refine Declarations.stores_merge ?_ ?_ rfl rfl
    · rintro a ⟨⟩
      rfl
    · rintro u ⟨⟩
      rfl
  have owner : (crateMember "owner").Stores := by
    refine Declarations.stores_merge ?_ ?_ rfl rfl
    · rintro a ⟨⟩
    · rintro u ⟨⟩
  have live : stockWorld.heap.Live crate := Nat.zero_lt_one
  have written : (((crateMember "label").assign (.int 7)).run stockWorld).1 = .ok () := rfl
  obtain ⟨reads, others⟩ := written_members_read_back live
    (.found (found "label" List.mem_cons_self)) label rfl written
  refine ⟨reads, ?_⟩
  exact others _ (.found (found "owner" (List.mem_cons_of_mem _ List.mem_cons_self))) owner
    (by decide)

end Memberwise
