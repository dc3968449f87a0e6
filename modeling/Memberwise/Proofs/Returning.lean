import Memberwise.Proofs.Copying
import Memberwise.Proofs.Filling
import Memberwise.Proofs.Pairs
import Memberwise.Proofs.Storage
import Memberwise.Proofs.Subtyping

/-!
# Copies by way of a map

An object that is copied into an empty map, and the map into a new object of the type,
gives back all that it holds (`copies_return_through_map`), if the members of the type go
by the slots of their names.  The map then has an entry for each member that can be read,
nulls included, so every one of them is found again by its name.

Both copies put values under names, one after another (`Copier.exists_copyMembers`), the
first one into the entries of the map and the second one into the slots of the object.
-/

namespace Memberwise

namespace Dict

variable {α : Type}

/-- Puts a value under each of some names. -/
def insertAll (d : Dict α) (value : String → α) (names : List String) : Dict α :=
  names.foldl (fun d name => d.insert name (value name)) d

theorem get?_insertAll (d : Dict α) (value : String → α) (names : List String) (name : String) :
    (d.insertAll value names).get? name =
      if name ∈ names then some (value name) else d.get? name := by
  induction names generalizing d with
  | nil => simp [insertAll]
  | cons first rest ih =>
      rw [insertAll, List.foldl_cons, ← insertAll, ih]
      by_cases later : name ∈ rest
      · rw [if_pos later, if_pos (List.mem_cons_of_mem _ later)]
      · rw [if_neg later]
        by_cases same : name = first
        · subst same
          rw [get?_insert_self, if_pos List.mem_cons_self]
        · rw [get?_insert_of_ne _ _ _ _ same, if_neg (by simp [same, later])]

end Dict

/-! ### New objects -/

/-- The object is of a type, as one that was made of it. -/
structure ObjectRef.InstanceOf (o : ObjectRef) (s : TypeDefinition) : Prop where
  typeName : o.typeName = s.name
  supertypes : o.supertypes = s.supertypes

theorem ObjectRef.InstanceOf.isA_eq {o : ObjectRef} {s : TypeDefinition} (inst : o.InstanceOf s)
    (name : String) : o.isA name = s.isA name := by
  rw [isA, inst.typeName, inst.supertypes, TypeDefinition.isA]

/-- The objects and the maps of before are still there, with the same contents. -/
structure Heap.Keeps (h after : Heap) : Prop where
  objects : ∀ id, id < h.objects.size → after.objects.get? id = h.objects.get? id
  maps : ∀ id, id < h.maps.size → after.maps.get? id = h.maps.get? id
  objectSize : h.objects.size ≤ after.objects.size
  mapSize : h.maps.size ≤ after.maps.size

namespace Heap

variable {h after : Heap} {o : ObjectRef} {m : MapRef}

theorem Keeps.slots_eq (keeps : h.Keeps after) (live : h.Live (.object o)) :
    after.slots o = h.slots o := by
  rw [slots, slots, keeps.objects o.id live]

theorem Keeps.entries_eq (keeps : h.Keeps after) (live : h.Live (.map m)) :
    after.entries m = h.entries m := by
  rw [entries, entries, keeps.maps m.id live]

theorem Within.keeps (within : h.Within after) : h.Keeps after :=
  ⟨within.objects.cells, within.maps.cells, within.objects.size, within.maps.size⟩

/-- A new object has a place of its own. -/
theorem keeps_instantiate {r : Registry} {name : String}
    (made : r.instantiate h name = .ok (o, after)) :
    h.Keeps after ∧ after.Live (.object o) ∧ h.objects.size ≤ o.id := by
  obtain ⟨new, there, filled⟩ := Registry.filled_of_instantiate made
  exact ⟨filled.within.keeps, there, Nat.le_of_not_lt new⟩

end Heap

theorem Registry.instanceOf_of_instantiate {r : Registry} {s : TypeDefinition} {h after : Heap}
    {o : ObjectRef} (built : r.Built) (hs : s ∈ r.types)
    (made : r.instantiate h s.name = .ok (o, after)) : o.InstanceOf s := by
  simp only [instantiate, built.type?_name hs] at made
  split at made
  · cases made
  · cases made
    exact ⟨rfl, rfl⟩

/-! ### Members that go by slots -/

/-- What is declared under a name reads and writes the slot of the name only, and takes the
values of the type that it is read with. -/
structure Declarations.Slotwise (d : Declarations) (name : String) : Prop where
  reads : ∀ getter, d.reader = some getter → getter = Getter.slot name
  writes : ∀ path, d.writer = some path → path = (Setter.slot name, d.declaredType)

namespace Declarations.Slotwise

variable {d : Declarations} {name : String} {o : ObjectRef} {h : Heap} {target : Option Value}
  {v : Value} {registryOf : CatalogRef → Registry}

theorem answer_readIn (slotwise : d.Slotwise name) (inst : o.isA d.instanceName = true)
    (readable : d.reader.isSome = true) :
    ((Member.ofTemplate (d.merge name) target).readIn h (.object o)).answer registryOf =
      .ok (h.slot o name) := by
  obtain ⟨getter, reader⟩ := Option.isSome_iff_exists.1 readable
  rw [Member.readIn, if_pos (by exact readable), Query.answer_mapError, mapError_eq_ok]
  show (Access.object d.instanceName d.reader d.writer).read h (.object o) = _
  rw [reader, slotwise.reads getter reader]
  exact Access.read_slot inst

theorem answer_write (slotwise : d.Slotwise name) (inst : o.isA d.instanceName = true)
    (writable : d.writer.isSome = true) (fits : d.declaredType.accepts v = true) :
    ((Member.ofTemplate (d.merge name) (some (.object o))).write h v).answer registryOf =
      .ok (h.setSlots o ((h.slots o).insert name v)) := by
  obtain ⟨path, writer⟩ := Option.isSome_iff_exists.1 writable
  rw [Copier.answer_write (by exact writable), mapError_eq_ok, Access.write_eq_ok_iff]
  show (Access.object d.instanceName d.reader d.writer).Writes h v (.object o) _
  rw [writer, slotwise.writes path writer]
  exact .slots inst fits rfl

end Declarations.Slotwise

namespace Copier

variable {c : Copier} {source destination : Value} {registryOf : CatalogRef → Registry}
  {base h after : Heap} {shared : Bool} {src dest : Member} {members : List Member} {v : Value}

/-- With default options a pair is copied if both sides can be used and the value fits. -/
theorem answer_copyMember_plain (options : c.options = .plain)
    (partner : (c.partner? h shared destination src).answer registryOf = .ok (some dest))
    (read : src.readable = true → (src.readIn h source).answer registryOf = .ok v)
    (fits : src.readable = true → dest.declaredType.accepts v = true)
    (written : dest.writable = true → src.readable = true →
      (dest.write h v).answer registryOf = .ok after) :
    (c.copyMember shared source destination src).answer registryOf h =
      if src.readable && dest.writable then (.ok true, after) else (.ok false, h) := by
  rw [answer_copyMember, partner]
  by_cases able : (src.readable && dest.writable) = true
  · obtain ⟨readable, writable⟩ := Bool.and_eq_true_iff.1 able
    have offered : c.offer? h ⟨src, dest, v⟩ = some v := by
      rw [offer?_plain (by rw [options]; rfl) (by rw [options]; rfl), leavesOut, options]
      exact if_pos (fits readable)
    simp only [able, if_true, read readable, offered, written writable readable]
  · simp only [able]
    rfl

/-- Where for each name a value either is put under it into what the destination holds or
is left out, so it is for all names, in order. -/
theorem exists_copyMembers (contents : Heap → Dict Value) (store : Heap → Dict Value → Heap)
    {names : List String} {member : String → Member} {takes : String → Bool}
    {value : String → Value} (frame : ∀ (h : Heap) d, h.SameBut destination (store h d))
    (holds : ∀ (h : Heap) d, h.Live destination → contents (store h d) = d)
    (step : ∀ name ∈ names, ∀ mid, base.SameBut destination mid →
      (c.copyMember shared source destination (member name)).answer registryOf mid =
        if takes name then (.ok true, store mid ((contents mid).insert name (value name)))
        else (.ok false, mid))
    (live : h.Live destination) (same : base.SameBut destination h) (count : Nat) :
    ∃ after, (c.copyMembers shared source destination (names.map member)
        count).answer registryOf h = (.ok (count + (names.filter takes).length), after) ∧
      base.SameBut destination after ∧
      contents after = (contents h).insertAll value (names.filter takes) := by
  induction names generalizing h count with
  | nil => exact ⟨h, rfl, same, rfl⟩
  | cons name rest ih =>
      obtain ⟨head, tail⟩ := List.forall_mem_cons.1 step
      rw [List.map_cons, copyMembers_cons, EditOf.answer_bind, head h same]
      cases taken : takes name with
      | false =>
          rw [List.filter_cons_of_neg (by simp [taken])]
          exact ih tail live same count
      | true =>
          have stored := frame h ((contents h).insert name (value name))
          obtain ⟨after, run, others, filled⟩ := ih tail (stored.live live) (same.trans stored)
            (count + 1)
          rw [List.filter_cons_of_pos taken]
          refine ⟨after, ?_, others, ?_⟩
          · simp only [if_true, run, List.length_cons, Nat.add_assoc, Nat.add_comm 1]
          · rw [filled, holds h _ live]
            rfl

/-- Likewise for a whole copy, of the members that are listed for the source. -/
theorem exists_copy (contents : Heap → Dict Value) (store : Heap → Dict Value → Heap)
    {names : List String} {member : String → Member} {takes : String → Bool}
    {value : String → Value}
    (listed : (c.sources h source).answer registryOf = .ok (names.map member))
    (frame : ∀ (h : Heap) d, h.SameBut destination (store h d))
    (holds : ∀ (h : Heap) d, h.Live destination → contents (store h d) = d)
    (step : ∀ name ∈ names, ∀ mid, h.SameBut destination mid →
      (c.copyMember (sharesTemplates source destination) source destination
        (member name)).answer registryOf mid =
        if takes name then (.ok true, store mid ((contents mid).insert name (value name)))
        else (.ok false, mid))
    (live : h.Live destination) :
    ∃ after, (c.copy source destination).answer registryOf h =
        (.ok (names.filter takes).length, after) ∧
      h.SameBut destination after ∧
      contents after = (contents h).insertAll value (names.filter takes) := by
  obtain ⟨after, run, same, filled⟩ := exists_copyMembers contents store frame holds step live
    (.refl _ h) 0
  refine ⟨after, ?_, same, filled⟩
  rw [answer_copy, listed, ← Nat.zero_add (List.length _)]
  exact run

/-! The two copies. -/

variable {line : List TypeDefinition} {o : ObjectRef} {m : MapRef} {name : String}

/-- The names that some types declare, each once. -/
def namesAlong (line : List TypeDefinition) : List String :=
  distinct (line.flatMap (·.memberNames))

/-- The names under which they declare something to read. -/
def readableAlong (line : List TypeDefinition) : List String :=
  (namesAlong line).filter fun name => (Declarations.along line name).reader.isSome

theorem mem_readableAlong : name ∈ readableAlong line ↔
    name ∈ namesAlong line ∧ (Declarations.along line name).reader.isSome = true :=
  List.mem_filter

/-- The member that some types declare together under a name, bound to an object. -/
def slotMember (line : List TypeDefinition) (o : ObjectRef) (name : String) : Member :=
  .ofTemplate ((Declarations.along line name).merge name) (some (.object o))

/-- The entry of a map under a key, as a member. -/
def entryMember (m : MapRef) (key : String) : Member :=
  .ofTemplate (keyTemplate m.valueType key) (some (.map m))

/-- All that is read of an object goes into a map that takes anything. -/
theorem exists_copy_into_map (options : c.options = .plain)
    (listed : (c.sources h (.object o)).answer registryOf =
      .ok ((namesAlong line).map (slotMember line o)))
    (slotwise : ∀ name ∈ namesAlong line, (Declarations.along line name).Slotwise name)
    (inst : ∀ name ∈ namesAlong line, o.isA (Declarations.along line name).instanceName = true)
    (any : m.valueType = .any) (live : h.Live (.map m)) :
    ∃ after, (c.copy (.object o) (.map m)).answer registryOf h =
        (.ok (readableAlong line).length, after) ∧
      h.SameBut (.map m) after ∧
      after.entries m = (h.entries m).insertAll (h.slot o) (readableAlong line) := by
  refine exists_copy (·.entries m) (fun h d => h.setEntries m d) listed
    (fun h d => h.sameBut_setEntries m d) (fun h d live => h.entries_setEntries m d live) ?_ live
  intro name declared mid same
  have slot : mid.slot o name = h.slot o name := by
    rw [Heap.slot, Heap.slot, same.slots_eq rfl]
  have fits : m.valueType.accepts (h.slot o name) = true := by
    rw [any, ValueType.any_accepts]
  have written : ((entryMember m name).write mid (h.slot o name)).answer registryOf =
      .ok (mid.setEntries m ((mid.entries m).insert name (h.slot o name))) := by
    rw [entryMember, answer_write rfl, mapError_eq_ok, Access.write_eq_ok_iff]
    exact .entry fits
  have read : (slotMember line o name).readable = true →
      ((slotMember line o name).readIn mid (.object o)).answer registryOf =
        .ok (h.slot o name) := by
    intro readable
    rw [← slot]
    exact (slotwise name declared).answer_readIn (inst name declared) readable
  have partner : (c.partner? mid (sharesTemplates (.object o) (.map m)) (.map m)
      (slotMember line o name)).answer registryOf = .ok (some (entryMember m name)) := rfl
  refine (answer_copyMember_plain options partner read (fun _ => fits) fun _ _ => written).trans ?_
  rw [show (entryMember m name).writable = true from rfl, Bool.and_true]
  rfl

/-- Each entry of a map whose name a type declares goes into the slot, if it is written. -/
theorem exists_copy_from_map (options : c.options = .plain)
    (found : ∀ mid : Heap, ∀ name ∈ (h.entries m).keys,
      (c.catalog.memberOf? mid (.object o) name true).answer registryOf =
        .ok (some (slotMember line o name)))
    (slotwise : ∀ name ∈ (h.entries m).keys, (Declarations.along line name).Slotwise name)
    (inst : ∀ name ∈ (h.entries m).keys,
      o.isA (Declarations.along line name).instanceName = true)
    (fits : ∀ name ∈ (h.entries m).keys,
      (Declarations.along line name).declaredType.accepts (h.entry m name) = true)
    (live : h.Live (.object o)) :
    ∃ after, (c.copy (.map m) (.object o)).answer registryOf h =
        (.ok ((h.entries m).keys.filter fun name =>
          (Declarations.along line name).writer.isSome).length, after) ∧
      h.SameBut (.object o) after ∧
      after.slots o = (h.slots o).insertAll (h.entry m)
        ((h.entries m).keys.filter fun name => (Declarations.along line name).writer.isSome) := by
  have listed : (c.sources h (.map m)).answer registryOf =
      .ok ((h.entries m).keys.map (entryMember m)) := by
    rw [sources, options]
    show (c.catalog.membersOf h (.map m) true).answer registryOf = _
    rw [CatalogRef.answer_membersOf]
    show Except.ok (List.map _ ((h.entries m).keys.map (keyTemplate m.valueType))) = _
    rw [List.map_map]
    rfl
  refine exists_copy (·.slots o) (fun h d => h.setSlots o d) listed
    (fun h d => h.sameBut_setSlots o d) (fun h d live => h.slots_setSlots o d live) ?_ live
  intro name stored mid same
  have entry : mid.entry m name = h.entry m name := by
    rw [Heap.entry, Heap.entry, same.entries_eq rfl]
  have read : ((entryMember m name).readIn mid (.map m)).answer registryOf =
      .ok (h.entry m name) := by
    rw [← entry]
    rfl
  have written : (slotMember line o name).writable = true →
      ((slotMember line o name).write mid (h.entry m name)).answer registryOf =
        .ok (mid.setSlots o ((mid.slots o).insert name (h.entry m name))) :=
    fun writable =>
      (slotwise name stored).answer_write (inst name stored) writable (fits name stored)
  exact answer_copyMember_plain options (found mid name stored) (fun _ => read)
    (fun _ => fits name stored) fun writable _ => written writable

end Copier

/-- What a member of an object's type reads on the object. -/
def World.reads (w : World) (o : ObjectRef) (t : Template) : Except MemberError Value :=
  (Query.run w fun h => (Member.ofTemplate t (some (.object o))).read h).1

section Types

variable {r : Registry} {s : TypeDefinition} {o : ObjectRef} {name : String}

theorem mem_namesAlong {line : List TypeDefinition} :
    name ∈ Copier.namesAlong line ↔ ∃ u ∈ line, name ∈ declaredNames u := by
  simp only [Copier.namesAlong, mem_distinct, List.mem_flatMap, TypeDefinition.memberNames,
    declaredNames]

/-- An object of a type passes for the type that a member of it is for. -/
theorem Registry.Built.isA_instanceName (built : r.Built) (hs : s ∈ r.types)
    (inst : o.InstanceOf s) (declared : name ∈ Copier.namesAlong (r.lineage s.name)) :
    o.isA (Declarations.along (r.lineage s.name) name).instanceName = true := by
  obtain ⟨u, hu, same⟩ :=
    Declarations.instanceName_along (declared_iff.1 (mem_namesAlong.1 declared))
  rw [← same, inst.isA_eq]
  exact ((built.mem_lineage hs).1 hu).2

/-- The members of an object of a type are those that are declared along its lineage. -/
theorem Registry.Built.discoverType_eq (built : r.Built) (hs : s ∈ r.types)
    (inst : o.InstanceOf s) : discoverType r (Value.object o).type true =
      .ok (membersAlong (r.lineage s.name)) := by
  show discoverObject r o.typeName true = _
  rw [inst.typeName, discoverObject, built.type?_name hs]
  rfl

end Types

namespace Copier

variable {c : Copier} {registryOf : CatalogRef → Registry} {s : TypeDefinition} {o : ObjectRef}
  {name : String}

/-- All members of an object are copied by default. -/
theorem sources_of_instance (options : c.options = .plain)
    (built : (registryOf c.catalog).Built) (hs : s ∈ (registryOf c.catalog).types)
    (inst : o.InstanceOf s) (h : Heap) :
    (c.sources h (.object o)).answer registryOf =
      .ok ((namesAlong ((registryOf c.catalog).lineage s.name)).map
        (slotMember ((registryOf c.catalog).lineage s.name) o)) := by
  have found : (c.catalog.templatesOf h (.object o) true).answer registryOf =
      .ok (membersAlong ((registryOf c.catalog).lineage s.name)) :=
    built.discoverType_eq hs inst
  rw [sources, options]
  show (c.catalog.membersOf h (.object o) true).answer registryOf = _
  rw [CatalogRef.answer_membersOf, found]
  show Except.ok (List.map _ (membersAlong _)) = _
  rw [membersAlong, List.map_map]
  rfl

/-- By its name each of them is found. -/
theorem memberOf?_of_instance (built : (registryOf c.catalog).Built)
    (hs : s ∈ (registryOf c.catalog).types) (inst : o.InstanceOf s) (h : Heap)
    (declared : name ∈ namesAlong ((registryOf c.catalog).lineage s.name)) :
    (c.catalog.memberOf? h (.object o) name true).answer registryOf =
      .ok (some (slotMember ((registryOf c.catalog).lineage s.name) o name)) := by
  have found : (c.catalog.templatesOf h (.object o) true).answer registryOf =
      .ok (membersAlong ((registryOf c.catalog).lineage s.name)) :=
    built.discoverType_eq hs inst
  have distinct := CatalogRef.nodup_names_of_templatesOf (by rintro _ ⟨⟩) found
  have listed : (Declarations.along ((registryOf c.catalog).lineage s.name) name).merge name ∈
      membersAlong ((registryOf c.catalog).lineage s.name) := List.mem_map.2 ⟨name, declared, rfl⟩
  have typed : (Value.object o).containerKind.any (·.isTypeLevel) = true := rfl
  rw [CatalogRef.answer_memberOf?, CatalogRef.answer_templateOf?_of_type typed rfl, found]
  exact congrArg (fun t? : Option Template => Except.ok
    (t?.map fun t => Member.ofTemplate t (some (.object o)))) (atPlaceOf?_of_mem distinct listed)

end Copier

/-- What is read of an object under a name that goes by its slot. -/
theorem World.reads_eq {w : World} {o : ObjectRef} {d : Declarations} {name : String}
    (slotwise : d.Slotwise name) (inst : o.isA d.instanceName = true) :
    w.reads o (d.merge name) =
      if d.reader.isSome then .ok (w.heap.slot o name) else .error (.unreadable name) := by
  rw [reads, Query.run_fst]
  by_cases readable : d.reader.isSome = true
  · rw [if_pos readable]
    exact slotwise.answer_readIn inst readable
  · rw [if_neg readable]
    show ((Member.ofTemplate (d.merge name) _).readIn w.heap (.object o)).answer _ = _
    rw [Member.readIn, if_neg (by exact readable)]
    rfl

namespace Copier

variable {c : Copier} {registryOf : CatalogRef → Registry} {r : Registry} {s : TypeDefinition}
  {a : ObjectRef} {m : MapRef} {h : Heap}

/-- The slots of an object come back through a map, those that are read and written. -/
theorem exists_return (options : c.options = .plain) (known : registryOf c.catalog = r)
    (built : r.Built) (hs : s ∈ r.types)
    (slotwise : ∀ name ∈ namesAlong (r.lineage s.name),
      (Declarations.along (r.lineage s.name) name).Slotwise name)
    (inst : a.InstanceOf s) (live : h.Live (.object a))
    (accepted : ∀ name ∈ namesAlong (r.lineage s.name),
      (Declarations.along (r.lineage s.name) name).reader.isSome = true →
        (Declarations.along (r.lineage s.name) name).declaredType.accepts (h.slot a name) = true)
    (any : m.valueType = .any) (there : h.Live (.map m)) (empty : h.entries m = .empty) :
    ∃ n filled, (c.copy (.object a) (.map m)).answer registryOf h = (.ok n, filled) ∧
      ∀ b made, r.instantiate filled s.name = .ok (b, made) →
        ∃ k last, (c.copy (.map m) (.object b)).answer registryOf made = (.ok k, last) ∧
          (∀ name, last.slot a name = h.slot a name) ∧
          ∀ name ∈ namesAlong (r.lineage s.name), last.slot b name =
            if (Declarations.along (r.lineage s.name) name).reader.isSome ∧
              (Declarations.along (r.lineage s.name) name).writer.isSome then h.slot a name
            else made.slot b name := by
  subst known
  obtain ⟨filled, done, same, entries⟩ := exists_copy_into_map options
    (sources_of_instance options built hs inst h) slotwise
    (fun _ => built.isA_instanceName hs inst) any there
  refine ⟨_, filled, done, ?_⟩
  intro b made new
  obtain ⟨keeps, live_b, fresh⟩ := Heap.keeps_instantiate new
  have inst_b := Registry.instanceOf_of_instantiate built hs new
  -- The map has the entries that were read of the object.
  have held : ∀ name, (made.entries m).get? name =
      if name ∈ readableAlong ((registryOf c.catalog).lineage s.name)
        then some (h.slot a name) else none := by
    intro name
    rw [keeps.entries_eq (same.live there), entries, Dict.get?_insertAll, empty, Dict.get?_empty]
  have listed : ∀ name, name ∈ (made.entries m).keys ↔
      name ∈ namesAlong ((registryOf c.catalog).lineage s.name) ∧
      (Declarations.along ((registryOf c.catalog).lineage s.name) name).reader.isSome = true := by
    intro name
    rw [Dict.mem_keys_iff, held, ← mem_readableAlong]
    simp
  have entry : ∀ name ∈ (made.entries m).keys, made.entry m name = h.slot a name := by
    intro name stored
    rw [Heap.entry, held, if_pos (mem_readableAlong.2 ((listed name).1 stored))]
    rfl
  obtain ⟨last, done', same', slots⟩ := exists_copy_from_map (m := m) options
    (fun mid name stored => memberOf?_of_instance built hs inst_b mid ((listed name).1 stored).1)
    (fun name stored => slotwise name ((listed name).1 stored).1)
    (fun name stored => built.isA_instanceName hs inst_b ((listed name).1 stored).1)
    (fun name stored => entry name stored ▸
      accepted name ((listed name).1 stored).1 ((listed name).1 stored).2) live_b
  refine ⟨_, last, done', ?_, ?_⟩
  · intro name
    have before : a.id < filled.objects.size := Nat.lt_of_lt_of_eq live same.sizes.1.symm
    have apart : (Value.object a).same (.object b) = false := by
      simpa [Value.same] using Nat.ne_of_lt (Nat.lt_of_lt_of_le before fresh)
    rw [Heap.slot, Heap.slot, same'.slots_eq apart, keeps.slots_eq before, same.slots_eq rfl]
  · intro name declared
    have written : name ∈ (made.entries m).keys.filter (fun name =>
          (Declarations.along ((registryOf c.catalog).lineage s.name) name).writer.isSome) ↔
        (Declarations.along ((registryOf c.catalog).lineage s.name) name).reader.isSome ∧
        (Declarations.along ((registryOf c.catalog).lineage s.name) name).writer.isSome := by
      rw [List.mem_filter, listed, and_iff_right declared]
    rw [Heap.slot, slots, Dict.get?_insertAll]
    by_cases both :
        (Declarations.along ((registryOf c.catalog).lineage s.name) name).reader.isSome ∧
        (Declarations.along ((registryOf c.catalog).lineage s.name) name).writer.isSome
    · rw [if_pos (written.2 both), if_pos both, Option.getD_some,
        entry name ((listed name).2 ⟨declared, both.1⟩)]
    · rw [if_neg fun there => both (written.1 there), if_neg both]
      rfl

end Copier

/-- An object that is copied into an empty map of anything, and the map into a new object
of the same type, with default options: both copies go through, each member that is read
and written has the same value then in both objects, and those that are not written have
those of the new object. -/
theorem copies_return_through_map {c : Copier} {w : World} {r : Registry} {s : TypeDefinition}
    {a : ObjectRef} {m : MapRef} (options : c.options = .plain)
    (known : w.catalogs.registry c.catalog = r) (built : r.Built) (hs : s ∈ r.types)
    (concrete : s.isAbstract = false)
    (slotwise : ∀ name ∈ Copier.namesAlong (r.lineage s.name),
      (Declarations.along (r.lineage s.name) name).Slotwise name)
    (inst : a.InstanceOf s) (live : w.heap.Live (.object a))
    (accepted : ∀ t ∈ membersAlong (r.lineage s.name), ∀ v,
      w.reads a t = .ok v → t.declaredType.accepts v = true)
    (any : m.valueType = .any) (there : w.heap.Live (.map m))
    (empty : w.heap.entries m = .empty) :
    ∃ n first, (c.copy (.object a) (.map m)).run w = (.ok n, first) ∧
      ∃ b made, r.instantiate first.heap s.name = .ok (b, made) ∧
        ∃ k last, (c.copy (.map m) (.object b)).run ⟨made, first.catalogs⟩ = (.ok k, last) ∧
          ∀ t ∈ membersAlong (r.lineage s.name),
            (t.readable = true → t.writable = true →
              ∃ v, w.reads a t = .ok v ∧ last.reads a t = .ok v ∧ last.reads b t = .ok v) ∧
            (t.writable = false → last.reads b t = World.reads ⟨made, first.catalogs⟩ b t) := by
  have reads : ∀ (w : World) (o : ObjectRef), o.InstanceOf s →
      ∀ name ∈ Copier.namesAlong (r.lineage s.name),
        w.reads o ((Declarations.along (r.lineage s.name) name).merge name) =
          if (Declarations.along (r.lineage s.name) name).reader.isSome then
            .ok (w.heap.slot o name) else .error (.unreadable name) :=
    fun w o inst name declared =>
      World.reads_eq (slotwise name declared) (built.isA_instanceName hs inst declared)
  have fits : ∀ name ∈ Copier.namesAlong (r.lineage s.name),
      (Declarations.along (r.lineage s.name) name).reader.isSome = true →
        (Declarations.along (r.lineage s.name) name).declaredType.accepts
          (w.heap.slot a name) = true := by
    intro name declared readable
    refine accepted _ (List.mem_map.2 ⟨name, declared, rfl⟩) _ ?_
    rw [reads w a inst name declared, if_pos readable]
  obtain ⟨n, filled, done, back⟩ := Copier.exists_return options known built hs slotwise inst live
    fits any there empty
  have first : (c.copy (.object a) (.map m)).run w =
      (.ok n, ((c.copy (.object a) (.map m)).run w).2) :=
    Prod.ext ((Edit.run_fst _ w).trans (congrArg Prod.fst done)) rfl
  refine ⟨n, _, first, ?_⟩
  rw [Edit.heap_run, done]
  obtain ⟨b, made, new⟩ := built.exists_instantiate hs concrete filled
  obtain ⟨k, last, done', of_a, of_b⟩ := back b made new
  have inst_b := Registry.instanceOf_of_instantiate built hs new
  refine ⟨b, made, new, ?_⟩
  generalize second : (⟨made, ((c.copy (.object a) (.map m)).run w).2.catalogs⟩ : World) = w₂
  have registries : w₂.catalogs.registry = w.catalogs.registry := by
    rw [← second]
    exact Edit.registry_run _ w
  have done' : (c.copy (.map m) (.object b)).answer w₂.catalogs.registry w₂.heap =
      (.ok k, last) := by
    rw [registries, ← second]
    exact done'
  refine ⟨k, _, Prod.ext ((Edit.run_fst _ w₂).trans (congrArg Prod.fst done')) rfl, ?_⟩
  have heap : ((c.copy (.map m) (.object b)).run w₂).2.heap = last :=
    (Edit.heap_run _ w₂).trans (congrArg Prod.snd done')
  intro t ht
  obtain ⟨name, declared, rfl⟩ := List.mem_map.1 ht
  have of_b := of_b name declared
  rw [reads _ a inst name declared, reads _ a inst name declared, reads _ b inst_b name declared,
    reads _ b inst_b name declared, heap, of_a]
  constructor
  · intro readable writable
    rw [if_pos ⟨readable, writable⟩] at of_b
    rw [of_b, if_pos (by exact readable)]
    exact ⟨_, rfl, rfl, rfl⟩
  · intro fixed
    have fixed : ¬(Declarations.along (r.lineage s.name) name).writer.isSome = true :=
      fun writable => Bool.noConfusion (fixed.symm.trans writable)
    rw [if_neg fun both => fixed both.2] at of_b
    rw [of_b, ← second]

/-- Persons with a name and a number that is given once, and members, who have an age and
a pin that nobody reads. -/
def club : List Definition :=
  [.type (((TypeDraft.plain "Person").withField (.plain "name" .string)).withField
     ⟨"number", .int, [], true, some (.int 0), false⟩),
   .type (((((TypeDraft.plain "Member").extending "Person").withAccessor
     (.ofSlot "age" .int)).withMutator (.ofSlot "age" .int)).withMutator (.ofSlot "pin" .int))]

def clubRegistry : Registry := (Builder.empty.declareAll club).build

/-- Ann, of unknown age, and an empty map. -/
def clubWorld : World :=
  ⟨{ Heap.empty with
      objects := ⟨#[.ofList [("name", .string "Ann"), ("number", .int 5), ("pin", .int 77)]]⟩
      maps := ⟨#[.empty]⟩ },
   (Catalogs.empty.add clubRegistry).2⟩

def ann : ObjectRef := ⟨0, "Member", ["Person"]⟩

def clubMap : MapRef := ⟨0, .any⟩

def clubCopier : Copier := ⟨⟨0⟩, .plain⟩

def clubMember (name : String) : Template :=
  (Declarations.along (clubRegistry.lineage "Member") name).merge name

theorem ann_returns_with_unknown_age :
    ∃ n first b made k last, (clubCopier.copy (.object ann) (.map clubMap)).run clubWorld =
        (.ok n, first) ∧
      clubRegistry.instantiate first.heap "Member" = .ok (b, made) ∧
      (clubCopier.copy (.map clubMap) (.object b)).run ⟨made, first.catalogs⟩ = (.ok k, last) ∧
      last.reads b (clubMember "name") = .ok (.string "Ann") ∧
      last.reads b (clubMember "age") = .ok .null ∧
      last.reads b (clubMember "number") =
        World.reads ⟨made, first.catalogs⟩ b (clubMember "number") := by
  obtain ⟨s, found, name, concrete, supertypes⟩ : ∃ s, clubRegistry.type? "Member" = some s ∧
      s.name = "Member" ∧ s.isAbstract = false ∧ s.supertypes = ["Person"] :=
    ⟨_, rfl, rfl, rfl, rfl⟩
  have names : Copier.namesAlong (clubRegistry.lineage s.name) =
      ["age", "pin", "name", "number"] := by
    rw [name]
    rfl
  have slotwise : ∀ n ∈ Copier.namesAlong (clubRegistry.lineage s.name),
      (Declarations.along (clubRegistry.lineage s.name) n).Slotwise n := by
    rw [names, name]
    simp only [List.mem_cons, List.not_mem_nil, or_false, forall_eq_or_imp, forall_eq]
    refine ⟨⟨?_, ?_⟩, ⟨nofun, ?_⟩, ⟨?_, ?_⟩, ⟨?_, nofun⟩⟩
    all_goals
      rintro _ ⟨⟩
      rfl
  have listed : membersAlong (clubRegistry.lineage s.name) =
      [clubMember "age", clubMember "pin", clubMember "name", clubMember "number"] := by
    rw [name]
    rfl
  have accepted : ∀ t ∈ membersAlong (clubRegistry.lineage s.name), ∀ v,
      clubWorld.reads ann t = .ok v → t.declaredType.accepts v = true := by
    rw [listed]
    simp only [List.mem_cons, List.not_mem_nil, or_false, forall_eq_or_imp, forall_eq]
    refine ⟨?_, nofun, ?_, ?_⟩
    all_goals
      rintro _ ⟨⟩
      rfl
  obtain ⟨n, first, done, b, made, new, k, last, done', returns⟩ :=
    copies_return_through_map (c := clubCopier) (w := clubWorld) (r := clubRegistry) (a := ann)
      (m := clubMap) rfl rfl (Registry.built_build club) (Registry.mem_and_name_of_type? found).1
      concrete slotwise ⟨name.symm, supertypes.symm⟩ Nat.zero_lt_one accepted rfl Nat.zero_lt_one
      rfl
  rw [listed] at returns
  simp only [List.mem_cons, List.not_mem_nil, or_false, forall_eq_or_imp, forall_eq] at returns
  obtain ⟨⟨age, -⟩, -, ⟨known, -⟩, -, kept⟩ := returns
  refine ⟨n, first, b, made, k, last, done, name ▸ new, done', ?_, ?_, kept rfl⟩
  · obtain ⟨v, held, -, back⟩ := known rfl rfl
    cases held
    exact back
  · obtain ⟨v, held, -, back⟩ := age rfl rfl
    cases held
    exact back

end Memberwise
