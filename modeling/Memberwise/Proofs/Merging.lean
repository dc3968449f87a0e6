import Memberwise.Proofs.Answers
import Memberwise.Proofs.Subtyping

/-!
# Merged members

Along a line of types a name may be declared as a field, as an accessor and as a
mutator, each several times.  The first declaration of each kind counts, and
`Merges` says what member the three make up together: which of them reads,
which writes and which says what is accepted.  Discovery finds exactly such
members, for the types of every registry and the objects of all their subtypes.
-/

namespace Memberwise

variable {line : List TypeDefinition} {name : String}

/-- The first field of a name along a line of types. -/
def firstField? (line : List TypeDefinition) (name : String) : Option Field :=
  line.findSome? (·.field? name)

def firstAccessor? (line : List TypeDefinition) (name : String) : Option Accessor :=
  line.findSome? (·.accessor? name)

def firstMutator? (line : List TypeDefinition) (name : String) : Option Mutator :=
  line.findSome? (·.mutator? name)

/-- The names that a type declares: as fields, then as accessors, then as mutators. -/
def declaredNames (t : TypeDefinition) : List String :=
  t.fields.map (·.name) ++ t.accessors.map (·.name) ++ t.mutators.map (·.name)

/-- The owner of the first declaration along a line of types. -/
def firstOwner? {α : Type} (pick : TypeDefinition → Option α) (line : List TypeDefinition) :
    Option ValueType :=
  (line.find? fun t => (pick t).isSome).map fun t => .object t.name

/-- What a member does with an object in a world, in terms of the first
declarations of its name. -/
structure Merges (line : List TypeDefinition) (w : World) (o : ObjectRef) (m : Member) :
    Prop where
  readable : m.readable = true ↔
    (firstAccessor? line m.name).isSome ∨ (firstField? line m.name).isSome
  writable : m.writable = true ↔ (firstMutator? line m.name).isSome ∨
    ∃ f, firstField? line m.name = some f ∧ f.readOnly = false
  /-- An accessor's getter reads. -/
  readsAccessor : ∀ a, firstAccessor? line m.name = some a →
    (Query.run w fun h => m.readIn h (.object o)).1 =
      (a.getter w.heap (w.heap.slots o)).mapError (.handling m.name)
  /-- Without an accessor the slot is read. -/
  readsSlot : ∀ f, firstAccessor? line m.name = none → firstField? line m.name = some f →
    (Query.run w fun h => m.readIn h (.object o)).1 = .ok (w.heap.slot o m.name)
  /-- A mutator refuses what it does not accept. -/
  refusesMutator : ∀ u v, firstMutator? line m.name = some u → u.accepts.accepts v = false →
    (m.assignIn (.object o) v).run w = (.error (.handling m.name
      (.access (.typeMismatch u.accepts.display v.type.display))), w)
  /-- Without a mutator the field refuses what it does not accept. -/
  refusesSlot : ∀ f v, firstMutator? line m.name = none → firstField? line m.name = some f →
    f.readOnly = false → f.type.accepts v = false →
    (m.assignIn (.object o) v).run w = (.error (.handling m.name
      (.access (.typeMismatch f.type.display v.type.display))), w)
  /-- A mutator's setter writes, or fails and changes nothing. -/
  writesMutator : ∀ u v, firstMutator? line m.name = some u → u.accepts.accepts v = true →
    (m.assignIn (.object o) v).run w =
      match u.setter w.heap (w.heap.slots o) v with
      | .ok slots => (.ok (), { w with heap := w.heap.setSlots o slots })
      | .error e => (.error (.handling m.name e), w)
  /-- Without a mutator the slot is written. -/
  writesSlot : ∀ f v, firstMutator? line m.name = none → firstField? line m.name = some f →
    f.readOnly = false → f.type.accepts v = true →
    (m.assignIn (.object o) v).run w =
      (.ok (), { w with heap := w.heap.setSlot o m.name v })
  declaredType : some m.declaredType = ((firstAccessor? line m.name).map (·.returns) <|>
    (firstField? line m.name).map (·.type) <|> (firstMutator? line m.name).map (·.accepts))
  declaringType : some m.declaringType = (firstOwner? (·.accessor? m.name) line <|>
    firstOwner? (·.field? m.name) line <|> firstOwner? (·.mutator? m.name) line)
  /-- The tags of field, accessor and mutator, of each name the first. -/
  tags : m.tags = ((firstField? line m.name).elim [] (·.tags) ++
    (firstAccessor? line m.name).elim [] (·.tags) ++
    (firstMutator? line m.name).elim [] (·.tags)).eraseDupsBy fun later earlier =>
      earlier.name == later.name

/-! The search for the nearest declaration is a search for the first one. -/

theorem nearest?_declaration {α : Type} (pick : TypeDefinition → Option α)
    (line : List TypeDefinition) :
    (nearest? pick line).map (·.declaration) = line.findSome? pick := by
  induction line with
  | nil => rfl
  | cons t line ih =>
      rw [nearest?, List.findSome?_cons, ← ih]
      cases pick t with
      | some x => rfl
      | none => simp only [Option.map_map, Function.comp_def]

theorem nearest?_owner {α : Type} (pick : TypeDefinition → Option α)
    (line : List TypeDefinition) :
    (nearest? pick line).map (fun d => ValueType.object d.owner) = firstOwner? pick line := by
  induction line with
  | nil => rfl
  | cons t line ih =>
      rw [nearest?, firstOwner?, List.find?_cons]
      cases pick t with
      | some x => rfl
      | none =>
          rw [Option.map_map]
          exact ih

theorem exists_owner {α : Type} {pick : TypeDefinition → Option α} {d : Declared α}
    (h : nearest? pick line = some d) : ∃ t ∈ line, t.name = d.owner := by
  have owner := nearest?_owner pick line
  rw [h, firstOwner?, Option.map_some] at owner
  obtain ⟨t, found, e⟩ := Option.map_eq_some_iff.1 owner.symm
  exact ⟨t, List.mem_of_find?_eq_some found, by simpa using e⟩

/-- What is chosen along a list is from the list. -/
theorem mem_of_foldl_choice {α : Type} {choose : Option α → α → Option α}
    (chooses : ∀ best x, choose best x = best ∨ choose best x = some x) {xs : List α} :
    ∀ {best : Option α} {x : α}, xs.foldl choose best = some x → best = some x ∨ x ∈ xs := by
  induction xs with
  | nil => exact fun h => Or.inl h
  | cons y xs ih =>
      intro best x h
      rcases ih h with h | h
      · rcases chooses best y with e | e
        · exact Or.inl (e.symm.trans h)
        · have same : y = x := Option.some.inj (e.symm.trans h)
          exact Or.inr (same ▸ List.mem_cons_self)
      · exact Or.inr (List.mem_cons_of_mem _ h)

/-- The nearest owner is one of those given. -/
theorem mem_of_nearestOwner? {owners : List (Nat × String)} {n : String}
    (h : nearestOwner? owners = some n) : n ∈ owners.map (·.2) := by
  obtain ⟨p, hp, rfl⟩ := Option.map_eq_some_iff.1 h
  have given : p ∈ owners := by
    refine (mem_of_foldl_choice ?_ hp).resolve_left (by simp)
    intro best next
    cases best with
    | none => exact Or.inr rfl
    | some b =>
        by_cases lt : next.1 < b.1
        · exact Or.inr (if_pos lt)
        · exact Or.inl (if_neg lt)
  exact List.mem_map_of_mem given

namespace Declarations

theorem field_along : (along line name).field.map (·.declaration) = firstField? line name :=
  nearest?_declaration _ line

theorem accessor_along :
    (along line name).accessor.map (·.declaration) = firstAccessor? line name :=
  nearest?_declaration _ line

theorem mutator_along :
    (along line name).mutator.map (·.declaration) = firstMutator? line name :=
  nearest?_declaration _ line

/-- A name is declared by an accessor, else by a field, else by a mutator. -/
theorem cases_of_declared {d : Declarations} (declared : d.field.isSome ∨ d.accessor.isSome ∨
    d.mutator.isSome) :
    (∃ a, d.accessor = some a) ∨ (d.accessor = none ∧ ∃ f, d.field = some f) ∨
      (d.accessor = none ∧ d.field = none ∧ ∃ u, d.mutator = some u) := by
  cases ha : d.accessor with
  | some a => exact Or.inl ⟨a, rfl⟩
  | none =>
      cases hf : d.field with
      | some f => exact Or.inr (Or.inl ⟨rfl, f, rfl⟩)
      | none =>
          cases hu : d.mutator with
          | some u => exact Or.inr (Or.inr ⟨rfl, rfl, u, rfl⟩)
          | none => simp [ha, hf, hu] at declared

/-- An object must be of a type that declares the name. -/
theorem instanceName_along (declared : (firstField? line name).isSome ∨
    (firstAccessor? line name).isSome ∨ (firstMutator? line name).isSome) :
    ∃ t ∈ line, t.name = (along line name).instanceName := by
  have field : ∀ f, (along line name).field = some f → ∃ t ∈ line, t.name = f.owner :=
    fun _ => exists_owner
  have accessor : ∀ a, (along line name).accessor = some a → ∃ t ∈ line, t.name = a.owner :=
    fun _ => exists_owner
  have mutator : ∀ u, (along line name).mutator = some u → ∃ t ∈ line, t.name = u.owner :=
    fun _ => exists_owner
  rw [← field_along, ← accessor_along, ← mutator_along] at declared
  simp only [Option.isSome_map] at declared
  generalize along line name = d at *
  rw [instanceName]
  cases found : nearestOwner? ((d.field.map fun f => (f.depth, f.owner)).toList ++
      (d.accessor.map fun a => (a.depth, a.owner)).toList ++
      (d.mutator.map fun u => (u.depth, u.owner)).toList) with
  | some n =>
      have owner := mem_of_nearestOwner? found
      simp only [List.map_append, List.mem_append, List.mem_map, Option.mem_toList,
        Option.map_eq_some_iff] at owner
      rcases owner with (⟨_, ⟨f, hf, rfl⟩, rfl⟩ | ⟨_, ⟨a, ha, rfl⟩, rfl⟩) | ⟨_, ⟨u, hu, rfl⟩, rfl⟩
      · exact field f hf
      · exact accessor a ha
      · exact mutator u hu
  | none =>
      rw [Option.getD_none, declaringName]
      rcases cases_of_declared declared with ⟨a, ha⟩ | ⟨ha, f, hf⟩ | ⟨ha, hf, u, hu⟩
      · rw [ha]
        exact accessor a ha
      · rw [ha, hf]
        exact field f hf
      · rw [ha, hf, hu]
        exact mutator u hu

theorem name_of_firstField? {f : Field} (h : firstField? line name = some f) : f.name = name := by
  obtain ⟨t, -, found⟩ := List.exists_of_findSome?_eq_some h
  simpa using List.find?_some found

theorem reader_along : (along line name).reader =
    ((firstAccessor? line name).map (·.getter) <|>
      (firstField? line name).map fun _ => Getter.slot name) := by
  have slot : ∀ f, firstField? line name = some f → f.name = name := fun _ => name_of_firstField?
  rw [← field_along, ← accessor_along] at *
  generalize along line name = d at *
  cases ha : d.accessor with
  | some a => simp [reader, ha]
  | none =>
      cases hf : d.field with
      | some f => simp [reader, ha, hf, slot f.declaration (by rw [hf]; rfl)]
      | none => simp [reader, ha, hf]

theorem writer_along_of_mutator {u : Mutator} (h : firstMutator? line name = some u) :
    (along line name).writer = some (u.setter, u.accepts) := by
  rw [← mutator_along] at h
  obtain ⟨d, hd, rfl⟩ := Option.map_eq_some_iff.1 h
  simp [writer, hd]

theorem writer_along_of_field {f : Field} (hu : firstMutator? line name = none)
    (hf : firstField? line name = some f) : (along line name).writer =
      if f.readOnly then none else some (Setter.slot name, f.type) := by
  have slot : f.name = name := name_of_firstField? hf
  rw [← mutator_along] at hu
  rw [← field_along] at hf
  obtain ⟨d, hd, rfl⟩ := Option.map_eq_some_iff.1 hf
  simp [writer, hd, Option.map_eq_none_iff.1 hu, slot]

theorem writer_along_of_neither (hu : firstMutator? line name = none)
    (hf : firstField? line name = none) : (along line name).writer = none := by
  rw [← mutator_along, Option.map_eq_none_iff] at hu
  rw [← field_along, Option.map_eq_none_iff] at hf
  simp [writer, hu, hf]

theorem isSome_reader_along : (along line name).reader.isSome = true ↔
    (firstAccessor? line name).isSome ∨ (firstField? line name).isSome := by
  rw [reader_along]
  simp

theorem isSome_writer_along : (along line name).writer.isSome = true ↔
    (firstMutator? line name).isSome ∨
      ∃ f, firstField? line name = some f ∧ f.readOnly = false := by
  cases hu : firstMutator? line name with
  | some u => simp [writer_along_of_mutator hu]
  | none =>
      cases hf : firstField? line name with
      | some f => simp [writer_along_of_field hu hf]
      | none => simp [writer_along_of_neither hu hf]

theorem declaredType_along (declared : (firstField? line name).isSome ∨
    (firstAccessor? line name).isSome ∨ (firstMutator? line name).isSome) :
    some (along line name).declaredType = ((firstAccessor? line name).map (·.returns) <|>
      (firstField? line name).map (·.type) <|> (firstMutator? line name).map (·.accepts)) := by
  rw [← field_along, ← accessor_along, ← mutator_along] at *
  simp only [Option.isSome_map] at declared
  rcases cases_of_declared declared with ⟨a, ha⟩ | ⟨ha, f, hf⟩ | ⟨ha, hf, u, hu⟩
  · simp [declaredType, ha]
  · simp [declaredType, ha, hf]
  · simp [declaredType, ha, hf, hu]

theorem declaringName_along (declared : (firstField? line name).isSome ∨
    (firstAccessor? line name).isSome ∨ (firstMutator? line name).isSome) :
    some (ValueType.object (along line name).declaringName) =
      (firstOwner? (·.accessor? name) line <|> firstOwner? (·.field? name) line <|>
        firstOwner? (·.mutator? name) line) := by
  have accessor : (along line name).accessor.map (fun d => ValueType.object d.owner) =
      firstOwner? (·.accessor? name) line := nearest?_owner _ line
  have field : (along line name).field.map (fun d => ValueType.object d.owner) =
      firstOwner? (·.field? name) line := nearest?_owner _ line
  have mutator : (along line name).mutator.map (fun d => ValueType.object d.owner) =
      firstOwner? (·.mutator? name) line := nearest?_owner _ line
  rw [← field_along, ← accessor_along, ← mutator_along] at declared
  rw [← accessor, ← field, ← mutator]
  simp only [Option.isSome_map] at declared
  rcases cases_of_declared declared with ⟨a, ha⟩ | ⟨ha, f, hf⟩ | ⟨ha, hf, u, hu⟩
  · simp [declaringName, ha]
  · simp [declaringName, ha, hf]
  · simp [declaringName, ha, hf, hu]

theorem tags_along : (along line name).tags = ((firstField? line name).elim [] (·.tags) ++
    (firstAccessor? line name).elim [] (·.tags) ++
    (firstMutator? line name).elim [] (·.tags)).eraseDupsBy fun later earlier =>
      earlier.name == later.name := by
  rw [tags, distinctTags_eq_eraseDupsBy, ← field_along, ← accessor_along, ← mutator_along]
  simp only [Option.elim_map, Function.comp_def]

end Declarations

/-! Reading and writing members whose access is through an object. -/

section Access

variable {w : World} {o : ObjectRef} {m : Member} {type : String} {reader : Option Getter}
  {writer : Option (Setter × ValueType)}

theorem run_readIn_object (route : m.route = .direct (.object type reader writer))
    (readable : m.readable = true) (inst : o.isA type = true) {getter : Getter}
    (read : reader = some getter) : (Query.run w fun h => m.readIn h (.object o)).1 =
      (getter w.heap (w.heap.slots o)).mapError (.handling m.name) := by
  rw [Query.run_fst, Member.readIn, if_pos readable, route, Query.answer_mapError,
    Member.readRoute, Query.answer_ofExcept]
  simp only [Access.read, Access.readObject, inst, read, if_true]

theorem run_assignIn_object (route : m.route = .direct (.object type reader writer))
    (writable : m.writable = true) (inst : o.isA type = true) {setter : Setter}
    {accepted : ValueType} (write : writer = some (setter, accepted)) (v : Value) :
    (m.assignIn (.object o) v).run w =
      if accepted.accepts v then
        match setter w.heap (w.heap.slots o) v with
        | .ok slots => (.ok (), { w with heap := w.heap.setSlots o slots })
        | .error e => (.error (.handling m.name e), w)
      else (.error (.handling m.name
        (.access (.typeMismatch accepted.display v.type.display))), w) := by
  have asks : m.assignIn (.object o) v = Edit.update fun h => Query.ofExcept
      ((Access.writeObject h type writer (.object o) v).mapError (.handling m.name)) := by
    simp only [Member.assignIn, Member.writeIn, writable, if_true, route, Member.writeRoute,
      Access.write, Query.mapError_ofExcept]
  rw [asks, Edit.run_update_ofExcept]
  simp only [Access.writeObject, inst, write, if_true]
  by_cases fits : accepted.accepts v = true
  · rw [if_pos fits, if_pos fits]
    cases setter w.heap (w.heap.slots o) v with
    | ok slots => rfl
    | error e => rfl
  · rw [if_neg fits, if_neg fits]
    rfl

end Access

/-- The member that discovery makes of the declarations of a name merges them,
for all objects of the types that declare it. -/
theorem merges_along (declared : (firstField? line name).isSome ∨
    (firstAccessor? line name).isSome ∨ (firstMutator? line name).isSome) {w : World}
    {o : ObjectRef} (inst : ∀ t ∈ line, o.isA t.name = true) :
    Merges line w o (.ofTemplate ((Declarations.along line name).merge name) none) := by
  have isA : o.isA (Declarations.along line name).instanceName = true := by
    obtain ⟨t, ht, e⟩ := Declarations.instanceName_along declared
    exact e ▸ inst t ht
  have reads : ∀ getter, (Declarations.along line name).reader = some getter → _ :=
    fun getter read => run_readIn_object (w := w) rfl
      (m := .ofTemplate ((Declarations.along line name).merge name) none)
      (show (Declarations.along line name).reader.isSome = true by rw [read]; rfl) isA read
  have writes : ∀ setter accepted,
      (Declarations.along line name).writer = some (setter, accepted) → ∀ v, _ :=
    fun setter accepted write => run_assignIn_object (w := w) rfl
      (m := .ofTemplate ((Declarations.along line name).merge name) none)
      (show (Declarations.along line name).writer.isSome = true by rw [write]; rfl) isA write
  have stored : ∀ f, firstMutator? line name = none → firstField? line name = some f →
      f.readOnly = false →
      (Declarations.along line name).writer = some (Setter.slot name, f.type) := by
    intro f hu hf free
    rw [Declarations.writer_along_of_field hu hf, free]
    rfl
  exact
    { readable := Declarations.isSome_reader_along
      writable := Declarations.isSome_writer_along
      readsAccessor := by
        intro a ha
        refine reads a.getter ?_
        rw [Declarations.reader_along, show firstAccessor? line name = some a from ha]
        rfl
      readsSlot := by
        intro f ha hf
        refine reads (Getter.slot name) ?_
        rw [Declarations.reader_along, show firstAccessor? line name = none from ha,
          show firstField? line name = some f from hf]
        rfl
      refusesMutator := by
        intro u v hu refused
        rw [writes u.setter u.accepts (Declarations.writer_along_of_mutator hu), if_neg]
        simp [refused]
      refusesSlot := by
        intro f v hu hf free refused
        rw [writes (Setter.slot name) f.type (stored f hu hf free), if_neg]
        simp [refused]
      writesMutator := by
        intro u v hu fits
        rw [writes u.setter u.accepts (Declarations.writer_along_of_mutator hu), if_pos fits]
      writesSlot := by
        intro f v hu hf free fits
        rw [writes (Setter.slot name) f.type (stored f hu hf free), if_pos fits]
        rfl
      declaredType := Declarations.declaredType_along declared
      declaringType := Declarations.declaringName_along declared
      tags := Declarations.tags_along }

theorem names_membersAlong (line : List TypeDefinition) :
    (membersAlong line).map (·.name) = distinct (line.flatMap declaredNames) := by
  have names : (membersAlong line).map (·.name) = distinct (line.flatMap (·.memberNames)) := by
    rw [membersAlong, List.map_map]
    exact List.map_id _
  rw [names]
  exact distinct_flatMap_distinct declaredNames line

theorem declared_iff : (∃ t ∈ line, name ∈ declaredNames t) ↔ (firstField? line name).isSome ∨
    (firstAccessor? line name).isSome ∨ (firstMutator? line name).isSome := by
  simp only [firstField?, firstAccessor?, firstMutator?, List.findSome?_isSome_iff, declaredNames,
    TypeDefinition.field?, TypeDefinition.accessor?, TypeDefinition.mutator?, List.find?_isSome,
    List.mem_append, List.mem_map, beq_iff_eq, ← exists_or, ← and_or_left, or_assoc]

/-- Discovery finds one member for each name declared along the line of types, in
order, and every one of them merges the first declarations of its name. -/
theorem discovery_merges_first_declarations {w : World} {d : CatalogRef}
    (built : (w.catalogs.registry d).Built) {s t : TypeDefinition}
    (ht : t ∈ (w.catalogs.registry d).types) (hs : s ∈ (w.catalogs.registry d).types)
    (sub : (w.catalogs.registry d).isSubtype s.id t.id = true) {h h' : Heap}
    {o : ObjectRef}
    (made : (w.catalogs.registry d).instantiate h s.name = .ok (o, h')) (deep : Bool) :
    let line := if deep then (w.catalogs.registry d).lineage t.name else [t]
    ∃ ms, (Query.run w fun _ => d.membersOfType (.object t.name) deep).1 = .ok ms ∧
      (ms.map (·.name)).Nodup ∧
      (∀ n, n ∈ ms.map (·.name) ↔ ∃ u ∈ line, n ∈ declaredNames u) ∧
      ((ms.map (·.name)).Pairwise fun m n =>
        (line.flatMap declaredNames).idxOf m < (line.flatMap declaredNames).idxOf n) ∧
      ∀ m ∈ ms, Merges line w o m := by
  intro line
  have inst : ∀ u ∈ line, o.isA u.name = true := by
    intro u hu
    rw [built.isA_eq_of_instantiate hs made]
    refine built.isA_of_mem_lineage hs ht sub ?_
    cases deep with
    | true => exact hu
    | false =>
        rw [List.mem_singleton.1 hu, built.lineage_eq ht]
        exact List.mem_cons_self
  refine ⟨(membersAlong line).map fun t => .ofTemplate t none, ?_, ?_⟩
  · have found : discoverObject (w.catalogs.registry d) t.name deep = .ok (membersAlong line) := by
      rw [discoverObject, built.type?_name ht]
    rw [Query.run_fst]
    show (d.ask (.object t.name) deep >>= fun ts => pure _).answer w.catalogs.registry = _
    rw [Query.answer_bind, CatalogRef.answer_ask, discoverType, found]
    rfl
  have names : ((membersAlong line).map fun t => Member.ofTemplate t none).map (·.name) =
      distinct (line.flatMap declaredNames) := by
    rw [← names_membersAlong, List.map_map]
    rfl
  rw [names]
  refine ⟨nodup_distinct _, ?_, distinct_pairwise_idxOf _, ?_⟩
  · intro n
    rw [mem_distinct, List.mem_flatMap]
  · intro m hm
    obtain ⟨template, found, rfl⟩ := List.mem_map.1 hm
    obtain ⟨n, hn, rfl⟩ := List.mem_map.1 found
    refine merges_along (declared_iff.1 ?_) inst
    have listed : n ∈ (membersAlong line).map (·.name) := List.mem_map.2 ⟨_, found, rfl⟩
    rw [names_membersAlong, mem_distinct, List.mem_flatMap] at listed
    exact listed

/-- A type with a label that is read as text, and a subtype that sets it by number. -/
def storage : List Definition :=
  [.type ((TypeDraft.plain "Box").withAccessor (.ofSlot "label" .string)),
   .type (((TypeDraft.plain "Crate").extending "Box").withMutator (.ofSlot "label" .int))]

def storageWorld : World :=
  ⟨.empty, (Catalogs.empty.add (Builder.empty.declareAll storage).build).2⟩

theorem crate_label_reads_text_and_refuses_it :
    ∃ ms, (Query.run storageWorld fun _ =>
        CatalogRef.membersOfType ⟨0⟩ (.object "Crate") true).1 = .ok ms ∧
      ∃ m ∈ ms, m.name = "label" ∧ m.declaredType = .string ∧
        (m.assignIn (.object ⟨0, "Crate", ["Box"]⟩) (.string "A")).run storageWorld =
          (.error (.handling "label" (.access (.typeMismatch "Int" "String"))), storageWorld) := by
  obtain ⟨ms, found, -, names, -, merges⟩ := discovery_merges_first_declarations
    (w := storageWorld) (d := ⟨0⟩) (Registry.built_build storage)
    List.mem_cons_self List.mem_cons_self rfl
    (h := .empty) (o := ⟨0, "Crate", ["Box"]⟩) rfl true
  have declared : "label" ∈ ms.map (·.name) :=
    (names "label").2 ⟨_, List.mem_cons_self, List.mem_cons_self⟩
  obtain ⟨m, hm, name⟩ := List.mem_map.1 declared
  have merged := merges m hm
  refine ⟨ms, found, m, hm, name, ?_, ?_⟩
  · have type := merged.declaredType
    rw [name] at type
    exact Option.some.inj type
  · have refused := merged.refusesMutator _ (.string "A") (by rw [name]; rfl) rfl
    rw [name] at refused
    exact refused

end Memberwise
