import Memberwise.Proofs.Contributors

/-!
# Which objects a member serves

A member that is merged along a line of types asks its objects to be of the first type that
declares the name.  Where this one descends from all types that contribute to the member, the
objects that are served are those of all these types.  Where it does not, an object can be
served by a getter or a setter of a type that it is not of.  What a member asks for can be
below the type that it is reported under, so not every object of this type can be read.
-/

namespace Memberwise

namespace Registry

variable {r : Registry} {s t u first : TypeDefinition} {line : List TypeDefinition} {name : String}

theorem Built.concrete_of_instantiate (built : r.Built) (hs : s ∈ r.types) {h after : Heap}
    {o : ObjectRef} (made : r.instantiate h s.name = .ok (o, after)) : s.isAbstract = false := by
  cases kind : s.isAbstract with
  | false => rfl
  | true =>
      simp only [instantiate, built.type?_name hs, kind, if_true] at made
      cases made

/-- Each new object that is of a type is of all types that contribute to the member. -/
def ServesOnlyOwn (r : Registry) (line : List TypeDefinition) (name : String)
    (first : TypeDefinition) : Prop :=
  ∀ s ∈ r.types, ∀ h o after, r.instantiate h s.name = .ok (o, after) →
    o.isA first.name = true → ∀ u, Contributes line name u → o.isA u.name = true

/-- The types of which there are objects decide what objects are served. -/
theorem Built.servesOnlyOwn_iff (built : r.Built) (hfirst : first ∈ r.types)
    (known : ∀ u, Contributes line name u → u ∈ r.types) :
    r.ServesOnlyOwn line name first ↔ ∀ s ∈ r.types, s.isAbstract = false →
      r.isSubtype s.id first.id = true → ∀ u, Contributes line name u →
        r.isSubtype s.id u.id = true := by
  constructor
  · intro own s hs concrete sub u contributes
    obtain ⟨o, after, made⟩ := built.exists_instantiate hs concrete .empty
    have inst := built.isA_eq_of_instantiate hs made
    rw [← built.isA_iff_isSubtype hs (known u contributes), ← inst]
    refine own s hs _ o after made ?_ u contributes
    rw [inst, built.isA_iff_isSubtype hs hfirst]
    exact sub
  · intro below s hs h o after made served u contributes
    have inst := built.isA_eq_of_instantiate hs made
    rw [inst, built.isA_iff_isSubtype hs hfirst] at served
    rw [inst, built.isA_iff_isSubtype hs (known u contributes)]
    exact below s hs (built.concrete_of_instantiate hs made) served u contributes

/-- It is enough that the first type descends from the others, and needed if there are objects
of it. -/
theorem Built.servesOnlyOwn_of_descends (built : r.Built) (hfirst : first ∈ r.types)
    (known : ∀ u, Contributes line name u → u ∈ r.types)
    (below : ∀ u, Contributes line name u → r.isSubtype first.id u.id = true) :
    r.ServesOnlyOwn line name first := by
  refine (built.servesOnlyOwn_iff hfirst known).2 fun s hs concrete sub u contributes => ?_
  exact built.isSubtype_trans hs hfirst (known u contributes) sub (below u contributes)

theorem Built.servesOnlyOwn_iff_of_concrete (built : r.Built) (hfirst : first ∈ r.types)
    (known : ∀ u, Contributes line name u → u ∈ r.types) (concrete : first.isAbstract = false) :
    r.ServesOnlyOwn line name first ↔
      ∀ u, Contributes line name u → r.isSubtype first.id u.id = true := by
  refine ⟨fun own => ?_, built.servesOnlyOwn_of_descends hfirst known⟩
  exact (built.servesOnlyOwn_iff hfirst known).1 own first hfirst concrete
    (built.isSubtype_refl hfirst)

/-- In the view of a type alone, and where no type has several parents, the first type
descends from all that contribute. -/
theorem Built.isSubtype_of_contributes (built : r.Built) (ht : t ∈ r.types) {deep : Bool}
    (plain : deep = false ∨ ∀ s ∈ r.types, s.parentIds.length ≤ 1)
    (found : firstDeclaring? (r.line t deep) name = some first)
    (contributes : Contributes (r.line t deep) name u) : r.isSubtype first.id u.id = true := by
  rcases plain with rfl | single
  · have alone : ∀ v ∈ r.line t false, v = t := fun v hv => List.mem_singleton.1 hv
    rw [alone u contributes.mem, alone first (List.mem_of_find?_eq_some found)]
    exact built.isSubtype_refl ht
  · exact built.isSubtype_of_one_parent single ht found contributes

/-- Objects that only say of what types they are can say it of the first type alone. -/
theorem Built.isA_of_contributes_iff (built : r.Built) (hfirst : first ∈ r.types)
    (known : ∀ u, Contributes line name u → u ∈ r.types) :
    (∀ o : ObjectRef, o.isA first.name = true → ∀ u, Contributes line name u →
      o.isA u.name = true) ↔ ∀ u, Contributes line name u → u = first := by
  constructor
  · intro trusted u contributes
    -- an object that says it is of the first type, and of no other
    have isOf := trusted ⟨0, first.name, []⟩ (by simp [ObjectRef.isA]) u contributes
    have named : first.name = u.name := by simpa [ObjectRef.isA] using isOf
    exact built.lineal.eq_of_name (known u contributes) hfirst named.symm
  · intro one o inst u contributes
    rw [one u contributes]
    exact inst

end Registry

/-- The member is read and written in the objects of a type, by its own paths, and all other
objects are refused before either path is taken. -/
structure Member.Guards (m : Member) (type : String) (reader : Option Getter)
    (writer : Option (Setter × ValueType)) : Prop where
  reads : ∀ getter, reader = some getter → ∀ w o, o.isA type = true →
    (Query.run w fun h => m.readIn h (.object o)).1 =
      (getter w.heap (w.heap.slots o)).mapError (.handling m.name)
  writes : ∀ setter accepted, writer = some (setter, accepted) → ∀ w o v, o.isA type = true →
    (m.assignIn (.object o) v).run w =
      if accepted.accepts v then
        match setter w.heap (w.heap.slots o) v with
        | .ok slots => (.ok (), { w with heap := w.heap.setSlots o slots })
        | .error e => (.error (.handling m.name e), w)
      else (.error (.handling m.name
        (.access (.typeMismatch accepted.display v.type.display))), w)
  refusesToRead : reader.isSome → ∀ w o, o.isA type = false →
    (Query.run w fun h => m.readIn h (.object o)).1 =
      .error (.handling m.name (.access (.typeMismatch type o.typeName)))
  refusesToWrite : writer.isSome → ∀ w o v, o.isA type = false →
    (m.assignIn (.object o) v).run w =
      (.error (.handling m.name (.access (.typeMismatch type o.typeName))), w)

theorem Member.guards_merged {line : List TypeDefinition} {name : String} {first : TypeDefinition}
    (found : firstDeclaring? line name = some first) :
    (merged line name).Guards first.name (Declarations.along line name).reader
      (Declarations.along line name).writer := by
  have asks := Declarations.instanceName_along_eq found
  have away : ∀ o : ObjectRef, o.isA first.name = false →
      ¬(merged line name).Serves (.object o) := by
    intro o foreign serves
    obtain ⟨_, ⟨⟩, inst⟩ := serves_merged serves
    rw [asks, foreign] at inst
    cases inst
  constructor
  · intro getter reader w o inst
    exact run_readIn_object rfl (Option.isSome_of_eq_some reader) (by rw [asks, inst]) reader
  · intro setter accepted writer w o v inst
    exact run_assignIn_object rfl (Option.isSome_of_eq_some writer) (by rw [asks, inst]) writer v
  · intro readable w o foreign
    rw [Query.run_fst, readIn_merged_of_not_serves (away o foreign) readable, asks,
      Query.answer_throw]
    rfl
  · intro writable w o v foreign
    rw [run_assignIn_of_not_serves (away o foreign) writable, asks]
    rfl

/-- A member serves the objects of the first type that declares it in the view, by the paths of
types that contribute to it.  These objects are of all such types exactly if each type of
objects below the first one is below the others too; so it is in the view of a type alone, and
where no type has several parents.  Objects that were not made of a registered type, and only
say of what types they are, are so exactly if just one type contributes. -/
theorem served_objects_are_of_contributors_iff {w : World} {d : CatalogRef}
    (built : (w.catalogs.registry d).Built) {t : TypeDefinition}
    (ht : t ∈ (w.catalogs.registry d).types) {deep : Bool} {m : Member}
    (discovered : m.DiscoveredFrom w d t deep) :
    let r := w.catalogs.registry d
    let line := r.line t deep
    ∃ first, firstDeclaring? line m.name = some first ∧
      m.Guards first.name (Declarations.along line m.name).reader
        (Declarations.along line m.name).writer ∧
      (∀ getter, (Declarations.along line m.name).reader = some getter →
        ∃ c, Contributes line m.name c ∧ c.readPath? m.name = some getter) ∧
      (∀ path, (Declarations.along line m.name).writer = some path →
        ∃ c, Contributes line m.name c ∧ c.writePath? m.name = some path) ∧
      (r.ServesOnlyOwn line m.name first ↔ ∀ s ∈ r.types, s.isAbstract = false →
        r.isSubtype s.id first.id = true → ∀ u, Contributes line m.name u →
          r.isSubtype s.id u.id = true) ∧
      (first.isAbstract = false → (r.ServesOnlyOwn line m.name first ↔
        ∀ u, Contributes line m.name u → r.isSubtype first.id u.id = true)) ∧
      (deep = false ∨ (∀ s ∈ r.types, s.parentIds.length ≤ 1) →
        r.ServesOnlyOwn line m.name first) ∧
      ((∀ o : ObjectRef, o.isA first.name = true → ∀ u, Contributes line m.name u →
        o.isA u.name = true) ↔ ∀ u, Contributes line m.name u → u = first) := by
  intro r line
  obtain ⟨name, rfl, declared⟩ := discovered.eq_merged built ht
  obtain ⟨first, found⟩ := exists_firstDeclaring? declared
  have known : ∀ u, Contributes line name u → u ∈ r.types :=
    fun u contributes => (built.mem_types_of_mem_line ht contributes.mem).1
  have hfirst := known first (.of_firstDeclaring? found)
  have reading : ∀ getter, (Declarations.along line name).reader = some getter →
      ∃ c, Contributes line name c ∧ c.readPath? name = some getter := by
    intro getter reader
    obtain ⟨c, contributes, -, path⟩ := exists_contributes_reading reader
    exact ⟨c, contributes, path⟩
  have below : (deep = false ∨ ∀ s ∈ r.types, s.parentIds.length ≤ 1) →
      r.ServesOnlyOwn line name first := fun plain =>
    built.servesOnlyOwn_of_descends hfirst known fun _ contributes =>
      built.isSubtype_of_contributes ht plain found contributes
  exact ⟨first, found, Member.guards_merged found, reading,
    fun _ => exists_contributes_writing, built.servesOnlyOwn_iff hfirst known,
    built.servesOnlyOwn_iff_of_concrete hfirst known, below,
    built.isA_of_contributes_iff hfirst known⟩

/-- Scanners are told their status and printers tell theirs; a combination of both does both. -/
def machines : List Definition :=
  [.type ((TypeDraft.plain "Scanner").withMutator (.ofSlot "status" .string)),
   .type ((TypeDraft.plain "Printer").withAccessor
     ⟨"status", .string, [], Getter.const (.string "ready")⟩),
   .type (((TypeDraft.plain "Combination").extending "Scanner").extending "Printer")]

def machineWorld : World :=
  ⟨.empty, (Catalogs.empty.add (Builder.empty.declareAll machines).build).2⟩

/-- The label of crates, which boxes declare. -/
def labelOfCrate : Member :=
  .merged ((storageWorld.catalogs.registry ⟨0⟩).lineage "Crate") "label"

theorem labelOfCrate_discovered : labelOfCrate.DiscoveredFrom storageWorld ⟨0⟩
    ((storageWorld.catalogs.registry ⟨0⟩).types.head (by decide)) true := by
  have found : (Query.run storageWorld fun _ =>
      CatalogRef.memberOfType? ⟨0⟩ (.object "Crate") "label" true).1 = .ok (some labelOfCrate) := rfl
  exact .found found

/-- Whatever the label of a crate is read in is a box. -/
theorem label_of_crate_stays_among_boxes :
    ∃ first, first.name = "Crate" ∧
      (storageWorld.catalogs.registry ⟨0⟩).ServesOnlyOwn
        ((storageWorld.catalogs.registry ⟨0⟩).lineage "Crate") "label" first := by
  obtain ⟨first, found, -, -, -, -, -, own, -⟩ := served_objects_are_of_contributors_iff
    (w := storageWorld) (d := ⟨0⟩) (Registry.built_build storage) List.mem_cons_self
    labelOfCrate_discovered
  cases found
  exact ⟨_, rfl, own (Or.inr (by decide))⟩

/-- The status of a combination is declared by printers.  A scanner is no printer, and yet
the printers' getter answers for it, while printers are refused. -/
theorem scanner_tells_status_of_printers :
    ∃ m, (Query.run machineWorld fun _ =>
        CatalogRef.memberOfType? ⟨0⟩ (.object "Combination") "status" true).1 = .ok (some m) ∧
      m.declaringType = .object "Printer" ∧
      (∃ o after, (machineWorld.catalogs.registry ⟨0⟩).instantiate .empty "Scanner" =
          .ok (o, after) ∧ o.isA "Printer" = false ∧
        (Query.run { machineWorld with heap := after } fun h => m.readIn h (.object o)).1 =
          .ok (.string "ready")) ∧
      ∃ o after, (machineWorld.catalogs.registry ⟨0⟩).instantiate .empty "Printer" =
          .ok (o, after) ∧
        (Query.run { machineWorld with heap := after } fun h => m.readIn h (.object o)).1 =
          .error (.handling "status" (.access (.typeMismatch "Scanner" "Printer"))) :=
  ⟨_, rfl, rfl, ⟨_, _, rfl, rfl, rfl⟩, _, _, rfl, rfl⟩

/-- In an object the member is read with a getter. -/
def Member.ReadsBy (m : Member) (getter : Getter) (o : ObjectRef) : Prop :=
  ∀ w, (Query.run w fun h => m.readIn h (.object o)).1 =
    (getter w.heap (w.heap.slots o)).mapError (.handling m.name)

/-- A member that can be read is read as its declaring type reads the name, in each object of
this type that is also of the other types that contribute to the member.  Objects of the
type in whose view it was discovered are such ones.  Where the first type that declares the
name descends from all that contribute, other objects of the declaring type are refused. -/
theorem templates_read_objects_of_contributors {w : World} {d : CatalogRef}
    (built : (w.catalogs.registry d).Built) {t : TypeDefinition}
    (ht : t ∈ (w.catalogs.registry d).types) {deep : Bool} {m : Member}
    (discovered : m.DiscoveredFrom w d t deep) (readable : m.readable = true) :
    let r := w.catalogs.registry d
    let line := r.line t deep
    ∃ c ∈ r.types, m.declaringType = .object c.name ∧ Contributes line m.name c ∧
      ∃ getter, c.readPath? m.name = some getter ∧
        ∀ s ∈ r.types, r.isSubtype s.id c.id = true → ∀ h o after,
          r.instantiate h s.name = .ok (o, after) →
            ((∀ u, Contributes line m.name u → r.isSubtype s.id u.id = true) →
              m.ReadsBy getter o) ∧
            (r.isSubtype s.id t.id = true → m.ReadsBy getter o) ∧
            ∀ first, firstDeclaring? line m.name = some first →
              (∀ u, Contributes line m.name u → r.isSubtype first.id u.id = true) →
                r.isSubtype s.id first.id = false →
                  ∀ w, (Query.run w fun h => m.readIn h (.object o)).1 =
                    .error (.handling m.name (.access (.typeMismatch first.name o.typeName))) := by
  intro r line
  obtain ⟨name, rfl, declared⟩ := discovered.eq_merged built ht
  obtain ⟨first, found⟩ := exists_firstDeclaring? declared
  obtain ⟨getter, reader⟩ := Option.isSome_iff_exists.1 readable
  obtain ⟨c, contributes, named, path⟩ := exists_contributes_reading reader
  have guards := Member.guards_merged found
  have known : ∀ u, Contributes line name u → u ∈ r.types ∧ r.isSubtype t.id u.id = true :=
    fun u contributes => built.mem_types_of_mem_line ht contributes.mem
  refine ⟨c, (known c contributes).1, congrArg ValueType.object named.symm, contributes, getter,
    path, ?_⟩
  intro s hs _ h o after made
  have inst : ∀ u, u ∈ r.types → o.isA u.name = r.isSubtype s.id u.id := by
    intro u hu
    rw [built.isA_eq_of_instantiate hs made, Bool.eq_iff_iff]
    exact built.isA_iff_isSubtype hs hu
  have hfirst := known first (.of_firstDeclaring? found)
  have served : (∀ u, Contributes line name u → r.isSubtype s.id u.id = true) →
      (Member.merged line name).ReadsBy getter o := by
    intro below w
    refine guards.reads getter reader w o ?_
    rw [inst first hfirst.1, below first (.of_firstDeclaring? found)]
  refine ⟨served, ?_, ?_⟩
  · intro sub
    exact served fun u contributes =>
      built.isSubtype_trans hs ht (known u contributes).1 sub (known u contributes).2
  · intro asked same _ foreign w
    cases found.symm.trans same
    exact guards.refusesToRead readable w o (by rw [inst first hfirst.1, foreign])

theorem label_of_crate_reads_in_crates :
    labelOfCrate.declaringType = .object "Box" ∧
      ∃ o after, (storageWorld.catalogs.registry ⟨0⟩).instantiate .empty "Crate" =
          .ok (o, after) ∧ labelOfCrate.ReadsBy (Getter.slot "label") o := by
  obtain ⟨c, known, declaring, -, getter, path, reads⟩ := templates_read_objects_of_contributors
    (w := storageWorld) (d := ⟨0⟩) (Registry.built_build storage) List.mem_cons_self
    labelOfCrate_discovered rfl
  injection declaring with declaring
  rcases known with _ | ⟨_, _ | ⟨_, ⟨⟩⟩⟩
  · exact absurd declaring (by decide)
  · cases path
    obtain ⟨-, own, -⟩ := reads _ List.mem_cons_self rfl .empty _ _ rfl
    exact ⟨rfl, _, _, rfl, own rfl⟩

/-- A box has a label and declares it, but crates ask for crates. -/
theorem label_of_crate_refuses_boxes :
    labelOfCrate.DiscoveredFrom storageWorld ⟨0⟩
        ((storageWorld.catalogs.registry ⟨0⟩).types.head (by decide)) true ∧
      labelOfCrate.readable = true ∧ labelOfCrate.declaringType = .object "Box" ∧
      ∃ o after, (storageWorld.catalogs.registry ⟨0⟩).instantiate .empty "Box" =
          .ok (o, after) ∧
        (Query.run { storageWorld with heap := after } fun h =>
          labelOfCrate.readIn h (.object o)).1 =
            .error (.handling "label" (.access (.typeMismatch "Crate" "Box"))) :=
  ⟨labelOfCrate_discovered, rfl, rfl, _, _, rfl, rfl⟩

end Memberwise
