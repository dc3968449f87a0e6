import Memberwise.Proofs.Caching
import Memberwise.Proofs.Listing

/-!
# Equal members

Members that are not bound are equal if they have one name and one declaring type.
Such members may be merged along different lines of types.  The declaration that
gives them their declaring type is the same, and so is how they are read
(`Shares.reader`).  A field or a mutator nearer to one of the types can still set them
apart: in what they write and how they are tagged, and in what objects they ask for.
-/

namespace Memberwise

/-- Every type of the line is registered under its name. -/
def Registry.Knows (r : Registry) (line : List TypeDefinition) : Prop :=
  ∀ u ∈ line, r.type? u.name = some u

theorem Registry.knows_lineage (r : Registry) (name : String) : r.Knows (r.lineage name) := by
  have own : ∀ {n u}, r.type? n = some u → r.type? u.name = some u := by
    intro n u found
    have named : u.name = n := by simpa using List.find?_some found
    rw [named, found]
  intro u hu
  rw [lineage] at hu
  cases registered : r.type? name with
  | none =>
      rw [registered] at hu
      cases hu
  | some s =>
      rw [registered] at hu
      rcases List.mem_cons.1 hu with rfl | hu
      · exact own registered
      · obtain ⟨above, -, found⟩ := List.mem_filterMap.1 hu
        exact own found

/-- Some type of the line declares the name. -/
def DeclaredAlong (line : List TypeDefinition) (name : String) : Prop :=
  (firstField? line name).isSome ∨ (firstAccessor? line name).isSome ∨
    (firstMutator? line name).isSome

section Lines

variable {line line' : List TypeDefinition} {name : String} {r : Registry}

theorem nearest?_eq_some {α : Type} {pick : TypeDefinition → Option α} {x : Declared α}
    (found : nearest? pick line = some x) :
    ∃ u ∈ line, u.name = x.owner ∧ pick u = some x.declaration := by
  induction line generalizing x with
  | nil => cases found
  | cons u line ih =>
      rw [nearest?] at found
      cases picked : pick u with
      | some a =>
          rw [picked] at found
          cases found
          exact ⟨u, List.mem_cons_self, rfl, picked⟩
      | none =>
          rw [picked] at found
          obtain ⟨y, hy, rfl⟩ := Option.map_eq_some_iff.1 found
          obtain ⟨s, hs, owner, declares⟩ := ih hy
          exact ⟨s, List.mem_cons_of_mem _ hs, owner, declares⟩

/-- The declaring type itself has the declaration that makes it that: its accessor,
else its field, else its mutator. -/
theorem exists_declaring (declared : DeclaredAlong line name) :
    ∃ u ∈ line, u.name = (Declarations.along line name).declaringName ∧
      firstAccessor? line name = u.accessor? name ∧
      (firstAccessor? line name = none → firstField? line name = u.field? name ∧
        (firstField? line name = none → firstMutator? line name = u.mutator? name)) := by
  have nowhere : ∀ {α : Type} {pick : TypeDefinition → Option α}, line.findSome? pick = none →
      ∀ u ∈ line, pick u = none := fun none => List.findSome?_eq_none_iff.1 none
  have accessor : (Declarations.along line name).accessor = nearest? (·.accessor? name) line := rfl
  have field : (Declarations.along line name).field = nearest? (·.field? name) line := rfl
  have mutator : (Declarations.along line name).mutator = nearest? (·.mutator? name) line := rfl
  rw [DeclaredAlong, ← Declarations.field_along, ← Declarations.accessor_along,
    ← Declarations.mutator_along] at declared
  simp only [Option.isSome_map] at declared
  rw [Declarations.declaringName]
  rcases Declarations.cases_of_declared declared with ⟨a, ha⟩ | ⟨ha, f, hf⟩ | ⟨ha, hf, m, hm⟩
  · obtain ⟨u, hu, owner, declares⟩ := nearest?_eq_some (accessor.symm.trans ha)
    have first : firstAccessor? line name = some a.declaration := by
      rw [← Declarations.accessor_along, ha, Option.map_some]
    rw [ha]
    refine ⟨u, hu, owner, first.trans declares.symm, ?_⟩
    intro none
    cases first.symm.trans none
  · obtain ⟨u, hu, owner, declares⟩ := nearest?_eq_some (field.symm.trans hf)
    have none : firstAccessor? line name = none := by
      rw [← Declarations.accessor_along, ha, Option.map_none]
    have first : firstField? line name = some f.declaration := by
      rw [← Declarations.field_along, hf, Option.map_some]
    rw [ha, hf]
    refine ⟨u, hu, owner, none.trans (nowhere none u hu).symm, ?_⟩
    intro _
    refine ⟨first.trans declares.symm, ?_⟩
    intro none
    cases first.symm.trans none
  · obtain ⟨u, hu, owner, declares⟩ := nearest?_eq_some (mutator.symm.trans hm)
    have none : firstAccessor? line name = none := by
      rw [← Declarations.accessor_along, ha, Option.map_none]
    have none' : firstField? line name = .none := by
      rw [← Declarations.field_along, hf, Option.map_none]
    have first : firstMutator? line name = some m.declaration := by
      rw [← Declarations.mutator_along, hm, Option.map_some]
    rw [ha, hf, hm]
    refine ⟨u, hu, owner, none.trans (nowhere none u hu).symm, ?_⟩
    intro _
    exact ⟨none'.trans (nowhere none' u hu).symm, fun _ => first.trans declares.symm⟩

/-- Two lines of types under which a name means the same to readers: the accessors
agree, without accessors the fields do, and without fields the mutators. -/
structure Shares (line line' : List TypeDefinition) (name : String) : Prop where
  accessor : firstAccessor? line name = firstAccessor? line' name
  field : firstAccessor? line name = none → firstField? line name = firstField? line' name
  mutator : firstAccessor? line name = none → firstField? line name = none →
    firstMutator? line name = firstMutator? line' name

/-- A name has the same declaration to readers wherever it has the same declaring type. -/
theorem shares_of_declaringName (known : r.Knows line) (known' : r.Knows line')
    (declared : DeclaredAlong line name) (declared' : DeclaredAlong line' name)
    (same : (Declarations.along line name).declaringName =
      (Declarations.along line' name).declaringName) : Shares line line' name := by
  obtain ⟨u, hu, owner, accessor, field⟩ := exists_declaring declared
  obtain ⟨u', hu', owner', accessor', field'⟩ := exists_declaring declared'
  -- The declaring type is one type, on both lines.
  have here : r.type? (Declarations.along line name).declaringName = some u := owner ▸ known u hu
  have there : r.type? (Declarations.along line' name).declaringName = some u' :=
    owner' ▸ known' u' hu'
  rw [same, there] at here
  cases here
  have accessors := accessor.trans accessor'.symm
  refine ⟨accessors, ?_, ?_⟩
  · intro none
    exact (field none).1.trans (field' (accessors.symm.trans none)).1.symm
  · intro none none'
    have fields := (field none).1.trans (field' (accessors.symm.trans none)).1.symm
    exact ((field none).2 none').trans
      ((field' (accessors.symm.trans none)).2 (fields.symm.trans none')).symm

namespace Shares

theorem reader (shares : Shares line line' name) :
    (Declarations.along line name).reader = (Declarations.along line' name).reader := by
  rw [Declarations.reader_along, Declarations.reader_along, ← shares.accessor]
  cases first : firstAccessor? line name with
  | some a => rfl
  | none => rw [shares.field first]

theorem declaredType (shares : Shares line line' name) (declared : DeclaredAlong line name)
    (declared' : DeclaredAlong line' name) :
    (Declarations.along line name).declaredType = (Declarations.along line' name).declaredType := by
  apply Option.some.inj
  rw [Declarations.declaredType_along declared, Declarations.declaredType_along declared',
    ← shares.accessor]
  cases first : firstAccessor? line name with
  | some a => rfl
  | none =>
      rw [← shares.field first]
      cases second : firstField? line name with
      | some f => rfl
      | none => rw [shares.mutator first second]

end Shares

theorem writer_along_congr (fields : firstField? line name = firstField? line' name)
    (mutators : firstMutator? line name = firstMutator? line' name) :
    (Declarations.along line name).writer = (Declarations.along line' name).writer := by
  cases hu : firstMutator? line name with
  | some u =>
      rw [Declarations.writer_along_of_mutator hu,
        Declarations.writer_along_of_mutator (mutators.symm.trans hu)]
  | none =>
      cases hf : firstField? line name with
      | some f =>
          rw [Declarations.writer_along_of_field hu hf,
            Declarations.writer_along_of_field (mutators.symm.trans hu) (fields.symm.trans hf)]
      | none =>
          rw [Declarations.writer_along_of_neither hu hf,
            Declarations.writer_along_of_neither (mutators.symm.trans hu) (fields.symm.trans hf)]

end Lines

/-- A position is determined by its name. -/
theorem Position.NamedBy.unique {p p' : Position} {name : String} (named : p.NamedBy name)
    (named' : p'.NamedBy name) : p = p' := by
  have read : ∀ {p : Position}, p.NamedBy name → p =
      if name = "first" then .first else if name = "last" then .last
        else .nth (Text.Numeral.value name.toList) := by
    intro p named
    cases named with
    | first => rfl
    | last => rfl
    | nth numeral =>
        have word : ∀ word, Text.Numeral.isNumeral word = false → name ≠ word := by
          rintro word no rfl
          rw [no] at numeral
          cases numeral
        rw [if_neg (word "first" (by decide)), if_neg (word "last" (by decide))]
  rw [read named, read named']

/-- The members of types: merged along registered types, declared by a registered tag,
or for any container of a type of another kind. -/
inductive Template.OfType (r : Registry) : Template → Prop
  | declared {line : List TypeDefinition} {name : String} (known : r.Knows line)
      (declared : DeclaredAlong line name) : OfType r ((Declarations.along line name).merge name)
  | param {tag : String} {definition : TagDefinition} {p : TagParameter}
      (found : r.tag? tag = some definition) (stated : p ∈ definition.params) :
      OfType r (paramTemplate tag p)
  | item (element : ValueType) {name : String} {p : Position} (named : p.NamedBy name) :
      OfType r (itemTemplate element name p)
  | entry (value : ValueType) (key : String) : OfType r (keyTemplate value key)
  | property (key : String) : OfType r (propertyTemplate key)
  | column (name : String) : OfType r (columnTemplate name)

section OfType

variable {r : Registry} {t t' : Template} {type : ValueType} {name : String} {deep : Bool}

theorem ofType_of_discoverType {ts : List Template} (found : discoverType r type deep = .ok ts)
    (ht : t ∈ ts) : t.OfType r := by
  cases type with
  | object n =>
      have found : discoverObject r n deep = .ok ts := found
      rw [discoverObject] at found
      cases registered : r.type? n with
      | none =>
          rw [registered] at found
          cases found
      | some s =>
          rw [registered] at found
          cases found
          obtain ⟨name, declared, rfl⟩ := mem_membersAlong.1 ht
          refine .declared ?_ (declared_iff.1 declared)
          cases deep with
          | true => exact r.knows_lineage n
          | false =>
              intro u hu
              cases List.mem_singleton.1 hu
              have named : s.name = n := by simpa using List.find?_some registered
              rw [named, registered]
  | tag n =>
      have found : discoverTag r n = .ok ts := found
      rw [discoverTag] at found
      cases registered : r.tag? n with
      | none =>
          rw [registered] at found
          cases found
      | some definition =>
          rw [registered] at found
          cases found
          obtain ⟨p, stated, rfl⟩ := List.mem_map.1 ht
          exact .param registered stated
  | _ => cases found

theorem ofType_of_typeTemplate? (found : typeTemplate? type name = some t) : t.OfType r := by
  cases type with
  | list element =>
      obtain ⟨p, parsed, rfl⟩ := Option.map_eq_some_iff.1 found
      exact .item _ (Position.namedBy_of_parse? parsed)
  | map value =>
      cases found
      exact .entry _ _
  | properties =>
      cases found
      exact .property _
  | cursor =>
      cases found
      exact .column _
  | _ => cases found

theorem CatalogRef.ofType_of_templatesOfType {registryOf : CatalogRef → Registry} {d : CatalogRef}
    {ts : List Template} (offered : (d.templatesOfType type deep).answer registryOf = .ok ts)
    (ht : t ∈ ts) : t.OfType (registryOf d) := by
  rw [templatesOfType] at offered
  cases kind : type.containerKind with
  | none =>
      rw [kind] at offered
      cases offered
  | some k =>
      simp only [kind] at offered
      cases typed : k.isTypeLevel with
      | true =>
          simp only [typed, if_true] at offered
          exact ofType_of_discoverType offered ht
      | false =>
          simp only [typed] at offered
          cases offered
          cases ht

theorem CatalogRef.ofType_of_templateOfType? {registryOf : CatalogRef → Registry} {d : CatalogRef}
    (offered : (d.templateOfType? type name deep).answer registryOf = .ok (some t)) :
    t.OfType (registryOf d) := by
  rw [templateOfType?] at offered
  cases kind : type.containerKind with
  | none =>
      rw [kind] at offered
      cases offered
  | some k =>
      simp only [kind] at offered
      cases typed : k.isTypeLevel with
      | true =>
          simp only [typed, if_true, answer_ask_atPlaceOf?] at offered
          obtain ⟨ts, listed, among⟩ := map_eq_ok.1 offered
          exact ofType_of_discoverType listed (of_atPlaceOf? among).1
      | false =>
          simp only [typed] at offered
          exact ofType_of_typeTemplate? (Except.ok.inj offered)

/-- Of one name and one declaring type there is one template, unless the type is one
of objects. -/
theorem Template.OfType.eq_or_declared (built : r.Built) (offered : t.OfType r)
    (offered' : t'.OfType r) (named : t.name = t'.name)
    (declaring : t.declaringType = t'.declaringType) :
    t = t' ∨ ∃ line line' name, r.Knows line ∧ r.Knows line' ∧ DeclaredAlong line name ∧
      DeclaredAlong line' name ∧ t = (Declarations.along line name).merge name ∧
      t' = (Declarations.along line' name).merge name := by
  cases offered with
  | @declared line name known declared =>
      cases offered' with
      | @declared line' name' known' declared' =>
          have named : name = name' := named
          subst named
          exact Or.inr ⟨line, line', name, known, known', declared, declared', rfl, rfl⟩
      | _ => cases declaring
  | @param tag definition p found stated =>
      cases offered' with
      | @param tag' definition' p' found' stated' =>
          cases declaring
          cases found.symm.trans found'
          have listed : CacheKey.discover r ⟨.tag tag, true⟩ =
              .ok (definition.params.map (paramTemplate tag)) := by
            rw [CacheKey.discover, discoverType, discoverTag, found]
          have distinct := built.nodup_names listed
          have first := find?_name_of_nodup distinct (List.mem_map_of_mem stated)
          have first' := find?_name_of_nodup distinct (List.mem_map_of_mem stated')
          rw [named] at first
          exact Or.inl (Option.some.inj (first.symm.trans first'))
      | _ => cases declaring
  | item element position =>
      cases offered' with
      | item element' position' =>
          cases declaring
          cases named
          rw [position.unique position']
          exact Or.inl rfl
      | _ => cases declaring
  | entry value key =>
      cases offered' with
      | entry value' key' =>
          cases declaring
          cases named
          exact Or.inl rfl
      | _ => cases declaring
  | property key =>
      cases offered' with
      | property key' =>
          cases named
          exact Or.inl rfl
      | _ => cases declaring
  | column name =>
      cases offered' with
      | column name' =>
          cases named
          exact Or.inl rfl
      | _ => cases declaring

end OfType

namespace Member

/-- The members that a catalog has for a type, with the inherited ones or without, listed
or looked up by name.  They are not bound to any container. -/
inductive Discovered (w : World) (d : CatalogRef) (m : Member) : Prop
  | listed {type : ValueType} {deep : Bool} {ms : List Member}
      (found : (Query.run w fun _ => d.membersOfType type deep).1 = .ok ms) (member : m ∈ ms)
  | found {type : ValueType} {deep : Bool} {name : String}
      (found : (Query.run w fun _ => d.memberOfType? type name deep).1 = .ok (some m))

theorem Discovered.exists_template {w : World} {d : CatalogRef} {m : Member}
    (discovered : m.Discovered w d) :
    ∃ t : Template, t.OfType (w.catalogs.registry d) ∧ m = .ofTemplate t none := by
  cases discovered with
  | @listed type deep ms found member =>
      rw [Query.run_fst, CatalogRef.membersOfType, Query.answer_bind_pure] at found
      obtain ⟨ts, offered, rfl⟩ := map_eq_ok.1 found
      obtain ⟨t, ht, rfl⟩ := List.mem_map.1 member
      exact ⟨t, CatalogRef.ofType_of_templatesOfType offered ht, rfl⟩
  | @found type deep name found =>
      rw [Query.run_fst, CatalogRef.memberOfType?, Query.answer_bind_pure] at found
      obtain ⟨t?, offered, same⟩ := map_eq_ok.1 found
      obtain ⟨t, rfl, rfl⟩ := Option.map_eq_some_iff.1 same
      exact ⟨t, CatalogRef.ofType_of_templateOfType? offered, rfl⟩

/-- The member that is merged along a line of types, not bound to any object. -/
def merged (line : List TypeDefinition) (name : String) : Member :=
  .ofTemplate ((Declarations.along line name).merge name) none

/-- The type that an object must be of to have the member read or written. -/
def instanceType? (m : Member) : Option String :=
  match m.route with
  | .direct (.object type _ _) => some type
  | _ => none

/-- The container is an object of the type that the member asks for, if it asks for one. -/
def Serves (m : Member) (target : Value) : Prop :=
  ∀ type, m.instanceType? = some type → ∃ o, target = .object o ∧ o.isA type = true

/-- Whichever of the two members is used, nothing shows which it was. -/
structure Interchangeable (m m' : Member) : Prop where
  declaredType : m.declaredType = m'.declaredType
  readable : m.readable = m'.readable
  writable : m.writable = m'.writable
  tags : m.tags = m'.tags
  reads : ∀ w target, (Query.run w fun h => m.readIn h target) =
    Query.run w fun h => m'.readIn h target
  writes : ∀ w target v, (m.assignIn target v).run w = (m'.assignIn target v).run w

theorem interchangeable_refl (m : Member) : m.Interchangeable m :=
  ⟨rfl, rfl, rfl, rfl, fun _ _ => rfl, fun _ _ _ => rfl⟩

section Merged

variable {line line' : List TypeDefinition} {name : String} {w : World} {target v : Value}

theorem instanceType?_merged : (merged line name).instanceType? =
    some (Declarations.along line name).instanceName := rfl

theorem not_serves_merged (away : ¬(merged line name).Serves target) :
    ∀ o, target = .object o → o.isA (Declarations.along line name).instanceName = false := by
  rintro o rfl
  apply Bool.eq_false_iff.2
  intro inst
  apply away
  intro type asked
  cases asked
  exact ⟨o, rfl, inst⟩

theorem serves_merged (serves : (merged line name).Serves target) :
    ∃ o, target = .object o ∧ o.isA (Declarations.along line name).instanceName = true :=
  serves _ rfl

/-- What is read of an object depends on how it is read alone. -/
theorem readIn_merged_congr {h : Heap}
    (readers : (Declarations.along line name).reader = (Declarations.along line' name).reader)
    (serves : (merged line name).Serves target) (serves' : (merged line' name).Serves target) :
    (merged line name).readIn h target = (merged line' name).readIn h target := by
  obtain ⟨o, rfl, inst⟩ := serves_merged serves
  obtain ⟨o', same, inst'⟩ := serves_merged serves'
  cases same
  simp only [merged, readIn, ofTemplate, Declarations.merge, readRoute, Access.read,
    Access.readObject, inst, inst', readers, if_true]

/-- Any other value is refused with the type that is asked for. -/
theorem readIn_merged_of_not_serves {h : Heap} (away : ¬(merged line name).Serves target)
    (readable : (merged line name).readable = true) :
    (merged line name).readIn h target = throw (.handling name
      (Access.wrongObject (Declarations.along line name).instanceName target)) := by
  have refused : Access.readObject h (Declarations.along line name).instanceName
      (Declarations.along line name).reader target =
        .error (Access.wrongObject (Declarations.along line name).instanceName target) := by
    cases target with
    | object o =>
        simp only [Access.readObject, not_serves_merged away o rfl, Bool.false_eq_true, if_false]
    | _ => rfl
  rw [readIn, if_pos readable]
  simp only [merged, ofTemplate, Declarations.merge, readRoute, Access.read, refused]
  rfl

theorem writeIn_merged_of_not_serves {h : Heap} (away : ¬(merged line name).Serves target)
    (writable : (merged line name).writable = true) :
    (merged line name).writeIn h target v = throw (.handling name
      (Access.wrongObject (Declarations.along line name).instanceName target)) := by
  have refused : Access.writeObject h (Declarations.along line name).instanceName
      (Declarations.along line name).writer target v =
        .error (Access.wrongObject (Declarations.along line name).instanceName target) := by
    cases target with
    | object o =>
        simp only [Access.writeObject, not_serves_merged away o rfl, Bool.false_eq_true, if_false]
    | _ => rfl
  rw [writeIn, if_pos writable]
  simp only [merged, ofTemplate, Declarations.merge, writeRoute, Access.write, refused]
  rfl

/-- A declared member can be read or written. -/
theorem readable_or_writable (declared : DeclaredAlong line name) :
    (merged line name).readable = true ∨ (merged line name).writable = true := by
  rcases declared with field | accessor | mutator
  · exact Or.inl (Declarations.isSome_reader_along.2 (Or.inr field))
  · exact Or.inl (Declarations.isSome_reader_along.2 (Or.inl accessor))
  · exact Or.inr (Declarations.isSome_writer_along.2 (Or.inl mutator))

theorem declaredAlong_of_able (able : (merged line name).readable = true ∨
    (merged line name).writable = true) : DeclaredAlong line name := by
  rcases able with readable | writable
  · rcases Declarations.isSome_reader_along.1 readable with accessor | field
    · exact Or.inr (Or.inl accessor)
    · exact Or.inl field
  · rcases Declarations.isSome_writer_along.1 writable with mutator | ⟨f, field, -⟩
    · exact Or.inr (Or.inr mutator)
    · exact Or.inl (Option.isSome_of_eq_some field)

theorem run_assignIn_of_not_serves (away : ¬(merged line name).Serves target)
    (writable : (merged line name).writable = true) :
    ((merged line name).assignIn target v).run w = (.error (.handling name
      (Access.wrongObject (Declarations.along line name).instanceName target)), w) := by
  have asks : (merged line name).assignIn target v = Edit.update fun _ => Query.ofExcept
      (.error (.handling name
        (Access.wrongObject (Declarations.along line name).instanceName target))) := by
    rw [assignIn]
    apply congrArg
    funext h
    exact writeIn_merged_of_not_serves away writable
  rw [asks, Edit.run_update_ofExcept]

/-- What a member asks for shows in how it refuses null. -/
theorem instanceName_eq_of_interchangeable (declared : DeclaredAlong line name)
    (same : (merged line name).Interchangeable (merged line' name)) :
    (Declarations.along line name).instanceName = (Declarations.along line' name).instanceName := by
  have away : ∀ line, ¬(merged line name).Serves .null := by
    intro line serves
    obtain ⟨o, null, -⟩ := serves_merged serves
    cases null
  rcases readable_or_writable declared with readable | writable
  · have reads := congrArg Prod.fst (same.reads .empty .null)
    rw [Query.run_fst, Query.run_fst, readIn_merged_of_not_serves (away line) readable,
      readIn_merged_of_not_serves (away line') (same.readable ▸ readable), Query.answer_throw,
      Query.answer_throw] at reads
    injection reads with handling
    injection handling with _ refused
    injection refused with mismatch
    injection mismatch
  · have writes := congrArg Prod.fst (same.writes .empty .null .null)
    rw [run_assignIn_of_not_serves (away line) writable,
      run_assignIn_of_not_serves (away line') (same.writable ▸ writable)] at writes
    injection writes with handling
    injection handling with _ refused
    injection refused with mismatch
    injection mismatch

/-- Members that read alike are interchangeable if they ask for the same objects, are
tagged alike, and write alike where they serve. -/
theorem interchangeable_of_serving (shares : Shares line line' name)
    (declared : DeclaredAlong line name) (declared' : DeclaredAlong line' name)
    (instances : (Declarations.along line name).instanceName =
      (Declarations.along line' name).instanceName)
    (tags : (merged line name).tags = (merged line' name).tags)
    (writable : (merged line name).writable = (merged line' name).writable)
    (writes : ∀ w target v, (merged line name).Serves target → (merged line' name).Serves target →
      ((merged line name).assignIn target v).run w =
        ((merged line' name).assignIn target v).run w) :
    (merged line name).Interchangeable (merged line' name) := by
  have readable : (merged line name).readable = (merged line' name).readable :=
    congrArg Option.isSome shares.reader
  have serving : ∀ target,
      (merged line name).Serves target ↔ (merged line' name).Serves target := by
    intro target
    rw [Serves, Serves, instanceType?_merged, instanceType?_merged, instances]
  refine ⟨shares.declaredType declared declared', readable, writable, tags, ?_, ?_⟩
  · intro w target
    apply congrArg
    funext h
    by_cases serves : (merged line name).Serves target
    · exact readIn_merged_congr shares.reader serves ((serving target).1 serves)
    · have serves' := mt (serving target).2 serves
      cases able : (merged line name).readable with
      | true =>
          rw [readIn_merged_of_not_serves serves able,
            readIn_merged_of_not_serves serves' (readable ▸ able), instances]
      | false =>
          rw [readIn, readIn, ← readable, able]
          rfl
  · intro w target v
    by_cases serves : (merged line name).Serves target
    · exact writes w target v serves ((serving target).1 serves)
    · have serves' := mt (serving target).2 serves
      cases able : (merged line name).writable with
      | true =>
          rw [run_assignIn_of_not_serves serves able,
            run_assignIn_of_not_serves serves' (writable ▸ able), instances]
      | false =>
          simp only [assignIn, writeIn, ← writable, able]
          rfl

/-- Members of one declaring type that are merged of the same field and mutator are one,
if they ask for the same objects. -/
theorem merged_congr {r : Registry} (known : r.Knows line) (known' : r.Knows line')
    (declared : DeclaredAlong line name) (declared' : DeclaredAlong line' name)
    (declaring : (merged line name).declaringType = (merged line' name).declaringType)
    (instances : (merged line name).instanceType? = (merged line' name).instanceType?)
    (fields : firstField? line name = firstField? line' name)
    (mutators : firstMutator? line name = firstMutator? line' name) :
    merged line name = merged line' name := by
  injection declaring with declaring
  injection instances with instances
  have shares := shares_of_declaringName known known' declared declared' declaring
  have tags : (Declarations.along line name).tags = (Declarations.along line' name).tags := by
    rw [Declarations.tags_along, Declarations.tags_along, fields, mutators, shares.accessor]
  simp only [merged, Declarations.merge, shares.declaredType declared declared', declaring,
    instances, shares.reader, writer_along_congr fields mutators, tags]

end Merged

end Member

/-- Members of types that are equal have the same declared type, are both readable or
both not, and read alike in every container that serves both.  They are interchangeable
if and only if they also ask for the same objects, have the same tags and write alike.
Those that ask for no objects are one, and so are those that ask for the same objects
and are merged of the same field and mutator. -/
theorem equal_members_read_alike {w : World} {d : CatalogRef}
    (built : (w.catalogs.registry d).Built) {m m' : Member} (discovered : m.Discovered w d)
    (discovered' : m'.Discovered w d) (same : m.same m' = true) :
    m.declaredType = m'.declaredType ∧ m.readable = m'.readable ∧
    (∀ w target, m.Serves target → m'.Serves target →
      (Query.run w fun h => m.readIn h target) = Query.run w fun h => m'.readIn h target) ∧
    (m.Interchangeable m' ↔ m.instanceType? = m'.instanceType? ∧ m.tags = m'.tags ∧
      m.writable = m'.writable ∧ ∀ w target v, m.Serves target → m'.Serves target →
        (m.assignIn target v).run w = (m'.assignIn target v).run w) ∧
    (m.instanceType? = none → m = m') ∧
    (m.instanceType? = m'.instanceType? → ∀ line line' name,
      (w.catalogs.registry d).Knows line → (w.catalogs.registry d).Knows line' →
      m = .merged line name → m' = .merged line' name →
      firstField? line name = firstField? line' name →
      firstMutator? line name = firstMutator? line' name → m = m') := by
  obtain ⟨t, offered, rfl⟩ := discovered.exists_template
  obtain ⟨t', offered', rfl⟩ := discovered'.exists_template
  simp only [Member.same, Bool.and_eq_true, beq_iff_eq] at same
  obtain ⟨⟨-, named⟩, declaring⟩ := same
  rcases offered.eq_or_declared built offered' named declaring with rfl |
    ⟨line, line', name, known, known', declared, declared', rfl, rfl⟩
  · refine ⟨rfl, rfl, fun _ _ _ _ => rfl, ?_, fun _ => rfl, fun _ _ _ _ _ _ _ _ _ _ => rfl⟩
    exact ⟨fun _ => ⟨rfl, rfl, rfl, fun _ _ _ _ _ => rfl⟩, fun _ => Member.interchangeable_refl _⟩
  have shares : Shares line line' name := by
    refine shares_of_declaringName known known' declared declared' ?_
    injection declaring
  refine ⟨shares.declaredType declared declared', congrArg Option.isSome shares.reader, ?_, ?_, ?_,
    ?_⟩
  · intro w target serves serves'
    apply congrArg
    funext h
    exact Member.readIn_merged_congr shares.reader serves serves'
  · constructor
    · intro same
      refine ⟨?_, same.tags, same.writable, fun w target v _ _ => same.writes w target v⟩
      exact congrArg some (Member.instanceName_eq_of_interchangeable declared same)
    · rintro ⟨instances, tags, writable, writes⟩
      exact Member.interchangeable_of_serving shares declared declared' (Option.some.inj instances)
        tags writable writes
  · intro none
    cases none
  · intro instances l l' n knows knows' first second fields mutators
    have able := Member.readable_or_writable declared
    have able' := Member.readable_or_writable declared'
    rw [Member.merged, first] at able
    rw [Member.merged, second] at able'
    rw [first, second] at declaring instances ⊢
    exact Member.merged_congr knows knows' (Member.declaredAlong_of_able able)
      (Member.declaredAlong_of_able able') declaring instances fields mutators

/-- People have a name that is read; managers also keep it in a field, with a mark. -/
def staff : List Definition :=
  [.tag (.plain BuiltIn.flag),
   .type ((TypeDraft.plain "Person").withAccessor (.ofSlot "name" .string)),
   .type (((TypeDraft.plain "Manager").extending "Person").withField
      { Field.plain "name" .string with tags := [.plain BuiltIn.flag] })]

/-- A person and a manager. -/
def staffWorld : World :=
  ⟨{ Heap.empty with objects := ⟨#[.ofList [("name", .string "Ada")], .empty]⟩ },
   (Catalogs.empty.add (Builder.empty.declareAll staff).build).2⟩

def person : Value := .object ⟨0, "Person", []⟩

def manager : Value := .object ⟨1, "Manager", ["Person"]⟩

/-- The name of a type of people, inherited or not. -/
def nameOf (type : String) : Member :=
  .merged ((staffWorld.catalogs.registry ⟨0⟩).lineage type) "name"

theorem nameOf_discovered (type : String) (known : type = "Person" ∨ type = "Manager") :
    (nameOf type).Discovered staffWorld ⟨0⟩ := by
  have found : (Query.run staffWorld fun _ =>
      CatalogRef.memberOfType? ⟨0⟩ (.object type) "name" true).1 = .ok (some (nameOf type)) := by
    rcases known with rfl | rfl
    · rfl
    · rfl
  exact .found found

/-- The name of people and that of managers are equal, and for managers they read alike. -/
theorem names_of_managers_read_alike :
    (nameOf "Person").same (nameOf "Manager") = true ∧
    (nameOf "Person").declaredType = (nameOf "Manager").declaredType ∧
    (Query.run staffWorld fun h => (nameOf "Person").readIn h manager) =
      Query.run staffWorld fun h => (nameOf "Manager").readIn h manager := by
  have same : (nameOf "Person").same (nameOf "Manager") = true := by decide
  obtain ⟨type, -, reads, -⟩ := equal_members_read_alike (w := staffWorld) (d := ⟨0⟩)
    (Registry.built_build staff) (nameOf_discovered "Person" (Or.inl rfl))
    (nameOf_discovered "Manager" (Or.inr rfl)) same
  refine ⟨same, type, reads staffWorld manager ?_ ?_⟩
  · rintro type ⟨⟩
    exact ⟨_, rfl, rfl⟩
  · rintro type ⟨⟩
    exact ⟨_, rfl, rfl⟩

/-- Equal as they are, only that of managers can be written and has the mark, and only
that of people reads the name of a person. -/
theorem names_of_people_and_managers_differ :
    (nameOf "Person").Discovered staffWorld ⟨0⟩ ∧ (nameOf "Manager").Discovered staffWorld ⟨0⟩ ∧
    (nameOf "Person").same (nameOf "Manager") = true ∧
    (nameOf "Person").writable = false ∧ (nameOf "Manager").writable = true ∧
    (nameOf "Person").tags = [] ∧ (nameOf "Manager").tags = [.plain BuiltIn.flag] ∧
    (Query.run staffWorld fun h => (nameOf "Person").readIn h person).1 = .ok (.string "Ada") ∧
    (Query.run staffWorld fun h => (nameOf "Manager").readIn h person).1 =
      .error (.handling "name" (.access (.typeMismatch "Manager" "Person"))) :=
  ⟨nameOf_discovered "Person" (Or.inl rfl), nameOf_discovered "Manager" (Or.inr rfl), by decide,
    rfl, rfl, rfl, rfl, rfl, rfl⟩

end Memberwise
