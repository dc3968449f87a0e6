import Mathlib.Data.List.Infix
import Memberwise.Proofs.Construction
import Memberwise.Proofs.Interchange
import Memberwise.Proofs.Precedence

/-!
# Views of a type

A type is seen alone, or together with the types above it.  What is discovered of it is
merged along that line of types (`Registry.Built.run_membersOfType`).  The line of a type
alone starts the line with all ancestors, so there each declaration that counts for the
type alone counts too, and the line of a supertype is part of it, so nothing that a supertype
declares is lost.  What is nearer may replace a declaration but never takes a capability away.
-/

namespace Memberwise

/-- The types whose declarations count in a view of a type. -/
def Registry.line (r : Registry) (t : TypeDefinition) (deep : Bool) : List TypeDefinition :=
  if deep then r.lineage t.name else [t]

namespace Registry

variable {r : Registry} {s t u : TypeDefinition} {deep : Bool}

theorem Built.prefix_line (built : r.Built) (ht : t ∈ r.types) :
    r.line t false <+: r.line t true := by
  have whole : r.line t true = r.lineage t.name := rfl
  rw [whole, built.lineage_eq ht]
  exact ⟨_, rfl⟩

theorem Built.mem_types_of_mem_line (built : r.Built) (ht : t ∈ r.types)
    (hu : u ∈ r.line t deep) : u ∈ r.types ∧ r.isSubtype t.id u.id = true := by
  have above : u ∈ r.lineage t.name := by
    cases deep with
    | true => exact hu
    | false => exact (built.prefix_line ht).subset hu
  obtain ⟨known, isA⟩ := (built.mem_lineage ht).1 above
  exact ⟨known, (built.isA_iff_isSubtype ht known).1 isA⟩

/-- All that a view of a supertype takes up is above the type. -/
theorem Built.line_subset (built : r.Built) (hs : s ∈ r.types) (ht : t ∈ r.types)
    (sub : r.isSubtype t.id s.id = true) (deep : Bool) : r.line s deep ⊆ r.line t true := by
  intro u hu
  obtain ⟨known, above⟩ := built.mem_types_of_mem_line hs hu
  refine (built.mem_lineage ht).2 ⟨known, ?_⟩
  rw [built.isA_iff_isSubtype ht known]
  exact built.isSubtype_trans ht hs known sub above

theorem Built.discoverObject_eq (built : r.Built) (ht : t ∈ r.types) (deep : Bool) :
    discoverObject r t.name deep = .ok (membersAlong (r.line t deep)) := by
  rw [discoverObject, built.type?_name ht, line]

/-- The members of a view are merged along its line, one for each name declared there. -/
theorem Built.run_membersOfType {w : World} {d : CatalogRef}
    (built : (w.catalogs.registry d).Built) (ht : t ∈ (w.catalogs.registry d).types)
    (deep : Bool) :
    (Query.run w fun _ => d.membersOfType (.object t.name) deep).1 =
      .ok ((distinct (((w.catalogs.registry d).line t deep).flatMap declaredNames)).map
        (Member.merged ((w.catalogs.registry d).line t deep))) := by
  rw [Query.run_fst]
  show (d.ask (.object t.name) deep >>= fun ts => pure _).answer w.catalogs.registry = _
  rw [Query.answer_bind, CatalogRef.answer_ask, discoverType, built.discoverObject_eq ht]
  show Except.ok ((membersAlong _).map _) = _
  rw [membersAlong, List.map_map]
  exact congrArg (fun names => Except.ok (List.map _ names))
    (distinct_flatMap_distinct declaredNames _)

end Registry

/-- A member in a view of a type, listed or looked up by name. -/
inductive Member.DiscoveredFrom (w : World) (d : CatalogRef) (t : TypeDefinition) (deep : Bool)
    (m : Member) : Prop
  | listed {ms : List Member}
      (found : (Query.run w fun _ => d.membersOfType (.object t.name) deep).1 = .ok ms)
      (member : m ∈ ms)
  | found {name : String}
      (found : (Query.run w fun _ => d.memberOfType? (.object t.name) name deep).1 = .ok (some m))

/-- What is discovered in a view is merged along its line, of what is declared there. -/
theorem Member.DiscoveredFrom.eq_merged {w : World} {d : CatalogRef} {t : TypeDefinition}
    {deep : Bool} {m : Member} (discovered : m.DiscoveredFrom w d t deep)
    (built : (w.catalogs.registry d).Built) (ht : t ∈ (w.catalogs.registry d).types) :
    ∃ name, m = merged ((w.catalogs.registry d).line t deep) name ∧
      ∃ u ∈ (w.catalogs.registry d).line t deep, name ∈ declaredNames u := by
  cases discovered with
  | listed found member =>
      rw [built.run_membersOfType ht] at found
      cases found
      obtain ⟨name, declared, rfl⟩ := List.mem_map.1 member
      exact ⟨name, rfl, List.mem_flatMap.1 (mem_distinct.1 declared)⟩
  | @found name found =>
      rw [Query.run_fst, CatalogRef.memberOfType?, Query.answer_bind_pure] at found
      obtain ⟨template?, offered, same⟩ := map_eq_ok.1 found
      obtain ⟨template, rfl, rfl⟩ := Option.map_eq_some_iff.1 same
      have asks : (d.templateOfType? (.object t.name) name deep).answer w.catalogs.registry = _ :=
        CatalogRef.answer_ask_atPlaceOf?
      rw [asks, discoverType, built.discoverObject_eq ht] at offered
      obtain ⟨declaredName, declared, rfl⟩ :=
        mem_membersAlong.1 (of_atPlaceOf? (Except.ok.inj offered)).1
      exact ⟨declaredName, rfl, declared⟩

/-! ### Longer lines -/

section Lines

variable {line line' : List TypeDefinition} {name : String}

theorem prefix_foldl_keepNew (kept names : List String) : kept <+: names.foldl keepNew kept := by
  induction names generalizing kept with
  | nil => exact List.prefix_rfl
  | cons name names ih =>
      have step : kept <+: keepNew kept name := by
        by_cases there : name ∈ kept
        · rw [keepNew_of_mem there]
        · rw [keepNew_of_not_mem there]
          exact List.prefix_append _ _
      exact step.trans (ih _)

theorem prefix_distinct {names names' : List String} (starts : names <+: names') :
    distinct names <+: distinct names' := by
  obtain ⟨rest, rfl⟩ := starts
  rw [distinct_eq_foldl, distinct_eq_foldl, List.foldl_append]
  exact prefix_foldl_keepNew _ _

/-- A longer line has all the declarations with which a member can be read. -/
theorem Member.readable_of_subset (sub : line ⊆ line')
    (readable : (merged line name).readable = true) :
    (merged line' name).readable = true := by
  have widen : ∀ {α : Type} {pick : TypeDefinition → Option α},
      (line.findSome? pick).isSome → (line'.findSome? pick).isSome := by
    intro α pick some
    obtain ⟨u, hu, picked⟩ := List.findSome?_isSome_iff.1 some
    exact List.findSome?_isSome_iff.2 ⟨u, sub hu, picked⟩
  exact Declarations.isSome_reader_along.2
    ((Declarations.isSome_reader_along.1 readable).imp widen widen)

theorem Member.writable_of_mutator {u : TypeDefinition} (hu : u ∈ line)
    (mutates : (u.mutator? name).isSome) : (merged line name).writable = true :=
  Declarations.isSome_writer_along.2 (Or.inl (List.findSome?_isSome_iff.2 ⟨u, hu, mutates⟩))

/-- What comes first on a line does so on every line that it starts. -/
theorem Member.writable_of_longer (starts : line <+: line')
    (writable : (merged line name).writable = true) :
    (merged line' name).writable = true := by
  rcases Declarations.isSome_writer_along.1 writable with mutator | ⟨f, field, free⟩
  · obtain ⟨u, found⟩ := Option.isSome_iff_exists.1 mutator
    have further : firstMutator? line' name = some u := starts.findSome?_eq_some found
    exact Declarations.isSome_writer_along.2 (Or.inl (Option.isSome_of_eq_some further))
  · exact Declarations.isSome_writer_along.2 (Or.inr ⟨f, starts.findSome?_eq_some field, free⟩)

theorem mem_statedTags_of_longer (starts : line <+: line') {t : Tag}
    (stated : t ∈ statedTags line name) : t ∈ statedTags line' name := by
  have further : ∀ {α : Type} {pick : TypeDefinition → Option α} {tags : α → List Tag},
      t ∈ (line.findSome? pick).elim [] tags → t ∈ (line'.findSome? pick).elim [] tags := by
    intro α pick tags there
    cases found : line.findSome? pick with
    | none =>
        rw [found] at there
        cases there
    | some a =>
        rw [found] at there
        rw [starts.findSome?_eq_some found]
        exact there
  rcases List.mem_append.1 stated with stated | mutator
  · rcases List.mem_append.1 stated with field | accessor
    · exact List.mem_append_left _ (List.mem_append_left _ (further field))
    · exact List.mem_append_left _ (List.mem_append_right _ (further accessor))
  · exact List.mem_append_right _ (further mutator)

end Lines

/-- The second member goes by the name of the first, can be used wherever that can, and has
a tag of every name that is on it. -/
structure Member.Widens (m m' : Member) : Prop where
  name : m'.name = m.name
  readable : m.readable = true → m'.readable = true
  writable : m.writable = true → m'.writable = true
  tags : ∀ t ∈ m.tags, ∃ t' ∈ m'.tags, t'.name = t.name

theorem Member.widens_of_longer {line line' : List TypeDefinition} (starts : line <+: line')
    (name : String) : (merged line name).Widens (merged line' name) where
  name := rfl
  readable := readable_of_subset starts.subset
  writable := writable_of_longer starts
  tags t ht := by
    have stated : t ∈ statedTags line name := by
      refine mem_of_mem_distinctTags ?_
      rw [← tags_along_eq_distinctTags]
      exact ht
    obtain ⟨t', ht', same⟩ := exists_mem_distinctTags (mem_statedTags_of_longer starts stated)
    rw [← tags_along_eq_distinctTags] at ht'
    exact ⟨t', ht', same⟩

/-- The view of a type with its ancestors begins with the names of the type alone, and its
members widen those of the type alone.  It has a member for each in a view of a supertype,
which is readable if that is, and writable if a mutator is among what the supertype declares
or inherits. -/
theorem deep_view_extends_views {w : World} {d : CatalogRef}
    (built : (w.catalogs.registry d).Built) {t : TypeDefinition}
    (ht : t ∈ (w.catalogs.registry d).types) :
    ∃ own all, (Query.run w fun _ => d.membersOfType (.object t.name) false).1 = .ok own ∧
      (Query.run w fun _ => d.membersOfType (.object t.name) true).1 = .ok all ∧
      (all.map (·.name)).Nodup ∧ own.map (·.name) <+: all.map (·.name) ∧
      (∀ m ∈ own, ∃ m' ∈ all, m.Widens m') ∧
      ∀ s ∈ (w.catalogs.registry d).types,
        (w.catalogs.registry d).isSubtype t.id s.id = true → ∀ deep,
          ∃ inherited, (Query.run w fun _ => d.membersOfType (.object s.name) deep).1 =
            .ok inherited ∧ ∀ m ∈ inherited, ∃ m' ∈ all, m'.name = m.name ∧
              (m.readable = true → m'.readable = true) ∧
              ((∃ u ∈ (w.catalogs.registry d).lineage s.name, (u.mutator? m.name).isSome) →
                m'.writable = true) := by
  have names : ∀ (line : List TypeDefinition) (names : List String),
      (names.map (Member.merged line)).map (·.name) = names := by
    intro line names
    rw [List.map_map]
    exact List.map_id _
  have starts := built.prefix_line ht
  have further := prefix_distinct (starts.flatMap declaredNames)
  refine ⟨_, _, built.run_membersOfType ht false, built.run_membersOfType ht true, ?_, ?_, ?_, ?_⟩
  · rw [names]
    exact nodup_distinct _
  · rw [names, names]
    exact further
  · intro m hm
    obtain ⟨name, declared, rfl⟩ := List.mem_map.1 hm
    exact ⟨_, List.mem_map_of_mem (further.subset declared), Member.widens_of_longer starts name⟩
  · intro s hs sub deep
    have inside := built.line_subset hs ht sub deep
    refine ⟨_, built.run_membersOfType hs deep, ?_⟩
    intro m hm
    obtain ⟨name, declared, rfl⟩ := List.mem_map.1 hm
    obtain ⟨u, hu, declares⟩ := List.mem_flatMap.1 (mem_distinct.1 declared)
    have there : name ∈ distinct (((w.catalogs.registry d).line t true).flatMap declaredNames) :=
      mem_distinct.2 (List.mem_flatMap.2 ⟨u, inside hu, declares⟩)
    refine ⟨_, List.mem_map_of_mem there, rfl, Member.readable_of_subset inside, ?_⟩
    rintro ⟨u, hu, mutates⟩
    exact Member.writable_of_mutator (built.line_subset hs ht sub true hu) mutates

/-- A crate is labelled by number and a box shows its label: of a crate, both can be done. -/
theorem crate_label_is_read_and_written :
    ∃ all, (Query.run storageWorld fun _ => CatalogRef.membersOfType ⟨0⟩ (.object "Crate") true).1 =
        .ok all ∧
      ∃ m ∈ all, m.name = "label" ∧ m.readable = true ∧ m.writable = true := by
  obtain ⟨own, all, ownFound, allFound, nodup, -, widens, above⟩ := deep_view_extends_views
    (w := storageWorld) (d := ⟨0⟩) (Registry.built_build storage) (t := _) List.mem_cons_self
  obtain ⟨inherited, found, onward⟩ := above _ (List.mem_cons_of_mem _ List.mem_cons_self) rfl true
  cases ownFound
  cases found
  obtain ⟨m, hm, wider⟩ := widens _ List.mem_cons_self
  obtain ⟨m', hm', same, readable, -⟩ := onward _ List.mem_cons_self
  have one : m = m' :=
    List.inj_on_of_nodup_map nodup hm hm' (wider.name.trans same.symm)
  subst one
  exact ⟨all, allFound, m, hm, wider.name, readable rfl, wider.writable rfl⟩

end Memberwise
