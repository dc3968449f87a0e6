import Memberwise.Constraint.Engine
import Memberwise.Pattern.Engine
import Memberwise.Proofs.Leaves
import Memberwise.Proofs.Listing

/-!
# What is checked when an engine is made

An engine is made where every tag on an own member of a type can be enforced
there.  A run looks at members that are merged along lineages, and every tag on
such a member has its name from a tag on an own member (`exists_own_tag`), so the
check has seen its definition.  It need not have seen the tag itself, nor the
type that the merged member is declared with.
-/

namespace Memberwise

/-! Of several tags of one name the first stays. -/

theorem distinctTags_concat (tags : List Tag) (t : Tag) : distinctTags (tags ++ [t]) =
    if (distinctTags tags).any (·.name == t.name) then distinctTags tags
    else distinctTags tags ++ [t] := by
  rw [distinctTags, List.foldl_append]
  rfl

theorem mem_of_mem_distinctTags {tags : List Tag} {t : Tag} (h : t ∈ distinctTags tags) :
    t ∈ tags := by
  induction tags using List.reverseRecOn with
  | nil => exact h
  | append_singleton tags last ih =>
      rw [distinctTags_concat] at h
      split at h
      · exact List.mem_append_left _ (ih h)
      · rcases List.mem_append.1 h with h | h
        · exact List.mem_append_left _ (ih h)
        · exact List.mem_append_right _ h

theorem exists_mem_distinctTags {tags : List Tag} {t : Tag} (h : t ∈ tags) :
    ∃ s ∈ distinctTags tags, s.name = t.name := by
  induction tags using List.reverseRecOn with
  | nil => cases h
  | append_singleton tags last ih =>
      rw [distinctTags_concat]
      rcases List.mem_append.1 h with h | h
      · obtain ⟨s, hs, same⟩ := ih h
        split
        · exact ⟨s, hs, same⟩
        · exact ⟨s, List.mem_append_left _ hs, same⟩
      · cases List.mem_singleton.1 h
        split
        · rename_i there
          obtain ⟨s, hs, same⟩ := List.any_eq_true.1 there
          exact ⟨s, hs, by simpa using same⟩
        · exact ⟨t, List.mem_append_right _ (List.mem_singleton_self _), rfl⟩

theorem nodup_names_distinctTags (tags : List Tag) :
    ((distinctTags tags).map (·.name)).Nodup := by
  induction tags using List.reverseRecOn with
  | nil => exact List.nodup_nil
  | append_singleton tags last ih =>
      rw [distinctTags_concat]
      split
      · exact ih
      · rename_i new
        rw [List.map_append, List.nodup_append]
        refine ⟨ih, List.pairwise_singleton _ _, ?_⟩
        rintro name there _ hlast rfl
        obtain ⟨s, hs, rfl⟩ := List.mem_map.1 there
        refine new (List.any_eq_true.2 ⟨s, hs, ?_⟩)
        simpa using hlast

section Stated

variable {line : List TypeDefinition} {name : String} {t : Tag}

/-- The tags on the first declarations of a name along a line of types. -/
def statedTags (line : List TypeDefinition) (name : String) : List Tag :=
  (firstField? line name).elim [] (·.tags) ++ (firstAccessor? line name).elim [] (·.tags) ++
    (firstMutator? line name).elim [] (·.tags)

theorem tags_along_eq_distinctTags :
    (Declarations.along line name).tags = distinctTags (statedTags line name) := by
  rw [Declarations.tags, statedTags, ← Declarations.field_along, ← Declarations.accessor_along,
    ← Declarations.mutator_along]
  simp only [Option.elim_map, Function.comp_def]

/-- What is found first along a line is what some type of the line has. -/
theorem exists_singleton_of_findSome? {α : Type} {pick : TypeDefinition → Option α}
    {tags : α → List Tag} (h : t ∈ (line.findSome? pick).elim [] tags) :
    ∃ u ∈ line, t ∈ ([u].findSome? pick).elim [] tags := by
  cases found : line.findSome? pick with
  | none =>
      rw [found] at h
      cases h
  | some a =>
      rw [found] at h
      obtain ⟨u, hu, picked⟩ := List.exists_of_findSome?_eq_some found
      refine ⟨u, hu, ?_⟩
      rw [List.findSome?_cons, picked]
      exact h

theorem exists_mem_statedTags_singleton (h : t ∈ statedTags line name) :
    ∃ u ∈ line, t ∈ statedTags [u] name := by
  rcases List.mem_append.1 h with h | h
  · rcases List.mem_append.1 h with h | h
    · obtain ⟨u, hu, h⟩ := exists_singleton_of_findSome? h
      exact ⟨u, hu, List.mem_append_left _ (List.mem_append_left _ h)⟩
    · obtain ⟨u, hu, h⟩ := exists_singleton_of_findSome? h
      exact ⟨u, hu, List.mem_append_left _ (List.mem_append_right _ h)⟩
  · obtain ⟨u, hu, h⟩ := exists_singleton_of_findSome? h
    exact ⟨u, hu, List.mem_append_right _ h⟩

theorem declared_of_mem_statedTags (h : t ∈ statedTags line name) :
    ∃ u ∈ line, name ∈ declaredNames u := by
  rw [declared_iff]
  rcases List.mem_append.1 h with h | h
  · rcases List.mem_append.1 h with h | h
    · cases found : firstField? line name with
      | none => simp [found] at h
      | some f => simp
    · cases found : firstAccessor? line name with
      | none => simp [found] at h
      | some a => simp
  · cases found : firstMutator? line name with
    | none => simp [found] at h
    | some u => simp

/-- The name of a tag on a merged member stands on an own member of the same
name, of one of the types that are merged. -/
theorem exists_own_tag {m : Template} (hm : m ∈ membersAlong line) (ht : t ∈ m.tags) :
    ∃ u ∈ line, ∃ own ∈ membersAlong [u], own.name = m.name ∧ ∃ s ∈ own.tags, s.name = t.name := by
  obtain ⟨n, -, rfl⟩ := mem_membersAlong.1 hm
  have tags : ((Declarations.along line n).merge n).tags = distinctTags (statedTags line n) :=
    tags_along_eq_distinctTags
  rw [tags] at ht
  obtain ⟨u, hu, stated⟩ := exists_mem_statedTags_singleton (mem_of_mem_distinctTags ht)
  have own : ((Declarations.along [u] n).merge n).tags = distinctTags (statedTags [u] n) :=
    tags_along_eq_distinctTags
  refine ⟨u, hu, (Declarations.along [u] n).merge n, ?_, rfl, ?_⟩
  · exact mem_membersAlong.2 ⟨n, declared_of_mem_statedTags stated, rfl⟩
  · rw [own]
    exact exists_mem_distinctTags stated

end Stated

namespace Factory

variable {f : Factory} {defs : List TagDefinition} {s t : Tag} {name name' : String}
  {type type' : ValueType}

/-- The validator of a leaf can be enforced on members of a type: it supports the
type, and finds nothing wrong with the leaf's tag. -/
def Enforceable (f : Factory) (type : ValueType) (leaf : Leaf) : Prop :=
  ∀ r, f.registrations.get? leaf.validator = some r →
    (∀ supports ∈ r.supports, supports type = true) ∧
      ∀ check ∈ r.checkTag, check leaf.tag = .ok ()

/-- Some tag of the name has passed, on some member. -/
def Vetted (f : Factory) (r : Registry) (t : Tag) : Prop :=
  ∃ s name type, s.name = t.name ∧ f.check r s name type = .ok ()

/-- What is checked of a tag with a validator. -/
theorem enforceable_iff {id : String} {r : Registration}
    (found : f.registrations.get? id = some r) :
    ((do
      if r.supports.any fun supports => !supports type then
        throw (.unsupportedShape t.name name type)
      match r.checkTag with
      | some check => check t
      | none => pure ()) : Except ConstraintError Unit) = .ok () ↔ f.Enforceable type ⟨t, id⟩ := by
  have only : f.Enforceable type ⟨t, id⟩ ↔ (∀ supports ∈ r.supports, supports type = true) ∧
      ∀ check ∈ r.checkTag, check t = .ok () := by
    simp only [Enforceable, found, Option.some.injEq, forall_eq']
  rw [only]
  have fits : (∀ supports ∈ r.supports, supports type = true) ↔
      (r.supports.any fun supports => !supports type) = false := by
    cases r.supports with
    | none => simp
    | some supports => simp
  rw [fits]
  cases r.supports.any fun supports => !supports type with
  | true =>
      constructor
      · intro passed
        cases passed
      · rintro ⟨unfit, -⟩
        cases unfit
  | false =>
      cases r.checkTag with
      | none => exact ⟨fun _ => ⟨rfl, by simp⟩, fun _ => rfl⟩
      | some check => simp

/-- Once some tag of a name has passed, another passes if its leaves can be enforced. -/
theorem checkAmong_eq_ok_iff (passed : f.checkAmong name' type' defs s = .ok ())
    (same : s.name = t.name) : f.checkAmong name type defs t = .ok () ↔
      ∀ leaf ∈ leavesAmong defs t, f.Enforceable type leaf := by
  -- The tag that has passed has the parts of the other one, as both have one definition,
  -- so that below the first tag the two checks differ in the type only.
  induction defs generalizing s t with
  | nil => cases passed
  | cons d older ih =>
      rw [checkAmong] at passed ⊢
      rw [leavesAmong]
      rw [same] at passed
      cases named : d.name == t.name with
      | false =>
          simp only [named] at passed
          exact ih passed same
      | true =>
          simp only [named, if_true] at passed ⊢
          cases validated : d.validator with
          | some id =>
              simp only [validated, List.mem_singleton, forall_eq] at passed ⊢
              rw [registration] at passed ⊢
              cases found : f.registrations.get? id with
              | none =>
                  rw [found] at passed
                  cases passed
              | some r => exact enforceable_iff found
          | none =>
              simp only [validated] at passed ⊢
              rw [forM_eq_ok] at passed ⊢
              simp only [List.mem_flatMap]
              constructor
              · rintro all leaf ⟨part, hp, hl⟩
                exact (ih (passed part hp) rfl).1 (all part hp) leaf hl
              · intro all part hp
                exact (ih (passed part hp) rfl).2 fun leaf hl => all leaf ⟨part, hp, hl⟩

end Factory

section Made

variable {registryOf : CatalogRef → Registry} {f : Factory} {config : EngineConfig} {e : Engine}
  {s : TypeDefinition} {t : Tag}

theorem CatalogRef.answer_membersOfType_object {d : CatalogRef}
    (found : (registryOf d).type? s.name = some s) (deep : Bool) :
    (d.membersOfType (.object s.name) deep).answer registryOf =
      .ok ((membersAlong (if deep then (registryOf d).lineage s.name else [s])).map
        fun m => .ofTemplate m none) := by
  show (d.ask (.object s.name) deep >>= fun ts => pure _).answer registryOf = _
  rw [Query.answer_bind, CatalogRef.answer_ask, discoverType, discoverObject, found]
  rfl

namespace Engine

theorem checkMembers_eq_ok {r : Registry} {ms : List Member} : checkMembers f r ms = .ok () ↔
    ∀ m ∈ ms, ∀ t ∈ m.tags, f.check r t m.name m.declaredType = .ok () := by
  rw [checkMembers, forM_eq_ok]
  simp only [forM_eq_ok]

theorem checkTypes_eq_ok {r : Registry} {types : List TypeDefinition}
    (checked : (checkTypes f r types).answer registryOf = .ok ()) : ∀ s ∈ types, ∃ ms,
      (f.catalog.membersOfType (.object s.name) false).answer registryOf = .ok ms ∧
        checkMembers f r ms = .ok () := by
  induction types with
  | nil =>
      intro s hs
      cases hs
  | cons first rest ih =>
      rw [checkTypes, Query.answer_bind, Query.answer_mapError] at checked
      obtain ⟨ms, listed, checked⟩ := bind_eq_ok.1 checked
      rw [Query.answer_bind, Query.answer_ofExcept] at checked
      obtain ⟨⟨⟩, here, later⟩ := bind_eq_ok.1 checked
      intro s hs
      rcases List.mem_cons.1 hs with rfl | hs
      · exact ⟨ms, mapError_eq_ok.1 listed, here⟩
      · exact ih later s hs

/-- An engine is made where all tags on the own members of types have passed. -/
theorem withConfig_eq_ok (built : (registryOf f.catalog).Built)
    (made : (withConfig f config).answer registryOf = .ok e) :
    e = unchecked f config ∧ ∀ u ∈ (registryOf f.catalog).types, ∀ own ∈ membersAlong [u],
      ∀ t ∈ own.tags, f.check (registryOf f.catalog) t own.name own.declaredType = .ok () := by
  rw [withConfig, Query.answer_bind, Query.answer_registry] at made
  have made : ((checkTypes f (registryOf f.catalog) (registryOf f.catalog).allTypes >>= fun _ =>
      pure (unchecked f config)).answer registryOf) = .ok e := made
  rw [Query.answer_bind] at made
  obtain ⟨⟨⟩, checked, made⟩ := bind_eq_ok.1 made
  cases made
  refine ⟨rfl, ?_⟩
  intro u hu own howned t tagged
  obtain ⟨ms, listed, passed⟩ := checkTypes_eq_ok checked u (List.mem_reverse.2 hu)
  rw [CatalogRef.answer_membersOfType_object (built.type?_name hu)] at listed
  cases listed
  exact checkMembers_eq_ok.1 passed _ (List.mem_map_of_mem howned) t tagged

/-- Of every tag on a merged member one of its name has passed. -/
theorem vetted_of_withConfig (built : (registryOf f.catalog).Built)
    (made : (withConfig f config).answer registryOf = .ok e) {line : List TypeDefinition}
    (known : ∀ u ∈ line, u ∈ (registryOf f.catalog).types) {m : Template}
    (hm : m ∈ membersAlong line) (ht : t ∈ m.tags) : f.Vetted (registryOf f.catalog) t := by
  obtain ⟨-, passed⟩ := withConfig_eq_ok built made
  obtain ⟨u, hu, own, howned, -, s, hs, same⟩ := exists_own_tag hm ht
  exact ⟨s, own.name, own.declaredType, same, passed u (known u hu) own howned s hs⟩

end Engine

/-- A tag stands as it is on an own member of a type or of one above it, which
is declared with the type that is given. -/
def Registry.StatesOwn (r : Registry) (s : TypeDefinition) (name : String) (type : ValueType)
    (t : Tag) : Prop :=
  ∃ u ∈ r.lineage s.name, ∃ own ∈ membersAlong [u],
    own.name = name ∧ own.declaredType = type ∧ t ∈ own.tags

end Made

/-- Where an engine is made, a tag on a member that runs visit passes as well if
and only if the validators it comes down to can be enforced on the member's
type.  It does where the tag is stated on an own member of that type, and so
always without inherited members. -/
theorem merged_tags_pass_iff_enforceable {w : World} {f : Factory} {e : Engine}
    (built : (w.catalogs.registry f.catalog).Built) (config : EngineConfig)
    (made : (Query.run w fun _ => Engine.withConfig f config).1 = .ok e) {s : TypeDefinition}
    (hs : s ∈ (w.catalogs.registry f.catalog).types) :
    let r := w.catalogs.registry f.catalog
    ∃ ms, (Query.run w fun _ => f.catalog.membersOfType (.object s.name) config.deep).1 = .ok ms ∧
      ∀ m ∈ ms, ∀ t ∈ m.tags,
        (f.check r t m.name m.declaredType = .ok () ↔
          ∀ leaf ∈ leavesAmong r.tags t, f.Enforceable m.declaredType leaf) ∧
        (r.StatesOwn s m.name m.declaredType t → f.check r t m.name m.declaredType = .ok ()) ∧
        (config.deep = false → f.check r t m.name m.declaredType = .ok ()) := by
  intro r
  rw [Query.run_fst] at made
  have line : ∀ u ∈ (if config.deep then r.lineage s.name else [s]), u ∈ r.lineage s.name := by
    intro u hu
    cases deep : config.deep with
    | true => rwa [deep] at hu
    | false =>
        rw [deep] at hu
        rw [List.mem_singleton.1 hu, built.lineage_eq hs]
        exact List.mem_cons_self
  have known : ∀ u ∈ r.lineage s.name, u ∈ r.types := fun u hu => ((built.mem_lineage hs).1 hu).1
  have stated : ∀ name type t, r.StatesOwn s name type t → f.check r t name type = .ok () := by
    rintro name type t ⟨u, hu, own, howned, rfl, rfl, ht⟩
    exact (Engine.withConfig_eq_ok built made).2 u (known u hu) own howned t ht
  refine ⟨_, (Query.run_fst w _).trans
    (CatalogRef.answer_membersOfType_object (built.type?_name hs) config.deep), ?_⟩
  intro m hm t ht
  obtain ⟨template, listed, rfl⟩ := List.mem_map.1 hm
  refine ⟨?_, stated _ _ t, ?_⟩
  · obtain ⟨tag, name, type, same, passed⟩ := Engine.vetted_of_withConfig built made
      (fun u hu => known u (line u hu)) listed ht
    exact Factory.checkAmong_eq_ok_iff passed same
  · intro shallow
    rw [shallow] at listed
    refine stated _ _ t ⟨s, ?_, template, listed, rfl, rfl, ht⟩
    rw [built.lineage_eq hs]
    exact List.mem_cons_self

/-- Tickets have a number for a code; passes are tickets that keep a text for it,
which must not be empty. -/
def ticketing : List Definition :=
  BuiltIn.drafts.map .tag ++
    [.type ((TypeDraft.plain "Ticket").withAccessor ⟨"code", .int, [], Getter.const (.int 5)⟩),
     .type (((TypeDraft.plain "Pass").extending "Ticket").withField
      { Field.plain "code" .string with tags := [.plain BuiltIn.notEmpty] })]

def ticketWorld : World :=
  ⟨{ Heap.empty with objects := ⟨#[.empty]⟩ },
   (Catalogs.empty.add (Builder.empty.declareAll ticketing).build).2⟩

/-- What the tag on the code of a pass comes down to cannot be enforced on numbers,
but without inherited members the code is a text. -/
theorem code_of_pass_is_enforceable_as_text :
    (∃ ms, (Query.run ticketWorld fun _ =>
        CatalogRef.membersOfType ⟨0⟩ (.object "Pass") true).1 = .ok ms ∧
      ∃ m ∈ ms, ∃ t ∈ m.tags, m.declaredType = .int ∧
        ¬∀ leaf ∈ leavesAmong (ticketWorld.catalogs.registry ⟨0⟩).tags t,
          (Factory.ofCatalog ⟨0⟩).Enforceable .int leaf) ∧
    ∃ ms, (Query.run ticketWorld fun _ =>
        CatalogRef.membersOfType ⟨0⟩ (.object "Pass") false).1 = .ok ms ∧
      ∃ m ∈ ms, ∃ t ∈ m.tags, m.declaredType = .string ∧
        (Factory.ofCatalog ⟨0⟩).check (ticketWorld.catalogs.registry ⟨0⟩) t m.name .string =
          .ok () := by
  constructor
  · obtain ⟨ms, listed, enforced⟩ := merged_tags_pass_iff_enforceable (w := ticketWorld)
      (f := .ofCatalog ⟨0⟩) (Registry.built_build ticketing) ⟨true, 32⟩ rfl
      List.mem_cons_self
    refine ⟨ms, listed, ?_⟩
    cases listed
    obtain ⟨iff, -, -⟩ := enforced _ List.mem_cons_self _ List.mem_cons_self
    refine ⟨_, List.mem_cons_self, _, List.mem_cons_self, rfl, ?_⟩
    intro all
    have passed := iff.2 all
    cases passed
  · obtain ⟨ms, listed, enforced⟩ := merged_tags_pass_iff_enforceable (w := ticketWorld)
      (f := .ofCatalog ⟨0⟩) (Registry.built_build ticketing) ⟨false, 32⟩ rfl
      List.mem_cons_self
    refine ⟨ms, listed, ?_⟩
    cases listed
    obtain ⟨-, -, own⟩ := enforced _ List.mem_cons_self _ List.mem_cons_self
    exact ⟨_, List.mem_cons_self, _, List.mem_cons_self, rfl, own rfl⟩

/-- The code of a pass is the number of its ticket, with the tag of its own text:
the tag does not pass there, although an engine is made, and a run fails on it. -/
theorem code_of_pass_fails_in_run :
    (∃ e, (Query.run ticketWorld fun _ => Engine.withConfig (.ofCatalog ⟨0⟩) .standard).1 = .ok e ∧
      (Query.run ticketWorld fun h => e.validate h (.object ⟨0, "Pass", ["Ticket"]⟩)).1 =
        .error (.unsupportedValue BuiltIn.notEmpty "Int")) ∧
    ∃ ms, (Query.run ticketWorld fun _ =>
        CatalogRef.membersOfType ⟨0⟩ (.object "Pass") EngineConfig.standard.deep).1 = .ok ms ∧
      ∃ m ∈ ms, ∃ t ∈ m.tags,
        (Factory.ofCatalog ⟨0⟩).check (ticketWorld.catalogs.registry ⟨0⟩) t m.name
          m.declaredType = .error (.unsupportedShape BuiltIn.notEmpty "code" .int) :=
  ⟨⟨_, rfl, rfl⟩, _, rfl, _, List.mem_cons_self, _, List.mem_cons_self, rfl⟩

end Memberwise
