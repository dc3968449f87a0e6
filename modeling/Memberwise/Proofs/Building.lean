import Mathlib.Data.List.Forall2
import Mathlib.Data.List.Induction
import Memberwise.Registry.BuiltIn

/-!
# What a definition does to a builder

`Builder.declare_cases` says everything that one step can do: it makes a
definition of a type or of a tag, or it makes none and only uses up a number.
What holds of the empty builder and is kept by a step holds after every course
of steps (`Builder.declareAll_induction`).

The drafts that were accepted on the way are `Accepted`, and `Extends` is what
they declare about parents, by name.  Both are read off the course of steps and
not off the definitions it leaves behind.
-/

namespace Memberwise

theorem bind_eq_ok {ε α β : Type} {x : Except ε α} {f : α → Except ε β} {b : β} :
    x >>= f = .ok b ↔ ∃ a, x = .ok a ∧ f a = .ok b := by
  cases x with
  | error e => simp [bind, Except.bind]
  | ok a => simp [bind, Except.bind]

theorem map_eq_ok {ε α β : Type} {x : Except ε α} {f : α → β} {b : β} :
    x.map f = .ok b ↔ ∃ a, x = .ok a ∧ f a = b := by
  cases x with
  | error e => simp [Except.map]
  | ok a => simp [Except.map]

/-- Going through a list succeeds with what each of its elements gives. -/
theorem mapM_eq_ok {ε α β : Type} {f : α → Except ε β} {as : List α} {bs : List β} :
    as.mapM f = .ok bs ↔ List.Forall₂ (fun a b => f a = .ok b) as bs := by
  induction as generalizing bs with
  | nil =>
      rw [List.mapM_nil, List.forall₂_nil_left_iff]
      constructor
      · intro h
        cases h
        rfl
      · rintro rfl
        rfl
  | cons a as ih =>
      rw [List.mapM_cons, bind_eq_ok, List.forall₂_cons_left_iff]
      constructor
      · rintro ⟨b, hb, h⟩
        obtain ⟨rest, hrest, h⟩ := bind_eq_ok.1 h
        cases h
        exact ⟨b, rest, hb, ih.1 hrest, rfl⟩
      · rintro ⟨b, rest, hb, hrest, rfl⟩
        rw [ih.2 hrest]
        exact ⟨b, hb, rfl⟩

/-- Going through a list succeeds if it does so at each of its elements. -/
theorem forM_eq_ok {ε α : Type} {f : α → Except ε Unit} {as : List α} :
    as.forM f = .ok () ↔ ∀ a ∈ as, f a = .ok () := by
  induction as with
  | nil =>
      constructor
      · intro _ a ha
        cases ha
      · intro _
        rfl
  | cons a as ih =>
      show (f a >>= fun _ => as.forM f) = .ok () ↔ _
      rw [bind_eq_ok, List.forall_mem_cons, ← ih]
      constructor
      · rintro ⟨⟨⟩, here, later⟩
        exact ⟨here, later⟩
      · rintro ⟨here, later⟩
        exact ⟨(), here, later⟩

/-- What stands on the right of a pairing is paired with something on the left. -/
theorem exists_of_forall₂ {α β : Type} {R : α → β → Prop} {as : List α} {bs : List β}
    (h : List.Forall₂ R as bs) {b : β} (hb : b ∈ bs) : ∃ a ∈ as, R a b := by
  induction h with
  | nil => cases hb
  | @cons a c as bs hac rest ih =>
      rcases List.mem_cons.1 hb with rfl | hb
      · exact ⟨a, List.mem_cons_self, hac⟩
      · obtain ⟨a', ha', h⟩ := ih hb
        exact ⟨a', List.mem_cons_of_mem _ ha', h⟩

namespace Builder

/-- What is declared on a type under one name, with its tags in normal form. -/
def NormalizesTags {α : Type} (b : Builder) (tags : α → List Tag) (withTags : α → List Tag → α)
    (x y : α) : Prop :=
  ∃ ts, b.normalizeAll (tags x) = .ok ts ∧ y = withTags x ts

/-- The definition of a number that a draft is resolved to. -/
structure ResolvesType (b : Builder) (id : TypeId) (draft : TypeDraft) (d : TypeDefinition) :
    Prop where
  id_eq : d.id = id
  name_eq : d.name = draft.name
  isAbstract_eq : d.isAbstract = draft.isAbstract
  fresh : b.type? draft.name = none
  uniqueFields : firstRepeat [] (draft.fields.map (·.name)) = none
  uniqueAccessors : firstRepeat [] (draft.accessors.map (·.name)) = none
  uniqueMutators : firstRepeat [] (draft.mutators.map (·.name)) = none
  parents : ∃ ps, List.Forall₂ (fun n p => b.type? n = some p) draft.parents ps ∧
    d.parentIds = ps.map (·.id) ∧
    d.supertypes = distinct (ps.flatMap fun p => p.name :: p.supertypes)
  fields : List.Forall₂
    (b.NormalizesTags Field.tags fun f ts => { f with tags := ts }) draft.fields d.fields
  accessors : List.Forall₂
    (b.NormalizesTags Accessor.tags fun a ts => { a with tags := ts }) draft.accessors d.accessors
  mutators : List.Forall₂
    (b.NormalizesTags Mutator.tags fun m ts => { m with tags := ts }) draft.mutators d.mutators
  tags : b.normalizeAll draft.tags = .ok d.tags

/-- The definition of a number that a draft of a tag is resolved to. -/
structure ResolvesTag (b : Builder) (id : TagId) (draft : TagDraft) (d : TagDefinition) :
    Prop where
  id_eq : d.id = id
  name_eq : d.name = draft.name
  params_eq : d.params = draft.params
  validator_eq : d.validator = draft.validator
  mergesElements_eq : d.mergesElements = draft.mergesElements
  fresh : b.tag? draft.name = none
  uniqueParams : firstRepeat [] (draft.params.map (·.name)) = none
  defaults : draft.params.forM (checkDefault draft.name) = .ok ()
  metaTags : b.normalizeAll draft.metaTags = .ok d.metaTags

theorem normalizesTags_of_mapM {α : Type} {b : Builder} {tags : α → List Tag}
    {withTags : α → List Tag → α} {xs ys : List α}
    (h : (xs.mapM fun x => do return withTags x (← b.normalizeAll (tags x))) = .ok ys) :
    List.Forall₂ (b.NormalizesTags tags withTags) xs ys := by
  refine (mapM_eq_ok.1 h).imp ?_
  intro x y hy
  obtain ⟨ts, hts, hy⟩ := bind_eq_ok.1 hy
  cases hy
  exact ⟨ts, hts, rfl⟩

theorem firstRepeat_of_checkUnique {owner : String} {kind : DeclarationKind}
    {names : List String} {u : Unit} (h : checkUnique owner kind names = .ok u) :
    firstRepeat [] names = none := by
  unfold checkUnique at h
  split at h
  · cases h
  · assumption

theorem parent_eq_ok {b : Builder} {name : String} {d : TypeDefinition} :
    b.parent name = .ok d ↔ b.type? name = some d := by
  unfold parent
  cases b.type? name with
  | none => simp
  | some found => simp

theorem resolvesType_of_ok {b : Builder} {id : TypeId} {draft : TypeDraft}
    {d : TypeDefinition} (h : b.resolveType id draft = .ok d) : b.ResolvesType id draft d := by
  unfold resolveType at h
  by_cases taken : (b.type? draft.name).isSome
  · rw [if_pos taken] at h
    cases h
  · rw [if_neg taken] at h
    simp only [bind_eq_ok] at h
    obtain ⟨_, hf, _, ha, _, hm, ps, hps, fields, hfields, accessors, haccessors, mutators,
      hmutators, tags, htags, h⟩ := h
    cases h
    have parents := (mapM_eq_ok.1 hps).imp fun _ _ => parent_eq_ok.1
    exact
      { id_eq := rfl
        name_eq := rfl
        isAbstract_eq := rfl
        fresh := by simpa using taken
        uniqueFields := firstRepeat_of_checkUnique hf
        uniqueAccessors := firstRepeat_of_checkUnique ha
        uniqueMutators := firstRepeat_of_checkUnique hm
        parents := ⟨ps, parents, rfl, rfl⟩
        fields := normalizesTags_of_mapM hfields
        accessors := normalizesTags_of_mapM haccessors
        mutators := normalizesTags_of_mapM hmutators
        tags := htags }

theorem resolvesTag_of_ok {b : Builder} {id : TagId} {draft : TagDraft} {d : TagDefinition}
    (h : b.resolveTag id draft = .ok d) : b.ResolvesTag id draft d := by
  unfold resolveTag at h
  by_cases taken : (b.tag? draft.name).isSome
  · rw [if_pos taken] at h
    cases h
  · rw [if_neg taken] at h
    simp only [bind_eq_ok] at h
    obtain ⟨_, hp, _, hdefaults, metaTags, hmeta, h⟩ := h
    cases h
    exact
      { id_eq := rfl
        name_eq := rfl
        params_eq := rfl
        validator_eq := rfl
        mergesElements_eq := rfl
        fresh := by simpa using taken
        uniqueParams := firstRepeat_of_checkUnique hp
        defaults := hdefaults
        metaTags := hmeta }

/-- The builder after a draft of a type was accepted. -/
def withType (b : Builder) (d : TypeDefinition) : Builder :=
  { b with nextTypeId := b.nextTypeId + 1, types := d :: b.types }

/-- The builder after a draft of a tag was accepted. -/
def withTag (b : Builder) (d : TagDefinition) : Builder :=
  { b with nextTagId := b.nextTagId + 1, tags := d :: b.tags }

theorem declare_type_ok {b : Builder} {draft : TypeDraft} {d : TypeDefinition}
    (h : b.resolveType b.nextTypeId draft = .ok d) :
    b.declare (.type draft) = (true, b.withType d) := by
  have reserved : b.reserveType.2.resolveType b.nextTypeId draft = .ok d := h
  simp only [declare, addType, reserveType] at reserved ⊢
  rw [reserved]
  rfl

theorem declare_type_error {b : Builder} {draft : TypeDraft} {e : RegistryError}
    (h : b.resolveType b.nextTypeId draft = .error e) :
    b.declare (.type draft) = (false, b.reserveType.2) := by
  have reserved : b.reserveType.2.resolveType b.nextTypeId draft = .error e := h
  simp only [declare, addType, reserveType] at reserved ⊢
  rw [reserved]
  rfl

theorem declare_tag_ok {b : Builder} {draft : TagDraft} {d : TagDefinition}
    (h : b.resolveTag b.nextTagId draft = .ok d) :
    b.declare (.tag draft) = (true, b.withTag d) := by
  have reserved : b.reserveTag.2.resolveTag b.nextTagId draft = .ok d := h
  simp only [declare, addTag, reserveTag] at reserved ⊢
  rw [reserved]
  rfl

theorem declare_tag_error {b : Builder} {draft : TagDraft} {e : RegistryError}
    (h : b.resolveTag b.nextTagId draft = .error e) :
    b.declare (.tag draft) = (false, b.reserveTag.2) := by
  have reserved : b.reserveTag.2.resolveTag b.nextTagId draft = .error e := h
  simp only [declare, addTag, reserveTag] at reserved ⊢
  rw [reserved]
  rfl

/-- Everything that a step can do. -/
theorem declare_cases (b : Builder) (step : Definition) :
    (∃ draft d, step = .type draft ∧ b.ResolvesType b.nextTypeId draft d ∧
      b.declare step = (true, b.withType d)) ∨
    (∃ draft d, step = .tag draft ∧ b.ResolvesTag b.nextTagId draft d ∧
      b.declare step = (true, b.withTag d)) ∨
    b.declare step = (false, b.reserveType.2) ∨ b.declare step = (false, b.reserveTag.2) := by
  cases step with
  | type draft =>
      cases h : b.resolveType b.nextTypeId draft with
      | ok d => exact Or.inl ⟨draft, d, rfl, resolvesType_of_ok h, declare_type_ok h⟩
      | error e => exact Or.inr (Or.inr (Or.inl (declare_type_error h)))
  | tag draft =>
      cases h : b.resolveTag b.nextTagId draft with
      | ok d => exact Or.inr (Or.inl ⟨draft, d, rfl, resolvesTag_of_ok h, declare_tag_ok h⟩)
      | error e => exact Or.inr (Or.inr (Or.inr (declare_tag_error h)))
  | abandonedType => exact Or.inr (Or.inr (Or.inl rfl))
  | abandonedTag => exact Or.inr (Or.inr (Or.inr rfl))

theorem declareAll_append (b : Builder) (ds es : List Definition) :
    b.declareAll (ds ++ es) = (b.declareAll ds).declareAll es :=
  List.foldl_append

theorem declareAll_concat (b : Builder) (ds : List Definition) (step : Definition) :
    b.declareAll (ds ++ [step]) = ((b.declareAll ds).declare step).2 :=
  declareAll_append b ds [step]

/-- What every step keeps holds after a course of steps. -/
theorem declareAll_induction {P : Builder → Prop} (start : P empty)
    (keep : ∀ b step, P b → P (b.declare step).2) (ds : List Definition) :
    P (empty.declareAll ds) := by
  induction ds using List.reverseRecOn with
  | nil => exact start
  | append_singleton ds step ih =>
      rw [declareAll_concat]
      exact keep _ step ih

theorem nodup_of_firstRepeat {seen names : List String} (h : firstRepeat seen names = none) :
    names.Nodup ∧ ∀ n ∈ names, n ∉ seen := by
  induction names generalizing seen with
  | nil => simp
  | cons n names ih =>
      rw [firstRepeat] at h
      split at h
      · cases h
      · rename_i fresh
        obtain ⟨distinct, apart⟩ := ih h
        simp only [List.mem_cons, not_or] at apart
        refine ⟨List.nodup_cons.2 ⟨fun again => (apart n again).1 rfl, distinct⟩, ?_⟩
        intro m hm
        rcases List.mem_cons.1 hm with rfl | hm
        · simpa using fresh
        · exact (apart m hm).2

/-- No tag has two parameters of one name. -/
theorem nodup_params_declareAll (ds : List Definition) :
    ∀ t ∈ (empty.declareAll ds).tags, (t.params.map (·.name)).Nodup := by
  refine declareAll_induction (P := fun b => ∀ t ∈ b.tags, (t.params.map (·.name)).Nodup) ?_ ?_ ds
  · simp [empty]
  · intro b step all
    rcases b.declare_cases step with ⟨draft, d, -, -, e⟩ | ⟨draft, d, -, made, e⟩ | e | e
    · rw [e]
      exact all
    · rw [e]
      intro t ht
      rcases List.mem_cons.1 ht with rfl | ht
      · rw [made.params_eq]
        exact (nodup_of_firstRepeat made.uniqueParams).1
      · exact all t ht
    · rw [e]
      exact all
    · rw [e]
      exact all

end Builder

/-- The registries that builders come to. -/
def Registry.Built (r : Registry) : Prop :=
  ∃ ds, r = (Builder.empty.declareAll ds).build

/-- Among the steps is one that declares the draft, and it was accepted. -/
def Accepted (ds : List Definition) (draft : TypeDraft) : Prop :=
  ∃ before after, ds = before ++ .type draft :: after ∧
    ((Builder.empty.declareAll before).declare (.type draft)).1 = true

/-- An accepted draft of the first name declares the second as a parent. -/
def Extends (ds : List Definition) (sub super : String) : Prop :=
  ∃ draft, Accepted ds draft ∧ draft.name = sub ∧ super ∈ draft.parents

theorem accepted_nil (draft : TypeDraft) : ¬Accepted [] draft := by
  rintro ⟨before, after, h, -⟩
  simp at h

theorem accepted_concat (ds : List Definition) (step : Definition) (draft : TypeDraft) :
    Accepted (ds ++ [step]) draft ↔ Accepted ds draft ∨
      step = .type draft ∧ ((Builder.empty.declareAll ds).declare step).1 = true := by
  constructor
  · rintro ⟨before, after, h, accepted⟩
    rcases List.eq_nil_or_concat after with rfl | ⟨after, last, rfl⟩
    · obtain ⟨rfl, hstep⟩ := List.append_inj' h rfl
      cases hstep
      exact Or.inr ⟨rfl, accepted⟩
    · have regroup : ds ++ [step] = (before ++ .type draft :: after) ++ [last] := by
        simpa using h
      obtain ⟨rfl, -⟩ := List.append_inj' regroup rfl
      exact Or.inl ⟨before, after, rfl, accepted⟩
  · rintro (⟨before, after, rfl, accepted⟩ | ⟨rfl, accepted⟩)
    · exact ⟨before, after ++ [step], by simp, accepted⟩
    · exact ⟨ds, [], rfl, accepted⟩

theorem extends_concat (ds : List Definition) (step : Definition) (sub super : String) :
    Extends (ds ++ [step]) sub super ↔ Extends ds sub super ∨
      ∃ draft, step = .type draft ∧ ((Builder.empty.declareAll ds).declare step).1 = true ∧
        draft.name = sub ∧ super ∈ draft.parents := by
  simp only [Extends, accepted_concat]
  constructor
  · rintro ⟨draft, accepted | ⟨hstep, accepted⟩, hsub, hsuper⟩
    · exact Or.inl ⟨draft, accepted, hsub, hsuper⟩
    · exact Or.inr ⟨draft, hstep, accepted, hsub, hsuper⟩
  · rintro (⟨draft, accepted, hsub, hsuper⟩ | ⟨draft, hstep, accepted, hsub, hsuper⟩)
    · exact ⟨draft, Or.inl accepted, hsub, hsuper⟩
    · exact ⟨draft, Or.inr ⟨hstep, accepted⟩, hsub, hsuper⟩

end Memberwise
