import Mathlib.Data.List.Nodup
import Mathlib.Logic.Relation
import Memberwise.Proofs.Building
import Memberwise.Proofs.Pairs

/-!
# Normal forms of tags

A tag is brought into normal form where it is declared: it then has the parameters
of its definition and no others (`Builder.isNormal_of_normalize`).  A definition
that is made later takes a new name, so what was looked up once is found again, and
all tags that a registry stores are in normal form for the definitions found there.
The parts of a tag were looked up before it took its number, so composition only
ever leads to smaller numbers (`stored_tags_are_normal`).
-/

namespace Memberwise

/-- The tag is as its definition wants it: it has the declared parameters and no
others, each with a value that its type accepts or with its default. -/
structure TagDefinition.IsNormal (d : TagDefinition) (t : Tag) : Prop where
  name : t.name = d.name
  params : (t.params.map (·.1)).Perm (d.params.map (·.name))
  values : ∀ p ∈ d.params, ∃ v, t.get? p.name = some v ∧
    (v.isNull = false ∧ p.type.accepts v = true ∨ p.default = some v)

/-- The tags on a type and on what it declares. -/
def TypeDefinition.storedTags (d : TypeDefinition) : List Tag :=
  d.fields.flatMap (·.tags) ++ d.accessors.flatMap (·.tags) ++ d.mutators.flatMap (·.tags) ++ d.tags

/-- All tags on definitions, of types and of tags. -/
def Registry.storedTags (r : Registry) : List Tag :=
  r.types.flatMap (·.storedTags) ++ r.tags.flatMap (·.metaTags)

/-- The second definition is that of a tag of which the first is composed. -/
def Registry.ComposedOf (r : Registry) (d part : TagDefinition) : Prop :=
  d ∈ r.tags ∧ ∃ t ∈ d.metaTags, r.tag? t.name = some part

namespace Builder

variable {b : Builder} {d : TagDefinition} {s t : Tag}

theorem checkParam_eq_ok {p : String × Value} {u : Unit} (h : checkParam d p = .ok u) :
    ∃ declared, d.param? p.1 = some declared ∧ p.2.isNull = false ∧
      declared.type.accepts p.2 = true := by
  rw [checkParam] at h
  cases found : d.param? p.1 with
  | none =>
      rw [found] at h
      cases h
  | some declared =>
      rw [found] at h
      cases null : p.2.isNull with
      | true =>
          simp only [null, Bool.true_or, if_true] at h
          cases h
      | false =>
          cases fits : declared.type.accepts p.2 with
          | true => exact ⟨declared, rfl, rfl, fits⟩
          | false =>
              simp only [null, fits, Bool.false_or, Bool.not_false, if_true] at h
              cases h

theorem fillParam_eq_ok {p : TagParameter} {q : String × Value} (h : fillParam d t p = .ok q) :
    q.1 = p.name ∧ (t.get? p.name = some q.2 ∨ p.default = some q.2) := by
  rw [fillParam] at h
  cases given : t.get? p.name with
  | some value =>
      rw [given] at h
      cases h
      exact ⟨rfl, Or.inl rfl⟩
  | none =>
      rw [given] at h
      cases default : p.default with
      | some value =>
          rw [default] at h
          cases h
          exact ⟨rfl, Or.inr rfl⟩
      | none =>
          rw [default] at h
          cases h

/-- Parameters are filled in under their names. -/
theorem map_fst_of_fillParam {ps : List TagParameter} {params : List (String × Value)}
    (filled : List.Forall₂ (fun p q => fillParam d t p = .ok q) ps params) :
    params.map (·.1) = ps.map (·.name) := by
  refine List.forall₂_eq_eq_eq ▸ List.forall₂_map_left_iff.2 (List.forall₂_map_right_iff.2 ?_)
  exact filled.flip.imp fun q p done => (fillParam_eq_ok done).1

/-- What is brought into normal form was checked, and filled in from its definition. -/
theorem normalize_eq_ok (h : b.normalize s = .ok t) : ∃ d params, b.tag? s.name = some d ∧
    (∀ p ∈ s.params, checkParam d p = .ok ()) ∧
    List.Forall₂ (fun p q => fillParam d s p = .ok q) d.params params ∧
    t = ⟨d.name, Pairs.ofList params⟩ := by
  rw [normalize] at h
  cases known : b.tag? s.name with
  | none =>
      rw [known] at h
      cases h
  | some d =>
      simp only [known] at h
      obtain ⟨_, ⟨⟩, h⟩ := bind_eq_ok.1 h
      obtain ⟨⟨⟩, checked, h⟩ := bind_eq_ok.1 h
      obtain ⟨params, filled, h⟩ := bind_eq_ok.1 h
      cases h
      exact ⟨d, params, rfl, forM_eq_ok.1 checked, mapM_eq_ok.1 filled, rfl⟩

theorem mem_of_tag?_eq_some {name : String} (h : b.tag? name = some d) :
    d ∈ b.tags ∧ d.name = name :=
  ⟨List.mem_of_find?_eq_some h, by simpa using List.find?_some h⟩

/-- A tag that was brought into normal form is in normal form. -/
theorem isNormal_of_normalize (h : b.normalize s = .ok t)
    (distinct : ∀ d ∈ b.tags, (d.params.map (·.name)).Nodup) :
    ∃ d, b.tag? t.name = some d ∧ d.IsNormal t := by
  obtain ⟨d, params, known, checked, filled, rfl⟩ := normalize_eq_ok h
  obtain ⟨registered, named⟩ := mem_of_tag?_eq_some known
  have distinct := distinct d registered
  have names := map_fst_of_fillParam filled
  have apart : (params.map (·.1)).Nodup := names ▸ distinct
  refine ⟨d, named ▸ known, rfl, names ▸ (Pairs.perm_ofList apart).map _, ?_⟩
  intro p hp
  obtain ⟨q, hq, done⟩ := exists_of_forall₂ filled.flip hp
  obtain ⟨called, source⟩ := fillParam_eq_ok done
  refine ⟨q.2, Pairs.get?_ofList_of_mem apart (called ▸ hq), source.imp_left ?_⟩
  intro given
  obtain ⟨declared, found, notNull, fits⟩ := checkParam_eq_ok (checked _ (Pairs.mem_of_get? given))
  have same : declared = p := List.inj_on_of_nodup_map distinct
    (List.mem_of_find?_eq_some found) hp (by simpa using List.find?_some found)
  exact ⟨notNull, same ▸ fits⟩

example : BuiltIn.builder.normalize ((TagOf.plain BuiltIn.max).withParam "value" (.int 3)) =
    .ok ⟨BuiltIn.max, [("delta", .float 0), ("inclusive", .bool true), ("value", .int 3)]⟩ := rfl

/-- What is declared on a type has no tags but those that were brought into normal form. -/
theorem exists_normalize_of_normalizesTags {α : Type} {tags : α → List Tag}
    {withTags : α → List Tag → α} (replaced : ∀ x ts, tags (withTags x ts) = ts) {xs ys : List α}
    (all : List.Forall₂ (b.NormalizesTags tags withTags) xs ys) (ht : t ∈ ys.flatMap tags) :
    ∃ s, b.normalize s = .ok t := by
  obtain ⟨y, hy, ht⟩ := List.mem_flatMap.1 ht
  obtain ⟨x, -, ts, normalized, rfl⟩ := exists_of_forall₂ all hy
  rw [replaced] at ht
  obtain ⟨s, -, done⟩ := exists_of_forall₂ (mapM_eq_ok.1 normalized) ht
  exact ⟨s, done⟩

theorem ResolvesType.exists_normalize {id : TypeId} {draft : TypeDraft} {u : TypeDefinition}
    (made : b.ResolvesType id draft u) (ht : t ∈ u.storedTags) : ∃ s, b.normalize s = .ok t := by
  simp only [TypeDefinition.storedTags, List.mem_append, or_assoc] at ht
  rcases ht with ht | ht | ht | ht
  · exact exists_normalize_of_normalizesTags (fun _ _ => rfl) made.fields ht
  · exact exists_normalize_of_normalizesTags (fun _ _ => rfl) made.accessors ht
  · exact exists_normalize_of_normalizesTags (fun _ _ => rfl) made.mutators ht
  · obtain ⟨s, -, done⟩ := exists_of_forall₂ (mapM_eq_ok.1 made.tags) ht
    exact ⟨s, done⟩

/-- What holds of the tags of every builder. -/
structure Settled (b : Builder) : Prop where
  numbered : ∀ d ∈ b.tags, d.id < b.nextTagId
  stored : ∀ u ∈ b.types, ∀ t ∈ u.storedTags, ∃ d, b.tag? t.name = some d ∧ d.IsNormal t
  parts : ∀ e ∈ b.tags, ∀ t ∈ e.metaTags, ∃ d, b.tag? t.name = some d ∧ d.IsNormal t ∧ d.id < e.id

theorem settled_empty : empty.Settled where
  numbered := by simp [empty]
  stored := by simp [empty]
  parts := by simp [empty]

/-- A tag that is defined later does not hide one that was found before. -/
theorem tag?_withTag {name : String} (fresh : b.tag? d.name = none) {e : TagDefinition}
    (found : b.tag? name = some e) : (b.withTag d).tag? name = some e := by
  have other : (d.name == name) = false := by
    rw [beq_eq_false_iff_ne]
    rintro rfl
    cases fresh.symm.trans found
  show (d :: b.tags).find? (·.name == name) = some e
  rw [List.find?_cons, other]
  exact found

theorem Settled.withTag (h : b.Settled) (distinct : ∀ d ∈ b.tags, (d.params.map (·.name)).Nodup)
    {draft : TagDraft} (made : b.ResolvesTag b.nextTagId draft d) : (b.withTag d).Settled where
  numbered := by
    intro e he
    rcases List.mem_cons.1 he with rfl | he
    · exact made.id_eq ▸ Nat.lt_succ_self _
    · exact Nat.lt_succ_of_lt (h.numbered e he)
  stored := by
    intro u hu t ht
    obtain ⟨e, found, normal⟩ := h.stored u hu t ht
    exact ⟨e, tag?_withTag (made.name_eq ▸ made.fresh) found, normal⟩
  parts := by
    intro e he t ht
    rcases List.mem_cons.1 he with rfl | he
    · obtain ⟨s, -, done⟩ := exists_of_forall₂ (mapM_eq_ok.1 made.metaTags) ht
      obtain ⟨part, found, normal⟩ := isNormal_of_normalize done distinct
      refine ⟨part, tag?_withTag (made.name_eq ▸ made.fresh) found, normal, ?_⟩
      rw [made.id_eq]
      exact h.numbered part (mem_of_tag?_eq_some found).1
    · obtain ⟨part, found, normal, lt⟩ := h.parts e he t ht
      exact ⟨part, tag?_withTag (made.name_eq ▸ made.fresh) found, normal, lt⟩

theorem Settled.declare (h : b.Settled) (distinct : ∀ d ∈ b.tags, (d.params.map (·.name)).Nodup)
    (step : Definition) : (b.declare step).2.Settled := by
  rcases b.declare_cases step with ⟨draft, u, -, made, e⟩ | ⟨draft, d, -, made, e⟩ | e | e
  · rw [e]
    refine ⟨h.numbered, ?_, h.parts⟩
    intro v hv t ht
    rcases List.mem_cons.1 hv with rfl | hv
    · obtain ⟨s, done⟩ := made.exists_normalize ht
      exact isNormal_of_normalize done distinct
    · exact h.stored v hv t ht
  · rw [e]
    exact h.withTag distinct made
  · rw [e]
    exact ⟨h.numbered, h.stored, h.parts⟩
  · rw [e]
    exact ⟨fun d hd => Nat.lt_succ_of_lt (h.numbered d hd), h.stored, h.parts⟩

theorem settled_declareAll (ds : List Definition) : (empty.declareAll ds).Settled := by
  induction ds using List.reverseRecOn with
  | nil => exact settled_empty
  | append_singleton ds step ih =>
      rw [declareAll_concat]
      exact ih.declare (nodup_params_declareAll ds) step

/-- Every tag that is stored names a definition and is as that wants it. -/
theorem exists_normal_of_mem_storedTags {ds : List Definition} {t : Tag}
    (stored : t ∈ (empty.declareAll ds).build.storedTags) :
    ∃ d, (empty.declareAll ds).build.tag? t.name = some d ∧ d.IsNormal t := by
  have settled := settled_declareAll ds
  rcases List.mem_append.1 stored with ht | ht
  · obtain ⟨u, hu, ht⟩ := List.mem_flatMap.1 ht
    exact settled.stored u hu t ht
  · obtain ⟨e, he, ht⟩ := List.mem_flatMap.1 ht
    obtain ⟨d, found, normal, -⟩ := settled.parts e he t ht
    exact ⟨d, found, normal⟩

end Builder

/-- Every tag that a registry stores names a definition there and is as that wants
it.  The parts of a tag are older than the tag itself, so that no tag is composed of
itself, whatever lies between. -/
theorem stored_tags_are_normal (ds : List Definition) :
    let r := (Builder.empty.declareAll ds).build
    (∀ t ∈ r.storedTags, ∃ d, r.tag? t.name = some d ∧ d.IsNormal t) ∧
    (∀ e ∈ r.tags, ∀ t ∈ e.metaTags, ∃ d, r.tag? t.name = some d ∧ d.id < e.id) ∧
    WellFounded (Function.swap r.ComposedOf) ∧
    ∀ d, ¬Relation.TransGen r.ComposedOf d d := by
  intro r
  have settled := Builder.settled_declareAll ds
  have older : ∀ {e d}, r.ComposedOf e d → d.id < e.id := by
    rintro e d ⟨he, t, ht, found⟩
    obtain ⟨part, found', -, lt⟩ := settled.parts e he t ht
    cases found.symm.trans found'
    exact lt
  refine ⟨fun t stored => Builder.exists_normal_of_mem_storedTags stored, ?_, ?_, ?_⟩
  · intro e he t ht
    obtain ⟨d, found, -, lt⟩ := settled.parts e he t ht
    exact ⟨d, found, lt⟩
  · exact Subrelation.wf older (InvImage.wf TagDefinition.id Nat.lt_wfRel.wf)
  · intro d path
    have lt : ∀ e, Relation.TransGen r.ComposedOf d e → e.id < d.id := by
      intro e path
      induction path with
      | single part => exact older part
      | tail _ part ih => exact Nat.lt_trans (older part) ih
    exact Nat.lt_irrefl _ (lt d path)

end Memberwise
