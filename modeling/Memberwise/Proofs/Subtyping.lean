import Mathlib.Tactic.TFAE
import Mathlib.Order.Defs.Unbundled
import Memberwise.Proofs.Lineage

/-!
# Subtyping

A registry answers in several ways whether one type descends from another: by
the numbers in its index, by names, through the lineage and through objects.
All these answers are reachability along what the accepted drafts declare about
parents (`subtype_answers_agree`).
-/

namespace Memberwise

open Builder

variable {types older : List TypeDefinition} {d s t p : TypeDefinition}

/-- A further type is no parent of those that are there. -/
theorem Lineal.parent_cons_of_mem (h : Lineal (d :: older)) (hs : s ∈ older) :
    Parent (d :: older) s p ↔ Parent older s p := by
  constructor
  · rintro ⟨-, hp, hid⟩
    have lt : p.id < s.id := h.lt_of_mem_parentIds (List.mem_cons_of_mem _ hs) hid
    cases h with
    | cons parents rest fresh latest known ids supers =>
        rcases List.mem_cons.1 hp with rfl | hp
        · exact absurd (Nat.lt_trans lt (latest s hs)) (Nat.lt_irrefl _)
        · exact ⟨hs, hp, hid⟩
  · rintro ⟨-, hp, hid⟩
    exact ⟨List.mem_cons_of_mem _ hs, List.mem_cons_of_mem _ hp, hid⟩

/-- The parents of a further type are those from which it was made. -/
theorem Lineal.parent_cons_self (h : Lineal (d :: older)) {parents : List TypeDefinition}
    (known : ∀ p ∈ parents, p ∈ older) (ids : d.parentIds = parents.map (·.id)) :
    Parent (d :: older) d p ↔ p ∈ parents := by
  constructor
  · rintro ⟨-, hp, hid⟩
    rw [ids] at hid
    obtain ⟨q, hq, e⟩ := List.mem_map.1 hid
    have same : q = p := h.eq_of_id (List.mem_cons_of_mem _ (known q hq)) hp e
    exact same ▸ hq
  · intro hp
    refine ⟨List.mem_cons_self, List.mem_cons_of_mem _ (known p hp), ?_⟩
    rw [ids]
    exact List.mem_map_of_mem hp

theorem exists_type_of_accepted {ds : List Definition} {draft : TypeDraft}
    (h : Accepted ds draft) : ∃ t ∈ (empty.declareAll ds).types, t.name = draft.name := by
  induction ds using List.reverseRecOn with
  | nil => exact absurd h (accepted_nil draft)
  | append_singleton ds step ih =>
      rw [declareAll_concat]
      rw [accepted_concat] at h
      rcases declare_cases (empty.declareAll ds) step with
        ⟨draft', d, hstep, made, e⟩ | ⟨draft', d, hstep, -, e⟩ | e | e
      · rw [e] at h ⊢
        rcases h with h | ⟨h, -⟩
        · obtain ⟨t, ht, name⟩ := ih h
          exact ⟨t, List.mem_cons_of_mem _ ht, name⟩
        · cases hstep.symm.trans h
          exact ⟨d, List.mem_cons_self, made.name_eq⟩
      · rw [e] at h ⊢
        rcases h with h | ⟨h, -⟩
        · exact ih h
        · cases hstep.symm.trans h
      · rw [e] at h ⊢
        exact ih (h.resolve_right fun ⟨_, accepted⟩ => Bool.noConfusion accepted)
      · rw [e] at h ⊢
        exact ih (h.resolve_right fun ⟨_, accepted⟩ => Bool.noConfusion accepted)

/-- What a type declares about its parents is what the step that made it declares. -/
theorem extends_concat_type {ds : List Definition} {draft : TypeDraft}
    (accepted : ((empty.declareAll ds).declare (.type draft)).1 = true) {n : String}
    (fresh : ∀ t ∈ (empty.declareAll ds).types, t.name ≠ draft.name) :
    Extends (ds ++ [.type draft]) draft.name n ↔ n ∈ draft.parents := by
  rw [extends_concat]
  constructor
  · rintro (⟨draft', older, name, -⟩ | ⟨draft', hdraft, -, -, hn⟩)
    · obtain ⟨t, ht, e⟩ := exists_type_of_accepted older
      exact absurd (e.trans name) (fresh t ht)
    · cases hdraft
      exact hn
  · intro hn
    exact Or.inr ⟨draft, rfl, accepted, rfl, hn⟩

/-- Declared parents are the parents by number. -/
theorem extends_iff_parent (ds : List Definition) {s : TypeDefinition}
    (hs : s ∈ (empty.declareAll ds).types) {n : String} :
    Extends ds s.name n ↔ ∃ p, Parent (empty.declareAll ds).types s p ∧ p.name = n := by
  induction ds using List.reverseRecOn generalizing s with
  | nil => cases hs
  | append_singleton ds step ih =>
      rw [declareAll_concat] at hs ⊢
      rcases declare_cases (empty.declareAll ds) step with
        ⟨draft, d, rfl, made, e⟩ | ⟨draft, d, rfl, -, e⟩ | e | e
      · have all := (grown_declareAll ds).lineal_withType made
        have fresh := ne_of_type?_eq_none made.fresh
        rw [e] at hs ⊢
        rcases List.mem_cons.1 hs with rfl | hs'
        · obtain ⟨parents, named, ids, -⟩ := made.parents
          have known : ∀ p ∈ parents, p ∈ (empty.declareAll ds).types := by
            intro p hp
            obtain ⟨m, -, hm⟩ := exists_of_forall₂ named hp
            exact (mem_of_type?_eq_some hm).1
          have accepted : ((empty.declareAll ds).declare (.type draft)).1 = true := by
            rw [e]
          rw [made.name_eq, extends_concat_type accepted fresh]
          simp only [withType, all.parent_cons_self known ids]
          constructor
          · intro hn
            obtain ⟨p, hp, hpn⟩ := exists_of_forall₂ named.flip hn
            exact ⟨p, hp, (mem_of_type?_eq_some hpn).2⟩
          · rintro ⟨p, hp, rfl⟩
            obtain ⟨m, hm, hpm⟩ := exists_of_forall₂ named hp
            rw [(mem_of_type?_eq_some hpm).2]
            exact hm
        · simp only [withType, all.parent_cons_of_mem hs', extends_concat]
          rw [← ih hs']
          refine or_iff_left ?_
          rintro ⟨draft', hdraft, -, name, -⟩
          cases hdraft
          exact fresh s hs' name.symm
      · rw [e] at hs ⊢
        rw [extends_concat]
        refine (or_iff_left ?_).trans (ih hs)
        rintro ⟨draft', hdraft, -⟩
        cases hdraft
      · rw [e] at hs ⊢
        rw [extends_concat, e]
        refine (or_iff_left ?_).trans (ih hs)
        rintro ⟨draft', -, accepted, -⟩
        cases accepted
      · rw [e] at hs ⊢
        rw [extends_concat, e]
        refine (or_iff_left ?_).trans (ih hs)
        rintro ⟨draft', -, accepted, -⟩
        cases accepted

/-- The names above a type are those of all that it reaches through parents. -/
theorem extends_iff_reaches (ds : List Definition) (hs : s ∈ (empty.declareAll ds).types)
    (ht : t ∈ (empty.declareAll ds).types) :
    Relation.ReflTransGen (Extends ds) s.name t.name ↔
      Reaches (empty.declareAll ds).types s t := by
  have h := (grown_declareAll ds).lineal
  refine h.reaches_iff_of_recursive
    (A := fun s t => Relation.ReflTransGen (Extends ds) s.name t.name) ?_ hs ht
  intro s hs t ht
  rw [Relation.ReflTransGen.cases_head_iff]
  refine or_congr ⟨h.eq_of_name hs ht, fun e => e ▸ rfl⟩ ?_
  simp only [extends_iff_parent ds hs]
  constructor
  · rintro ⟨n, ⟨p, parent, rfl⟩, path⟩
    exact ⟨p, parent, path⟩
  · rintro ⟨p, parent, path⟩
    exact ⟨p.name, ⟨p, parent, rfl⟩, path⟩

namespace Registry

variable {r : Registry}

theorem built_build (ds : List Definition) : (Builder.empty.declareAll ds).build.Built :=
  ⟨ds, rfl⟩

theorem Built.lineal (h : r.Built) : Lineal r.types := by
  obtain ⟨ds, rfl⟩ := h
  exact (grown_declareAll ds).lineal

theorem Built.subtypes_eq (h : r.Built) : r.subtypes = .ofTypes r.types := by
  obtain ⟨ds, rfl⟩ := h
  rfl

theorem Built.type?_name (h : r.Built) (hs : s ∈ r.types) : r.type? s.name = some s :=
  h.lineal.find?_name hs

theorem Built.isSubtype_iff_reaches (h : r.Built) (hs : s ∈ r.types) (ht : t ∈ r.types) :
    r.isSubtype s.id t.id = true ↔ Reaches r.types s t := by
  rw [isSubtype, h.subtypes_eq]
  exact SubtypeIndex.isSubtype_iff_reaches h.lineal hs ht

theorem Built.isSubtypeByName_eq (h : r.Built) (hs : s ∈ r.types) (ht : t ∈ r.types) :
    r.isSubtypeByName s.name t.name = r.isSubtype s.id t.id := by
  simp only [isSubtypeByName, typeId?, h.type?_name hs, h.type?_name ht, Option.map_some]

theorem Built.isA_iff_isSubtype (h : r.Built) (hs : s ∈ r.types) (ht : t ∈ r.types) :
    s.isA t.name = true ↔ r.isSubtype s.id t.id = true := by
  rw [h.lineal.isA_iff_reaches hs ht, h.isSubtype_iff_reaches hs ht]

theorem Built.lineage_eq (h : r.Built) (hs : s ∈ r.types) :
    r.lineage s.name = s :: s.supertypes.filterMap r.type? := by
  simp only [lineage, h.type?_name hs]

theorem mem_and_name_of_type? {name : String} (h : r.type? name = some t) :
    t ∈ r.types ∧ t.name = name :=
  ⟨List.mem_of_find?_eq_some h, by simpa using List.find?_some h⟩

/-- The types of a lineage are those that the type is one of. -/
theorem Built.mem_lineage (h : r.Built) (hs : s ∈ r.types) :
    t ∈ r.lineage s.name ↔ t ∈ r.types ∧ s.isA t.name = true := by
  simp only [h.lineage_eq hs, List.mem_cons, List.mem_filterMap, TypeDefinition.isA,
    Bool.or_eq_true, beq_iff_eq, List.any_eq_true, exists_eq_right]
  constructor
  · rintro (rfl | ⟨n, hn, found⟩)
    · exact ⟨hs, Or.inl rfl⟩
    · obtain ⟨ht, rfl⟩ := mem_and_name_of_type? found
      exact ⟨ht, Or.inr hn⟩
  · rintro ⟨ht, e | above⟩
    · exact Or.inl (h.lineal.eq_of_name ht hs e.symm)
    · exact Or.inr ⟨t.name, above, h.type?_name ht⟩

theorem Built.ne_of_mem_supertypes (h : r.Built) (hs : s ∈ r.types) {n : String}
    (hn : n ∈ s.supertypes) : n ≠ s.name := by
  obtain ⟨p, hp, rfl, lt⟩ := h.lineal.mem_supertypes_exists hs hn
  intro e
  rw [h.lineal.eq_of_name hp hs e] at lt
  exact Nat.lt_irrefl _ lt

theorem Built.nodup_supertypes (h : r.Built) (hs : s ∈ r.types) : s.supertypes.Nodup := by
  obtain ⟨parents, -, -, supers⟩ := h.lineal.exists_parents hs
  rw [supers]
  exact nodup_distinct _

theorem Built.nodup_lineage (h : r.Built) (hs : s ∈ r.types) : (r.lineage s.name).Nodup := by
  rw [h.lineage_eq hs, List.nodup_cons]
  constructor
  · intro again
    obtain ⟨n, hn, found⟩ := List.mem_filterMap.1 again
    exact h.ne_of_mem_supertypes hs hn (mem_and_name_of_type? found).2.symm
  · refine List.Pairwise.filterMap r.type? ?_ (h.nodup_supertypes hs)
    rintro m n differ a hm _ hn rfl
    exact differ ((mem_and_name_of_type? hm).2.symm.trans (mem_and_name_of_type? hn).2)

/-- What is of a type is of all types in that type's lineage. -/
theorem Built.isA_of_mem_lineage (h : r.Built) (hs : s ∈ r.types) (ht : t ∈ r.types)
    (sub : r.isSubtype s.id t.id = true) {u : TypeDefinition} (hu : u ∈ r.lineage t.name) :
    s.isA u.name = true := by
  obtain ⟨hu, above⟩ := (h.mem_lineage ht).1 hu
  rw [h.isSubtype_iff_reaches hs ht] at sub
  rw [h.lineal.isA_iff_reaches ht hu] at above
  exact (h.lineal.isA_iff_reaches hs hu).2 (sub.trans above)

theorem Built.mem_below (h : r.Built) (hs : s ∈ r.types) (ht : t ∈ r.types) :
    s = t ∨ s.id ∈ r.subtypes.below t.id ↔ r.isSubtype s.id t.id = true := by
  have number : s.id = t.id ↔ s = t := ⟨h.lineal.eq_of_id hs ht, fun e => e ▸ rfl⟩
  rw [isSubtype, h.subtypes_eq, SubtypeIndex.mem_below h.lineal hs, SubtypeIndex.isSubtype,
    Bool.or_eq_true, beq_iff_eq, List.contains_iff_mem, number]

theorem Built.exists_instantiate (h : r.Built) (hs : s ∈ r.types)
    (concrete : s.isAbstract = false) (heap : Heap) :
    ∃ o after, r.instantiate heap s.name = .ok (o, after) := by
  simp only [instantiate, h.type?_name hs, concrete]
  exact ⟨_, _, rfl⟩

/-- A new object is of the types that its type is one of. -/
theorem Built.isA_eq_of_instantiate (h : r.Built) (hs : s ∈ r.types) {before after : Heap}
    {o : ObjectRef} (made : r.instantiate before s.name = .ok (o, after)) (n : String) :
    o.isA n = s.isA n := by
  simp only [instantiate, h.type?_name hs] at made
  split at made
  · cases made
  · cases made
    rfl

theorem Built.isPartialOrder_isSubtype (h : r.Built) :
    IsPartialOrder {t // t ∈ r.types} fun s t => r.isSubtype s.1.id t.1.id = true where
  refl s := (h.isSubtype_iff_reaches s.2 s.2).2 .refl
  trans s t u hst htu := by
    rw [h.isSubtype_iff_reaches s.2 t.2] at hst
    rw [h.isSubtype_iff_reaches t.2 u.2] at htu
    exact (h.isSubtype_iff_reaches s.2 u.2).2 (hst.trans htu)
  antisymm s t hst hts := by
    rw [h.isSubtype_iff_reaches s.2 t.2] at hst
    rw [h.isSubtype_iff_reaches t.2 s.2] at hts
    exact Subtype.ext (h.lineal.eq_of_reaches hst hts)

end Registry

/-- All answers about subtypes are reachability along declared parents.  This
is a partial order, in which a type stands before all that its lineage goes on
to, and parents have smaller numbers. -/
theorem subtype_answers_agree (ds : List Definition) :
    let r := (empty.declareAll ds).build
    (∀ s ∈ r.types, ∀ t ∈ r.types, List.TFAE
      [r.isSubtype s.id t.id = true,
       r.isSubtypeByName s.name t.name = true,
       s.isA t.name = true,
       t ∈ r.lineage s.name,
       s = t ∨ s.id ∈ r.subtypes.below t.id,
       Relation.ReflTransGen (Extends ds) s.name t.name]) ∧
    (∀ s ∈ r.types, s.isAbstract = false → ∀ h, ∃ o h', r.instantiate h s.name = .ok (o, h') ∧
      ∀ t ∈ r.types, o.isA t.name = r.isSubtype s.id t.id) ∧
    IsPartialOrder {t // t ∈ r.types} (fun s t => r.isSubtype s.1.id t.1.id = true) ∧
    ∀ s ∈ r.types, (r.lineage s.name).head? = some s ∧ (r.lineage s.name).Nodup ∧
      (∀ t ∈ r.types, t.id ∈ s.parentIds ↔ Extends ds s.name t.name) ∧
      ∀ id ∈ s.parentIds, id < s.id := by
  intro r
  have built : r.Built := Registry.built_build ds
  refine ⟨?_, ?_, built.isPartialOrder_isSubtype, ?_⟩
  · intro s hs t ht
    tfae_have 1 ↔ 2 := by rw [built.isSubtypeByName_eq hs ht]
    tfae_have 3 ↔ 1 := built.isA_iff_isSubtype hs ht
    tfae_have 4 ↔ 3 := by rw [built.mem_lineage hs, and_iff_right ht]
    tfae_have 5 ↔ 1 := built.mem_below hs ht
    tfae_have 6 ↔ 1 := by
      rw [built.isSubtype_iff_reaches hs ht]
      exact extends_iff_reaches ds hs ht
    tfae_finish
  · intro s hs concrete h
    obtain ⟨o, after, made⟩ := built.exists_instantiate hs concrete h
    refine ⟨o, after, made, ?_⟩
    intro t ht
    rw [built.isA_eq_of_instantiate hs made, Bool.eq_iff_iff]
    exact built.isA_iff_isSubtype hs ht
  · intro s hs
    refine ⟨?_, built.nodup_lineage hs, ?_, fun id => built.lineal.lt_of_mem_parentIds hs⟩
    · rw [built.lineage_eq hs, List.head?_cons]
    · intro t ht
      rw [extends_iff_parent ds hs]
      constructor
      · intro hid
        exact ⟨t, ⟨hs, ht, hid⟩, rfl⟩
      · rintro ⟨p, ⟨-, hp, hid⟩, e⟩
        exact built.lineal.eq_of_name hp ht e ▸ hid

/-- Two types, and between them a definition that fails and one that is given up. -/
def kennel : List Definition :=
  [.type (.plain "Animal"), .type ((TypeDraft.plain "Cat").extending "Feline"), .abandonedType,
   .type ((TypeDraft.plain "Dog").extending "Animal")]

theorem dog_descends_from_animal :
    (empty.declareAll kennel).types.map (·.name) = ["Dog", "Animal"] ∧
      Relation.ReflTransGen (Extends kennel) "Dog" "Animal" ∧
      ¬Relation.ReflTransGen (Extends kennel) "Animal" "Dog" := by
  obtain ⟨agree, -⟩ := subtype_answers_agree kennel
  have down := agree _ List.mem_cons_self _ (List.mem_cons_of_mem _ List.mem_cons_self)
  have up := agree _ (List.mem_cons_of_mem _ List.mem_cons_self) _ List.mem_cons_self
  refine ⟨rfl, (down.out 0 5).1 rfl, ?_⟩
  intro path
  exact Bool.noConfusion ((up.out 5 0).1 path)

end Memberwise
