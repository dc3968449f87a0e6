import Memberwise.Proofs.Cuts
import Memberwise.Proofs.Separation

/-!
# Filters

A filter hides members on every level of a run.  A run that looks at fewer members
finds less (`Narrower.findings_subset`).  Hidden members can make a value valid
inside, so the two runs need not stop at the same leaf of a tag.  The leaf at which
the wider one stops covers all the same what the narrower one finds.
-/

namespace Memberwise

/-- The second verdict finds wrong whatever the first finds wrong. -/
structure Verdict.Within (a b : Verdict) : Prop where
  invalid : a.isValid = false → b.isValid = false
  found : ∀ el ∈ a.elements, ∀ name, el.violates name = true →
    ∃ el' ∈ b.elements, el'.path = el.path ∧ el'.violates name = true

namespace Verdict

theorem within_refl (a : Verdict) : a.Within a :=
  ⟨fun invalid => invalid, fun el hel _ violated => ⟨el, hel, rfl, violated⟩⟩

theorem within_of_isValid {a b : Verdict} (valid : a.isValid = true) : a.Within b := by
  cases isValid_eq_true.1 valid
  refine ⟨?_, ?_⟩
  · intro invalid
    cases invalid
  · intro el hel
    cases hel

/-- Findings that all violate something are within others if these cover them. -/
theorem within_ofElements {es es' : List InvalidElement}
    (violating : ∀ el ∈ es, ∃ name, el.violates name = true)
    (found : ∀ el ∈ es, ∀ name, el.violates name = true →
      ∃ el' ∈ es', el'.path = el.path ∧ el'.violates name = true) :
    (ofElements es).Within (ofElements es') where
  invalid := by
    intro invalid
    rw [isValid_ofElements] at invalid ⊢
    cases es with
    | nil => cases invalid
    | cons el es =>
        obtain ⟨name, violated⟩ := violating el List.mem_cons_self
        obtain ⟨el', hel', -⟩ := found el List.mem_cons_self name violated
        exact List.isEmpty_eq_false_iff.2 (List.ne_nil_of_mem hel')
  found := by
    rw [elements_ofElements, elements_ofElements]
    exact found

end Verdict

/-- Of two places in a list the second is before the first, or the same, or after it. -/
theorem mem_or_eq_or_mem_of_append_eq {α : Type} {before after before' after' : List α} {a a' : α}
    (same : before ++ a :: after = before' ++ a' :: after') :
    a' ∈ before ∨ a' = a ∨ a ∈ before' := by
  rcases List.append_eq_append_iff.1 same with ⟨mid, rfl, rest⟩ | ⟨mid, rfl, rest⟩
  · cases mid with
    | nil => exact Or.inr (Or.inl (List.cons.inj rest).1.symm)
    | cons b mid =>
        obtain ⟨rfl, -⟩ := List.cons.inj rest
        exact Or.inr (Or.inr (List.mem_append_right _ List.mem_cons_self))
  · cases mid with
    | nil => exact Or.inr (Or.inl (List.cons.inj rest).1)
    | cons b mid =>
        obtain ⟨rfl, -⟩ := List.cons.inj rest
        exact Or.inl (List.mem_append_right _ List.mem_cons_self)

/-- A validator that does not look inside says the same in every context. -/
theorem Factory.eq_of_leafVerdict [PatternEngine] {registryOf : CatalogRef → Registry}
    {d : CatalogRef} {ctx ctx' : Context} {h : Heap} {v : Value} {leaf : Leaf} {a b : Verdict}
    (other : leaf.validator ≠ BuiltIn.valid) (others : leaf.validator ≠ BuiltIn.valids)
    (said : (ofCatalog d).leafVerdict registryOf ctx h v leaf = .ok a)
    (said' : (ofCatalog d).leafVerdict registryOf ctx' h v leaf = .ok b) : a = b := by
  rcases leafVerdict_eq_or registryOf d h v leaf with ⟨verdict, -, same⟩ | ⟨id, -⟩ | ⟨id, -⟩
  · rw [same] at said said'
    exact Except.ok.inj (said.symm.trans said')
  · exact absurd id other
  · exact absurd id others

namespace Engine

variable {patterns : PatternEngine} {registryOf : CatalogRef → Registry} {h : Heap} {d : CatalogRef}
  {e e' : Engine} {target v : Value} {m : Member} {t : Tag} {leaf : Leaf} {a b : Verdict}

/-! ### Elements of one run -/

/-- What holds of the elements that runs make for members, and does not depend on the
path, holds of every element of a report, from whatever level it is. -/
theorem forall_elements_of_runs {P : InvalidElement → Prop} {r : Report}
    (builtIn : e.factory = .ofCatalog d) (done : (e.validate h target).answer registryOf = .ok r)
    (merges : ∀ a b, P a → P b → P (a.merge b)) (under : ∀ lead el, P el → P (el.under lead))
    (own : ∀ {further target m v ts}, e.Alike further → further.Looks registryOf h target m v →
      ts ≠ [] → P (.ofMember m v ts)) : ∀ el ∈ r.elements, P el := by
  induction e using wellFounded_nested.induction generalizing target r with
  | _ e ih =>
      refine forall_elements_of_validate builtIn done (fun a b ha hb _ => merges a b ha hb) ?_ ?_
      · intro m v js looks _ invalid
        exact own ⟨rfl, rfl, rfl⟩ looks invalid
      · intro m v t leaf verdict below el _ _ _ _ nested inside
        apply under
        have alike := alike_of_nested nested
        have further : ∀ {u s}, (below.validate h u).answer registryOf = .ok s →
            ∀ el ∈ s.elements, P el := by
          intro u s done'
          refine ih below nested (alike.factory.trans builtIn) done' ?_
          intro further target m v ts alike' looks some
          exact own (alike.trans alike') looks some
        generalize leaf.validator = id at inside
        cases inside with
        | valid done' found => exact further done' el found
        | valids _ _ _ _ _ done' found => exact under _ _ (further done' _ found)

/-- Every element of a report violates some tag. -/
theorem exists_violated_of_mem_elements {r : Report} (builtIn : e.factory = .ofCatalog d)
    (done : (e.validate h target).answer registryOf = .ok r) :
    ∀ el ∈ r.elements, ∃ name, el.violates name = true := by
  refine forall_elements_of_runs builtIn done ?_ ?_ ?_
  · rintro a b ⟨name, violated⟩ -
    exact ⟨name, by rw [InvalidElement.violates_merge, violated, Bool.true_or]⟩
  · rintro lead el ⟨name, violated⟩
    exact ⟨name, by rw [InvalidElement.violates_under, violated]⟩
  · intro further target m v ts _ _ some
    obtain ⟨t, ht⟩ := List.exists_mem_of_ne_nil ts some
    refine ⟨t.name, ?_⟩
    rw [InvalidElement.violates_ofMember]
    exact List.any_eq_true.2 ⟨t, ht, beq_self_eq_true _⟩

/-- On no level is anything reported of a member that the filter does not let pass. -/
theorem accepts_of_mem_elements {r : Report} (builtIn : e.factory = .ofCatalog d)
    (done : (e.validate h target).answer registryOf = .ok r) :
    ∀ el ∈ r.elements, e.accepts el.member = true := by
  refine forall_elements_of_runs builtIn done ?_ ?_ ?_
  · intro a b accepted _
    exact accepted
  · intro lead el accepted
    exact accepted
  · intro further target m v ts alike looks _
    rw [InvalidElement.ofMember, InvalidElement.member_violateAll, ← alike.accepts]
    exact looks.accepted

/-- Nothing is reported of a container that is no object. -/
theorem object_of_mem_elements {r : Report} (builtIn : e.factory = .ofCatalog d)
    (done : (e.validate h target).answer registryOf = .ok r) :
    ∀ el ∈ r.elements, ∃ o, target = .object o := by
  refine forall_elements_of_validate builtIn done (fun _ _ here _ _ => here) ?_ ?_
  · intro m v js looks judged invalid
    obtain ⟨t, ht⟩ := List.exists_mem_of_ne_nil _ invalid
    obtain ⟨j, hj, -, rfl⟩ := mem_violated.1 ht
    exact (looks.object_of_tagged ((mem_judge judged).1 hj).1).1
  · intro m v t leaf verdict below el looks tagged _ _ _ _
    exact (looks.object_of_tagged tagged).1

/-! ### Two runs -/

/-- Engines with the same validators on the same level, of which the second looks at
every member that the first looks at. -/
structure Narrower (e e' : Engine) : Prop where
  factory : e'.factory = e.factory
  config : e'.config = e.config
  depth : e'.depth = e.depth
  accepts : ∀ m, e.accepts m = true → e'.accepts m = true

theorem narrower_filtered {p q : MemberPredicate} (implies : ∀ m, p m = true → q m = true) :
    (e.filtered p).Narrower (e.filtered q) :=
  ⟨rfl, rfl, rfl, implies⟩

theorem narrower_unfiltered (p : MemberPredicate) : (e.filtered p).Narrower e.unfiltered :=
  ⟨rfl, rfl, rfl, fun _ _ => rfl⟩

namespace Narrower

theorem catalog (narrower : e.Narrower e') : e'.catalog = e.catalog :=
  congrArg Factory.catalog narrower.factory

theorem looks (narrower : e.Narrower e') (looks : e.Looks registryOf h target m v) :
    e'.Looks registryOf h target m v where
  listed := by
    rw [narrower.catalog, narrower.config]
    exact looks.listed
  accepted := narrower.accepts m looks.accepted
  readable := looks.readable
  read := looks.read

theorem nested (narrower : e.Narrower e') {below below' : Engine} (down : e.nested = .ok below)
    (down' : e'.nested = .ok below') : below.Narrower below' := by
  rw [Engine.nested] at down down'
  split at down
  · split at down'
    · cases down
      cases down'
      exact ⟨narrower.factory, narrower.config, congrArg (· + 1) narrower.depth,
        narrower.accepts⟩
    · cases down'
  · cases down

end Narrower

/-- One level further down, what runs of the first engine find is found by runs of
the second. -/
def FindsLess (registryOf : CatalogRef → Registry) (h : Heap) (e e' : Engine) : Prop :=
  ∀ below below', e.nested = .ok below → e'.nested = .ok below' → ∀ u r r',
    (below.validate h u).answer registryOf = .ok r →
      (below'.validate h u).answer registryOf = .ok r' → r.findings ⊆ r'.findings

/-- A container is judged more strictly where more members are looked at. -/
theorem within_of_valid (builtIn : e.factory = .ofCatalog d)
    (further : e.FindsLess registryOf h e')
    (said : (Rule.valid (e.asRunning h) h v).answer registryOf = .ok a)
    (said' : (Rule.valid (e'.asRunning h) h v).answer registryOf = .ok b) : a.Within b := by
  cases container : v.isContainer with
  | false =>
      have scalar : ∀ running, Rule.valid running h v = pure .valid := by
        intro running
        rw [Rule.valid, container]
        rfl
      rw [scalar] at said
      cases said
      exact Verdict.within_of_isValid rfl
  | true =>
      obtain ⟨below, r, nested, done, rfl⟩ := valid_container_eq_ok container said
      obtain ⟨below', r', nested', done', rfl⟩ := valid_container_eq_ok container said'
      have builtIn := (alike_of_nested nested).factory.trans builtIn
      refine Verdict.within_ofElements (exists_violated_of_mem_elements builtIn done) ?_
      intro el hel name violated
      have found : (el.path, name) ∈ r.findings := ⟨el, hel, rfl, violated⟩
      exact further below below' nested nested' v r r' done done' found

/-- So is a list or map of containers. -/
theorem within_of_valids (builtIn : e.factory = .ofCatalog d) (catalog : e'.catalog = e.catalog)
    (further : e.FindsLess registryOf h e')
    (said : (Rule.valids (e.asRunning h) h v).answer registryOf = .ok a)
    (said' : (Rule.valids (e'.asRunning h) h v).answer registryOf = .ok b) : a.Within b := by
  cases valid : a.isValid with
  | true => exact Verdict.within_of_isValid valid
  | false =>
      have iterates := iterates_of_valids said valid
      obtain ⟨below, items, parts, nested, itemized, hparts, rfl⟩ :=
        valids_items_eq_ok iterates said
      obtain ⟨below', items', parts', nested', itemized', hparts', rfl⟩ :=
        valids_items_eq_ok iterates said'
      rw [catalog] at itemized'
      cases itemized.symm.trans itemized'
      have builtIn := (alike_of_nested nested).factory.trans builtIn
      -- Every element was found in the container that some item is.
      have exists_item : ∀ el ∈ parts.flatten, ∃ item ∈ items, ∃ w s, w.isContainer = true ∧
          (item.read h).answer registryOf = .ok w ∧
          (below.validate h w).answer registryOf = .ok s ∧
          ∃ g ∈ s.elements, el = g.under item.name := by
        intro el hel
        obtain ⟨part, hpart, hel⟩ := List.mem_flatten.1 hel
        obtain ⟨item, listed, here⟩ := exists_of_forall₂ hparts hpart
        obtain ⟨w, read, ⟨container, s, done, rfl⟩ | ⟨-, rfl⟩⟩ := itemElements_eq_ok here
        · obtain ⟨g, hg, rfl⟩ := List.mem_map.1 hel
          exact ⟨item, listed, w, s, container, read, done, g, hg, rfl⟩
        · cases hel
      refine Verdict.within_ofElements ?_ ?_
      · intro el hel
        obtain ⟨item, -, w, s, -, -, done, g, hg, rfl⟩ := exists_item el hel
        exact exists_violated_of_mem_elements builtIn done g hg
      · intro el hel name violated
        obtain ⟨item, listed, w, s, container, read, done, g, hg, rfl⟩ := exists_item el hel
        obtain ⟨part', hpart', here'⟩ := exists_of_forall₂ hparts'.flip listed
        obtain ⟨w', read', ⟨-, s', done', rfl⟩ | ⟨scalar, -⟩⟩ := itemElements_eq_ok here'
        · cases read.symm.trans read'
          have found : (g.path, name) ∈ s.findings := ⟨g, hg, rfl, violated⟩
          obtain ⟨g', hg', path, violated'⟩ :=
            further below below' nested nested' w s s' done done' found
          refine ⟨g'.under item.name, List.mem_flatten.2 ⟨_, hpart', List.mem_map_of_mem hg'⟩,
            ?_, violated'⟩
          rw [InvalidElement.path_under, InvalidElement.path_under, path]
        · cases read.symm.trans read'
          rw [scalar] at container
          cases container

/-- The validator of one leaf is stricter where more members are looked at. -/
theorem within_of_leafVerdict (builtIn : e.factory = .ofCatalog d) (narrower : e.Narrower e')
    (further : e.FindsLess registryOf h e')
    (said : e.factory.leafVerdict registryOf (e.contextOf h target m t) h v leaf = .ok a)
    (said' : e'.factory.leafVerdict registryOf (e'.contextOf h target m t) h v leaf = .ok b) :
    a.Within b := by
  rw [narrower.factory] at said'
  rw [builtIn] at said said'
  rcases Factory.leafVerdict_cases said with
    ⟨other, others, -⟩ | ⟨validator, looked⟩ | ⟨validator, looked⟩
  · rw [Factory.eq_of_leafVerdict other others said said']
    exact b.within_refl
  · exact within_of_valid builtIn further looked
      (Factory.valid_of_leafVerdict said' validator)
  · exact within_of_valids builtIn narrower.catalog further looked
      (Factory.valids_of_leafVerdict said' validator)

/-- A leaf that is violated finds nothing inside the value, or it looks inside an
object, or inside items. -/
theorem cases_of_invalid (builtIn : e.factory = .ofCatalog d)
    (said : e.factory.leafVerdict registryOf (e.contextOf h target m t) h v leaf = .ok a)
    (invalid : a.isValid = false) :
    (leaf.validator ≠ BuiltIn.valid ∧ leaf.validator ≠ BuiltIn.valids ∧ a.elements = []) ∨
      (leaf.validator = BuiltIn.valid ∧ v.iterates = false) ∨
      (leaf.validator = BuiltIn.valids ∧ v.iterates = true) := by
  rw [builtIn] at said
  rcases Factory.leafVerdict_cases said with
    ⟨other, others, yes, rfl⟩ | ⟨validator, looked⟩ | ⟨validator, looked⟩
  · exact Or.inl ⟨other, others, Verdict.elements_ofBool yes⟩
  · cases container : v.isContainer with
    | false =>
        rw [Rule.valid, container] at looked
        cases looked
        cases invalid
    | true =>
        obtain ⟨below, r, nested, done, rfl⟩ := valid_container_eq_ok container looked
        rw [Verdict.isValid_ofElements] at invalid
        obtain ⟨el, hel⟩ := List.exists_mem_of_ne_nil _ (List.isEmpty_eq_false_iff.1 invalid)
        have builtIn := (alike_of_nested nested).factory.trans builtIn
        obtain ⟨o, rfl⟩ := object_of_mem_elements builtIn done el hel
        exact Or.inr (Or.inl ⟨validator, rfl⟩)
  · exact Or.inr (Or.inr ⟨validator, iterates_of_valids looked invalid⟩)

/-- Leaves that look inside one value do so in the same way, so if one of them finds
something only where more members are looked at, then so does every other. -/
theorem elements_eq_nil_of_satisfied (builtIn : e.factory = .ofCatalog d)
    (same : e'.factory = e.factory) {leaf' : Leaf}
    (said : e.factory.leafVerdict registryOf (e.contextOf h target m t) h v leaf = .ok a)
    (satisfied : e.factory.leafVerdict registryOf (e.contextOf h target m t) h v leaf' =
      .ok .valid)
    (said' : e'.factory.leafVerdict registryOf (e'.contextOf h target m t) h v leaf' = .ok b)
    (invalid' : b.isValid = false) : a.elements = [] := by
  cases invalid : a.isValid with
  | true =>
      rw [Verdict.isValid_eq_true.1 invalid]
      rfl
  | false =>
      have kind := cases_of_invalid builtIn said invalid
      have kind' := cases_of_invalid (same.trans builtIn) said' invalid'
      have said'' := said'
      rw [same, builtIn] at said''
      rw [builtIn] at said satisfied
      rcases kind with ⟨-, -, none⟩ | ⟨validator, iterates⟩ | ⟨validator, iterates⟩
      · exact none
      · rcases kind' with ⟨other, others, -⟩ | ⟨validator', -⟩ | ⟨-, iterates'⟩
        · cases Factory.eq_of_leafVerdict other others satisfied said''
          cases invalid'
        · have looked := Factory.valid_of_leafVerdict said validator
          cases looked.symm.trans (Factory.valid_of_leafVerdict satisfied validator')
          rfl
        · rw [iterates] at iterates'
          cases iterates'
      · rcases kind' with ⟨other, others, -⟩ | ⟨-, iterates'⟩ | ⟨validator', -⟩
        · cases Factory.eq_of_leafVerdict other others satisfied said''
          cases invalid'
        · rw [iterates] at iterates'
          cases iterates'
        · have looked := Factory.valids_of_leafVerdict said validator
          cases looked.symm.trans (Factory.valids_of_leafVerdict satisfied validator')
          rfl

/-- A tag that a run judges is judged by its leaves. -/
theorem exists_firstInvalid_of_looks {r : Report}
    (done : (e.validate h target).answer registryOf = .ok r)
    (looks : e.Looks registryOf h target m v) (tagged : t ∈ m.tags)
    (constraint : (registryOf e.catalog).isConstraint t = true) :
    ∃ b, firstInvalid (e.factory.leafVerdict registryOf (e.contextOf h target m t) h v)
      (leavesAmong (registryOf e.catalog).tags t) = .ok b := by
  obtain ⟨ms, parts, listed, hparts, -⟩ := validate_eq_ok done
  obtain ⟨part, -, here⟩ := looks.exists_part listed hparts
  rcases memberElements_eq_ok here with ⟨unable, -⟩ | ⟨-, v', js, read, judged, -⟩
  · rw [List.any_eq_true.2 ⟨t, tagged, constraint⟩, looks.readable] at unable
    cases unable
  · cases looks.read.symm.trans read
    exact exists_firstInvalid_of_judge judged tagged

/-- What decides a tag in the narrower run is within what decides it in the wider one. -/
theorem exists_decides_within {r' : Report} (builtIn : e.factory = .ofCatalog d)
    (narrower : e.Narrower e') (further : e.FindsLess registryOf h e')
    (done' : (e'.validate h target).answer registryOf = .ok r')
    (looks : e.Looks registryOf h target m v) (tagged : t ∈ m.tags)
    (decides : e.factory.Decides registryOf (e.contextOf h target m t) h v leaf a) :
    ∃ leaf' b, e'.factory.Decides registryOf (e'.contextOf h target m t) h v leaf' b ∧
      a.Within b := by
  have constraint := decides.isConstraint
  obtain ⟨invalid, before, after, leaves, satisfied, said⟩ := decides
  rw [← narrower.factory] at constraint leaves
  have listed : leaf ∈ before ++ leaf :: after := List.mem_append_right _ List.mem_cons_self
  rw [← leaves] at listed
  obtain ⟨b, judged⟩ :=
    exists_firstInvalid_of_looks done' (narrower.looks looks) tagged constraint
  cases invalid' : b.isValid with
  | true =>
      -- All leaves are satisfied in the wider run, and so is this one in the narrower one.
      cases Verdict.isValid_eq_true.1 invalid'
      have said' := firstInvalid_eq_valid_iff.1 judged leaf listed
      have within := within_of_leafVerdict builtIn narrower further said said'
      cases within.invalid invalid
  | false =>
      obtain ⟨before', leaf', after', leaves', satisfied', said'⟩ :=
        (firstInvalid_eq_ok_iff invalid').1 judged
      refine ⟨leaf', b, ⟨invalid', before', after', leaves', satisfied', said'⟩, ?_⟩
      rcases mem_or_eq_or_mem_of_append_eq (leaves.symm.trans leaves') with
        earlier | rfl | later
      · have none := elements_eq_nil_of_satisfied builtIn narrower.factory said
          (satisfied leaf' earlier) said' invalid'
        refine ⟨fun _ => invalid', ?_⟩
        rw [none]
        intro el hel
        cases hel
      · exact within_of_leafVerdict builtIn narrower further said said'
      · have within := within_of_leafVerdict builtIn narrower further said (satisfied' leaf later)
        cases within.invalid invalid

/-- What a run finds that looks at fewer members is found by one that looks at more. -/
theorem Narrower.findings_subset {r r' : Report} (narrower : e.Narrower e')
    (builtIn : e.factory = .ofCatalog d) (done : (e.validate h target).answer registryOf = .ok r)
    (done' : (e'.validate h target).answer registryOf = .ok r') : r.findings ⊆ r'.findings := by
  induction e using wellFounded_nested.induction generalizing e' target r r' with
  | _ e ih =>
      have further : e.FindsLess registryOf h e' := by
        intro below below' nested nested' u s s' ran ran'
        exact ih below nested (narrower.nested nested nested')
          ((alike_of_nested nested).factory.trans builtIn) ran ran'
      rintro ⟨path, name⟩ found
      obtain ⟨m, v, looks, t, tagged, leaf, a, decides, at_path⟩ := (mem_findings_iff done).1 found
      obtain ⟨leaf', b, decides', within⟩ :=
        exists_decides_within builtIn narrower further done' looks tagged decides
      refine (mem_findings_iff done').2
        ⟨m, v, narrower.looks looks, t, tagged, leaf', b, decides', ?_⟩
      rcases at_path with own | ⟨merges, f, hf, path, violated⟩
      · exact Or.inl own
      · obtain ⟨f', hf', same, violated'⟩ := within.found f hf name violated
        refine Or.inr ⟨?_, f', hf', ?_, violated'⟩
        · rw [narrower.catalog]
          exact merges
        · rw [same]
          exact path

end Engine

/-- A run with a stronger filter finds part of what one with a weaker filter finds, or
with none, and whatever it reports is about a member that the filter lets pass. -/
theorem filters_only_hide [PatternEngine] {w : World} {e : Engine} {d : CatalogRef}
    (builtIn : e.factory = .ofCatalog d) {p : MemberPredicate} {target : Value} {r : Report}
    (done : (Query.run w fun h => (e.filtered p).validate h target).1 = .ok r) :
    (∀ (q : MemberPredicate) r', (∀ m, p m = true → q m = true) →
      (Query.run w fun h => (e.filtered q).validate h target).1 = .ok r' →
        r.findings ⊆ r'.findings) ∧
    (∀ r', (Query.run w fun h => e.unfiltered.validate h target).1 = .ok r' →
      r.findings ⊆ r'.findings) ∧
    ∀ el ∈ r.elements, p el.member = true := by
  simp only [Query.run_fst] at done ⊢
  refine ⟨?_, ?_, ?_⟩
  · intro q r' implies done'
    exact (Engine.narrower_filtered implies).findings_subset builtIn done done'
  · intro r' done'
    exact (e.narrower_unfiltered p).findings_subset builtIn done done'
  · exact Engine.accepts_of_mem_elements (e := e.filtered p) builtIn done

/-- Items are to be valid one by one, and then there is to be one at most. -/
def packed : TagDraft :=
  ⟨"packed", [], none,
    [.plain BuiltIn.valids, (TagOf.plain BuiltIn.length).withParam "max" (.int 1)], true⟩

/-- Packs of parts that must have marks. -/
def packs : List Definition :=
  (BuiltIn.drafts ++ [packed]).map .tag ++
    [.type ((TypeDraft.plain "Part").withField
      { Field.plain "mark" .string with tags := [.plain BuiltIn.notNull] }),
     .type ((TypeDraft.plain "Pack").withField
      { Field.plain "parts" (.list (.object "Part")) with tags := [.plain packed.name] })]

def pack : Value := .object ⟨0, "Pack", []⟩

/-- The pack has two parts, and the second has no mark. -/
def packWorld : World :=
  ⟨{ Heap.empty with
      objects := ⟨#[.ofList [("parts", .list ⟨0, .object "Part"⟩)],
        .ofList [("mark", .string "A")], .empty]⟩
      lists := ⟨#[[.object ⟨1, "Part", []⟩, .object ⟨2, "Part", []⟩]]⟩ },
   (Catalogs.empty.add (Builder.empty.declareAll packs).build).2⟩

def packEngine : Engine := .unchecked (.ofCatalog ⟨0⟩) .standard

/-- Where marks are hidden the pack only has too many parts. -/
theorem hidden_mark_is_not_missed :
    ∃ r r', (Query.run packWorld fun h =>
        (packEngine.filtered (.named "parts")).validate h pack).1 = .ok r ∧
      (Query.run packWorld fun h =>
        (packEngine.filtered ((MemberPredicate.named "parts").or (.named "mark"))).validate h
          pack).1 = .ok r' ∧
      ("parts", "packed") ∈ r.findings ∧ ("parts.1.mark", BuiltIn.notNull) ∈ r'.findings ∧
      r.findings ⊆ r'.findings ∧ ∀ el ∈ r.elements, el.member.name = "parts" := by
  have narrow : ∃ r, (Query.run packWorld fun h =>
      (packEngine.filtered (.named "parts")).validate h pack).1 = .ok r ∧
        ("parts", "packed") ∈ r.findings :=
    ⟨_, rfl, _, List.mem_cons_self, rfl, rfl⟩
  have wide : ∃ r', (Query.run packWorld fun h =>
      (packEngine.filtered ((MemberPredicate.named "parts").or (.named "mark"))).validate h
        pack).1 = .ok r' ∧ ("parts.1.mark", BuiltIn.notNull) ∈ r'.findings :=
    ⟨_, rfl, _, List.mem_cons_of_mem _ List.mem_cons_self, rfl, rfl⟩
  obtain ⟨r, done, tooMany⟩ := narrow
  obtain ⟨r', done', missed⟩ := wide
  obtain ⟨less, -, accepted⟩ := filters_only_hide (w := packWorld) (e := packEngine) (d := ⟨0⟩) rfl
    done
  refine ⟨r, r', done, done', tooMany, missed, less _ r' ?_ done', ?_⟩
  · intro m named
    rw [MemberPredicate.or, named, Bool.true_or]
  · intro el hel
    exact beq_iff_eq.1 (accepted el hel)

end Memberwise
