import Memberwise.Proofs.Construction
import Memberwise.Proofs.NormalForms
import Memberwise.Proofs.Refinement

/-!
# Tags that pass and cannot be resolved

What is checked of a tag is whether its validators support a type, and for patterns the
tag itself.  A numeric bound is built from a parameter that nobody has looked at.  So
a tag that passed is resolved exactly if all bounds that it comes down to state their
limit, and otherwise the first one without it is what fails
(`Factory.limitedBy_resolveAmong`).  Tags that a registry stores have the parameters of
their definitions, and state a limit as soon as those declare one.
-/

namespace Memberwise

/-- A bound states its limit; nothing is asked of other validators. -/
def Leaf.isLimited (leaf : Leaf) : Bool :=
  !(leaf.validator == BuiltIn.min || leaf.validator == BuiltIn.max) ||
    (leaf.tag.number? "value").isSome

/-- The definition declares a numeric limit, which is not null if it is left out. -/
def TagDefinition.DeclaresLimit (d : TagDefinition) : Prop :=
  ∃ p ∈ d.params, p.name = "value" ∧ (p.type = .int ∨ p.type = .float) ∧
    p.default ≠ some .null

/-- What comes of leaves: a result if all of them are limited, and else a complaint about
the first one that is not. -/
def LimitedBy {α : Type} (leaves : List Leaf) (outcome : Except ConstraintError α) : Prop :=
  match leaves.find? (!·.isLimited) with
  | none => ∃ a, outcome = .ok a
  | some leaf => outcome = .error (.missingParam leaf.tag.name "value")

namespace LimitedBy

variable {α β : Type} {leaves : List Leaf} {outcome : Except ConstraintError α}

theorem of_ok {a : α} (done : outcome = .ok a) : LimitedBy [] outcome :=
  ⟨a, done⟩

theorem exists_ok_iff (limited : LimitedBy leaves outcome) :
    (∃ a, outcome = .ok a) ↔ ∀ leaf ∈ leaves, leaf.isLimited = true := by
  rw [LimitedBy] at limited
  cases found : leaves.find? (!·.isLimited) with
  | none =>
      rw [found] at limited
      simp only [List.find?_eq_none, Bool.not_eq_true, Bool.not_eq_false'] at found
      exact iff_of_true limited found
  | some leaf =>
      rw [found] at limited
      refine iff_of_false ?_ ?_
      · rintro ⟨a, done⟩
        cases done.symm.trans limited
      · intro all
        have unlimited := List.find?_some found
        rw [all leaf (List.mem_of_find?_eq_some found)] at unlimited
        cases unlimited

theorem eq_error (limited : LimitedBy leaves outcome) {leaf : Leaf}
    (first : leaves.find? (!·.isLimited) = some leaf) :
    outcome = .error (.missingParam leaf.tag.name "value") := by
  rwa [LimitedBy, first] at limited

/-- One thing after another goes by the leaves of both. -/
theorem bind {others : List Leaf} {next : α → Except ConstraintError β}
    (limited : LimitedBy leaves outcome) (rest : ∀ a, LimitedBy others (next a)) :
    LimitedBy (leaves ++ others) (outcome.bind next) := by
  rw [LimitedBy] at limited ⊢
  rw [List.find?_append]
  cases found : leaves.find? (!·.isLimited) with
  | none =>
      rw [found] at limited
      obtain ⟨a, rfl⟩ := limited
      exact rest a
  | some leaf =>
      rw [found] at limited
      rw [limited]
      rfl

theorem bind_pure (limited : LimitedBy leaves outcome) (f : α → β) :
    LimitedBy leaves (outcome.bind fun a => .ok (f a)) :=
  List.append_nil leaves ▸ limited.bind fun _ => of_ok rfl

theorem mapM {as : List β} {leavesOf : β → List Leaf} {f : β → Except ConstraintError α}
    (each : ∀ a ∈ as, LimitedBy (leavesOf a) (f a)) :
    LimitedBy (as.flatMap leavesOf) (as.mapM f) := by
  induction as with
  | nil => exact of_ok rfl
  | cons a as ih =>
      obtain ⟨here, later⟩ := List.forall_mem_cons.1 each
      rw [List.mapM_cons, List.flatMap_cons]
      exact here.bind fun b => (ih later).bind_pure (b :: ·)

end LimitedBy

section Resolving

variable {patterns : PatternEngine} {registryOf : CatalogRef → Registry} {d : CatalogRef}
  {ctx : Context}

theorem Rule.limitedBy_bound (kind : BoundKind) :
    LimitedBy [⟨ctx.tag, kind.name⟩] (((bound kind).build ctx).answer registryOf) := by
  have asked : Leaf.isLimited ⟨ctx.tag, kind.name⟩ = (ctx.tag.number? "value").isSome := by
    cases kind with
    | min => rfl
    | max => rfl
  show LimitedBy _ ((Bound.ofTag kind ctx.tag).map (·.checker))
  rw [LimitedBy, List.find?_singleton, asked, Bound.ofTag]
  cases ctx.tag.number? "value" with
  | none => rfl
  | some limit => exact ⟨_, rfl⟩

/-- Built-in validators other than bounds are built for each tag that they accept. -/
theorem Rule.limitedBy_build {id : String} {r : Registration} (registered : (id, r) ∈ builtIn)
    (accepted : ∀ check ∈ r.checkTag, check ctx.tag = .ok ()) :
    LimitedBy [⟨ctx.tag, id⟩] ((r.build ctx).answer registryOf) := by
  simp only [builtIn, List.mem_cons, List.not_mem_nil, or_false, Prod.mk.injEq] at registered
  rcases registered with ⟨rfl, rfl⟩ | ⟨rfl, rfl⟩ | ⟨rfl, rfl⟩ | ⟨rfl, rfl⟩ | ⟨rfl, rfl⟩ |
    ⟨rfl, rfl⟩ | ⟨rfl, rfl⟩ | ⟨rfl, rfl⟩
  · exact ⟨_, rfl⟩
  · exact ⟨_, rfl⟩
  · exact limitedBy_bound .min
  · exact limitedBy_bound .max
  · exact ⟨_, rfl⟩
  · have readable : (patternOfTag ctx.tag).map (fun _ => ()) = .ok () := accepted _ rfl
    obtain ⟨p, read, -⟩ := map_eq_ok.1 readable
    exact ⟨matching p, map_eq_ok.2 ⟨p, read, rfl⟩⟩
  · exact ⟨_, rfl⟩
  · exact ⟨_, rfl⟩

namespace Factory

/-- What becomes of a tag that passed, in whatever context. -/
theorem limitedBy_resolveAmong {defs : List TagDefinition} {t : Tag} {name : String}
    {type : ValueType} (passed : (ofCatalog d).checkAmong name type defs t = .ok ()) :
    LimitedBy (leavesAmong defs t)
      (((ofCatalog d).resolveAmong ctx defs t).answer registryOf) := by
  -- Along the definitions: the check, the leaves and the checker all go on to the same
  -- parts among older ones.
  induction defs generalizing t with
  | nil => cases passed
  | cons def' older ih =>
      rw [checkAmong] at passed
      rw [leavesAmong, resolveAmong]
      cases named : def'.name == t.name with
      | false =>
          rw [named] at passed
          exact ih passed
      | true =>
          simp only [named, if_true] at passed ⊢
          cases validated : def'.validator with
          | some id =>
              simp only [validated, registration] at passed ⊢
              cases found : (ofCatalog d).registrations.get? id with
              | none =>
                  rw [found] at passed
                  cases passed
              | some r =>
                  rw [found] at passed
                  have accepted : ∀ check ∈ r.checkTag, check (ctx.withTag t).tag = .ok () :=
                    ((enforceable_iff found).1 passed r found).2
                  rw [Query.answer_bind, construct_ofCatalog found]
                  exact (Rule.limitedBy_build (mem_builtIn_of_get? found) accepted).bind_pure some
          | none =>
              simp only [validated, forM_eq_ok] at passed ⊢
              cases composite : def'.isComposite with
              | false =>
                  have mark : def'.metaTags = [] := by
                    simpa [TagDefinition.isComposite] using composite
                  rw [mark]
                  exact .of_ok rfl
              | true =>
                  simp only [if_true]
                  rw [Query.answer_bind, Query.answer_mapM]
                  exact (LimitedBy.mapM fun part hp => ih (passed part hp)).bind_pure _

theorem limitedBy_resolve {name : String} {type : ValueType}
    (passed : (ofCatalog d).check (registryOf d) ctx.tag name type = .ok ()) :
    LimitedBy (leavesAmong (registryOf d).tags ctx.tag)
      (((ofCatalog d).resolve ctx).answer registryOf) :=
  limitedBy_resolveAmong passed

/-- Outside of runs there are always enough steps for one checker. -/
theorem limitedBy_create {t : Tag} {name : String} {type : ValueType}
    (passed : (ofCatalog d).check (registryOf d) t name type = .ok ()) (h : Heap) :
    LimitedBy (leavesAmong (registryOf d).tags t)
      (((ofCatalog d).create h t).answer registryOf) := by
  have steps : (((registryOf d).tags.length + 1) * (h.size + 2)) =
      ((registryOf d).tags.length + 1) * (h.size + 1) + (registryOf d).tags.length + 1 :=
    Nat.mul_succ _ (h.size + 1)
  show LimitedBy _ (((ofCatalog d).createWithin
    (((registryOf d).tags.length + 1) * (h.size + 2)) t).answer registryOf)
  rw [steps]
  exact limitedBy_resolveAmong passed

end Factory

end Resolving

/-! Stored tags. -/

namespace Builder

/-- No two tags have one name, and defaults fit their parameters. -/
structure Named (b : Builder) : Prop where
  names : (b.tags.map (·.name)).Nodup
  defaults : ∀ d ∈ b.tags, ∀ p ∈ d.params, ∀ v, p.default = some v → p.type.accepts v = true

theorem accepts_of_checkDefault {tag : String} {p : TagParameter}
    (checked : checkDefault tag p = .ok ()) {v : Value} (default : p.default = some v) :
    p.type.accepts v = true := by
  rw [checkDefault, default] at checked
  cases fits : p.type.accepts v with
  | true => rfl
  | false =>
      simp only [fits] at checked
      cases checked

theorem named_declareAll (ds : List Definition) : (empty.declareAll ds).Named := by
  refine declareAll_induction ⟨List.nodup_nil, by simp [empty]⟩ ?_ ds
  intro b step all
  rcases b.declare_cases step with ⟨draft, d, -, -, e⟩ | ⟨draft, d, -, made, e⟩ | e | e
  · rw [e]
    exact ⟨all.names, all.defaults⟩
  · rw [e]
    constructor
    · refine List.nodup_cons.2 ⟨?_, all.names⟩
      intro taken
      obtain ⟨other, hother, same⟩ := List.mem_map.1 taken
      have free := List.find?_eq_none.1 made.fresh other hother
      have taken : other.name = draft.name := same.trans made.name_eq
      rw [taken, beq_self_eq_true] at free
      exact free rfl
    · intro d' hd'
      rcases List.mem_cons.1 hd' with rfl | hd'
      · intro p hp v default
        rw [made.params_eq] at hp
        exact accepts_of_checkDefault (forM_eq_ok.1 made.defaults p hp) default
      · exact all.defaults d' hd'
  · rw [e]
    exact ⟨all.names, all.defaults⟩
  · rw [e]
    exact ⟨all.names, all.defaults⟩

end Builder

/-- A leaf stands on a tag itself or among the parts of another one, and its validator is
that of its definition. -/
theorem exists_definition_of_leaf {defs : List TagDefinition} {t : Tag} {leaf : Leaf}
    (hl : leaf ∈ leavesAmong defs t) :
    (∃ d ∈ defs, d.name = leaf.tag.name ∧ d.validator = some leaf.validator) ∧
      (leaf.tag = t ∨ ∃ e ∈ defs, leaf.tag ∈ e.metaTags) := by
  induction defs generalizing t with
  | nil => cases hl
  | cons d older ih =>
      have further : ∀ {t'}, leaf ∈ leavesAmong older t' →
          (∃ d' ∈ d :: older, d'.name = leaf.tag.name ∧ d'.validator = some leaf.validator) ∧
            (leaf.tag = t' ∨ ∃ e ∈ d :: older, leaf.tag ∈ e.metaTags) := by
        intro t' hl'
        obtain ⟨⟨d', hd', defines⟩, stands⟩ := ih hl'
        refine ⟨⟨d', List.mem_cons_of_mem _ hd', defines⟩, stands.imp_right ?_⟩
        rintro ⟨e, he, part⟩
        exact ⟨e, List.mem_cons_of_mem _ he, part⟩
      rw [leavesAmong] at hl
      cases named : d.name == t.name with
      | false =>
          simp only [named] at hl
          exact further hl
      | true =>
          simp only [named, if_true] at hl
          cases validated : d.validator with
          | some id =>
              simp only [validated, List.mem_singleton] at hl
              subst hl
              exact ⟨⟨d, List.mem_cons_self, by simpa using named, validated⟩, Or.inl rfl⟩
          | none =>
              simp only [validated] at hl
              obtain ⟨part, hp, hl⟩ := List.mem_flatMap.1 hl
              obtain ⟨defines, rfl | stands⟩ := further hl
              · exact ⟨defines, Or.inr ⟨d, List.mem_cons_self, hp⟩⟩
              · exact ⟨defines, Or.inr stands⟩

/-- What fits a numeric type is a number or null. -/
theorem isSome_asNumber_of_accepts {type : ValueType} {v : Value}
    (numeric : type = .int ∨ type = .float) (fits : type.accepts v = true) (given : v ≠ .null) :
    v.asNumber.isSome = true := by
  rcases numeric with rfl | rfl
  · cases v with
    | null => exact absurd rfl given
    | int i => rfl
    | _ => cases fits
  · cases v with
    | null => exact absurd rfl given
    | int i => rfl
    | float f => rfl
    | _ => cases fits

/-- A tag in normal form states the limit that its definition declares. -/
theorem TagDefinition.IsNormal.isSome_number? {d : TagDefinition} {t : Tag}
    (normal : d.IsNormal t) (declares : d.DeclaresLimit)
    (defaults : ∀ p ∈ d.params, ∀ v, p.default = some v → p.type.accepts v = true) :
    (t.number? "value").isSome = true := by
  obtain ⟨p, hp, name, numeric, notNull⟩ := declares
  obtain ⟨v, given, source⟩ := normal.values p hp
  rw [name] at given
  rw [TagOf.number?, given]
  rcases source with ⟨null, fits⟩ | default
  · refine isSome_asNumber_of_accepts numeric fits ?_
    rintro rfl
    cases null
  · refine isSome_asNumber_of_accepts numeric (defaults p hp v default) ?_
    rintro rfl
    exact notNull default

/-- Where all definitions with a bound declare a limit, stored tags state theirs. -/
theorem Registry.Built.isLimited_of_declaresLimit {r : Registry} (built : r.Built)
    (declare : ∀ d ∈ r.tags, d.validator = some BuiltIn.min ∨ d.validator = some BuiltIn.max →
      d.DeclaresLimit) {t : Tag} (stored : t ∈ r.storedTags) :
    ∀ leaf ∈ leavesAmong r.tags t, leaf.isLimited = true := by
  obtain ⟨ds, rfl⟩ := built
  have named := Builder.named_declareAll ds
  intro leaf hl
  obtain ⟨⟨d, hd, name, validator⟩, stands⟩ := exists_definition_of_leaf hl
  by_cases bound : leaf.validator = BuiltIn.min ∨ leaf.validator = BuiltIn.max
  · have kept : leaf.tag ∈ (Builder.empty.declareAll ds).build.storedTags := by
      rcases stands with same | ⟨e, he, part⟩
      · exact same ▸ stored
      · exact List.mem_append_right _ (List.mem_flatMap.2 ⟨e, he, part⟩)
    obtain ⟨d', found, isNormal⟩ := Builder.exists_normal_of_mem_storedTags kept
    obtain ⟨hd', name'⟩ := Builder.mem_of_tag?_eq_some (b := Builder.empty.declareAll ds) found
    have same : d' = d := List.inj_on_of_nodup_map named.names hd' hd (name'.trans name.symm)
    subst same
    have declared : d'.DeclaresLimit :=
      declare d' hd (bound.imp (validator.trans <| congrArg some ·)
        (validator.trans <| congrArg some ·))
    have stated := isNormal.isSome_number? declared (named.defaults d' hd)
    rw [Leaf.isLimited, stated, Bool.or_true]
  · have other : (leaf.validator == BuiltIn.min || leaf.validator == BuiltIn.max) = false := by
      simpa using bound
    rw [Leaf.isLimited, other]
    rfl

/-- A tag that passed on some member is resolved, in every context and outside of runs,
exactly if all bounds that it comes down to state their limit; otherwise the first one
without it is missed.  Stored tags state the limits that their definitions declare. -/
theorem passed_tag_resolves_iff_limited [PatternEngine] {w : World} {d : CatalogRef}
    (built : (w.catalogs.registry d).Built) {t : Tag} {name : String} {type : ValueType}
    (passed : (Factory.ofCatalog d).check (w.catalogs.registry d) t name type = .ok ()) :
    let r := w.catalogs.registry d
    let leaves := leavesAmong r.tags t
    let resolved := fun ctx => (Query.run w fun _ => (Factory.ofCatalog d).resolve ctx).1
    let created := (Query.run w fun h => (Factory.ofCatalog d).create h t).1
    (∀ ctx, ctx.tag = t →
      ((∃ checker, resolved ctx = .ok checker) ↔ ∀ leaf ∈ leaves, leaf.isLimited = true)) ∧
    ((∃ checker, created = .ok checker) ↔ ∀ leaf ∈ leaves, leaf.isLimited = true) ∧
    (∀ leaf, leaves.find? (!·.isLimited) = some leaf →
      (∀ ctx, ctx.tag = t → resolved ctx = .error (.missingParam leaf.tag.name "value")) ∧
        created = .error (.missingParam leaf.tag.name "value")) ∧
    (t ∈ r.storedTags →
      (∀ e ∈ r.tags, e.validator = some BuiltIn.min ∨ e.validator = some BuiltIn.max →
        e.DeclaresLimit) →
      ∀ leaf ∈ leaves, leaf.isLimited = true) := by
  intro r leaves resolved created
  have inContext : ∀ ctx, ctx.tag = t → LimitedBy leaves (resolved ctx) := by
    rintro ctx rfl
    show LimitedBy leaves (Query.run w fun _ => (Factory.ofCatalog d).resolve ctx).1
    rw [Query.run_fst]
    exact Factory.limitedBy_resolve passed
  have outside : LimitedBy leaves created := by
    show LimitedBy leaves (Query.run w fun h => (Factory.ofCatalog d).create h t).1
    rw [Query.run_fst]
    exact Factory.limitedBy_create passed w.heap
  refine ⟨fun ctx own => (inContext ctx own).exists_ok_iff, outside.exists_ok_iff, ?_, ?_⟩
  · intro leaf first
    exact ⟨fun ctx own => (inContext ctx own).eq_error first, outside.eq_error first⟩
  · exact fun stored declare => built.isLimited_of_declaresLimit declare stored

/-- Grades from one to six, as a tag composed of two bounds, and a bound without a limit. -/
def grading : List Definition :=
  BuiltIn.drafts.map .tag ++
  [.tag { TagDraft.plain "grade" with
      metaTags := [(TagOf.plain BuiltIn.min).withParam "value" (.int 1),
        (TagOf.plain BuiltIn.max).withParam "value" (.int 6)] },
   .tag { TagDraft.plain "floor" with validator := some BuiltIn.min },
   .type ((TypeDraft.plain "Exam").withField ⟨"mark", .int, [.plain "grade"], false, none, false⟩),
   .type ((TypeDraft.plain "Item").withField ⟨"n", .int, [.plain "floor"], false, none, false⟩)]

def gradingWorld : World :=
  ⟨.empty, (Catalogs.empty.add (Builder.empty.declareAll grading).build).2⟩

theorem grade_of_exam_resolves :
    TagOf.plain "grade" ∈ (gradingWorld.catalogs.registry ⟨0⟩).storedTags ∧
      ∃ checker, (Query.run gradingWorld fun h =>
        (Factory.ofCatalog ⟨0⟩).create h (.plain "grade")).1 = .ok checker := by
  have built : (gradingWorld.catalogs.registry ⟨0⟩).Built := Registry.built_build grading
  have passed : (Factory.ofCatalog ⟨0⟩).check (gradingWorld.catalogs.registry ⟨0⟩)
    (.plain "grade") "mark" .int = .ok () := rfl
  obtain ⟨-, outside, -⟩ := passed_tag_resolves_iff_limited built passed
  exact ⟨List.mem_append_left _ (List.mem_cons_of_mem _ List.mem_cons_self), outside.2 (by decide)⟩

/-- A tag passes, so that the engine is made, and then cannot be resolved in any
context, nor outside of runs. -/
theorem floor_of_item_passes_and_cannot_be_resolved :
    let r := gradingWorld.catalogs.registry ⟨0⟩
    let f := Factory.ofCatalog ⟨0⟩
    r.Built ∧ TagOf.plain "floor" ∈ r.storedTags ∧
      f.check r (.plain "floor") "n" .int = .ok () ∧
      (Query.run gradingWorld fun _ => Engine.withConfig f .standard).1 =
        .ok (.unchecked f .standard) ∧
      (∀ ctx : Context, ctx.tag = .plain "floor" →
        (Query.run gradingWorld fun _ => f.resolve ctx).1 =
          .error (.missingParam "floor" "value")) ∧
      (Query.run gradingWorld fun h => f.create h (.plain "floor")).1 =
        .error (.missingParam "floor" "value") := by
  intro r f
  refine ⟨Registry.built_build grading, List.mem_append_left _ List.mem_cons_self, rfl, rfl, ?_,
    rfl⟩
  intro ctx own
  have passed : f.check r ctx.tag "n" .int = .ok () := by
    rw [own]
    rfl
  have limited : LimitedBy (leavesAmong r.tags ctx.tag)
      ((f.resolve ctx).answer gradingWorld.catalogs.registry) := Factory.limitedBy_resolve passed
  have first : (leavesAmong r.tags ctx.tag).find? (!·.isLimited) =
      some ⟨.plain "floor", BuiltIn.min⟩ := by
    rw [own]
    rfl
  exact (Query.run_fst gradingWorld _).trans (limited.eq_error first)

end Memberwise
