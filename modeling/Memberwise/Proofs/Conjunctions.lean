import Memberwise.Constraint.Engine
import Memberwise.Pattern.Engine
import Memberwise.Proofs.Answers
import Memberwise.Proofs.Leaves
import Memberwise.Proofs.NormalForms

/-!
# Tags as conjunctions

Tags are resolved along a list of definitions, in which each is composed of older ones.
So every part may as well be looked up among all definitions (`Layered.unfold`), and the
way from a tag to its parts comes to an end.  What it ends at are the leaves of the tag
(`Registry.HasLeaves`), which follow from its definition and those of its parts, and a
tag that is resolved is the conjunction of their validators in order
(`composite_tags_conjoin_leaves`).
-/

namespace Memberwise

/-- A tag is composed of another one, by its definition. -/
def Registry.HasPart (r : Registry) (t part : Tag) : Prop :=
  ∃ d, r.tag? t.name = some d ∧ part ∈ d.metaTags

/-- The leaves of a tag: the tag itself if its definition names a validator, and else those
of its parts, one after another. -/
inductive Registry.HasLeaves (r : Registry) : Tag → List Leaf → Prop
  | own {t : Tag} {d : TagDefinition} {id : String} (known : r.tag? t.name = some d)
      (validator : d.validator = some id) : HasLeaves r t [⟨t, id⟩]
  | parts {t : Tag} {d : TagDefinition} {leaves : Tag → List Leaf}
      (known : r.tag? t.name = some d) (none : d.validator = none)
      (each : ∀ part ∈ d.metaTags, HasLeaves r part (leaves part)) :
      HasLeaves r t (d.metaTags.flatMap leaves)

theorem Registry.HasLeaves.unique {r : Registry} {t : Tag} {leaves others : List Leaf}
    (has : r.HasLeaves t leaves) (also : r.HasLeaves t others) : others = leaves := by
  induction has generalizing others with
  | own known validator =>
      cases also with
      | own known' validator' =>
          cases known.symm.trans known'
          cases validator.symm.trans validator'
          rfl
      | parts known' none =>
          cases known.symm.trans known'
          cases validator.symm.trans none
  | parts known none each ih =>
      cases also with
      | own known' validator =>
          cases known.symm.trans known'
          cases validator.symm.trans none
      | parts known' none' each' =>
          cases known.symm.trans known'
          exact List.flatMap_congr fun part hp => ih part hp (each' part hp)

/-! ### Layers of definitions -/

/-- Each definition has a name of its own and is composed of older ones. -/
def Layered : List TagDefinition → Prop
  | [] => True
  | d :: older => Layered older ∧ older.find? (·.name == d.name) = none ∧
      ∀ part ∈ d.metaTags, ∃ e, older.find? (·.name == part.name) = some e

namespace Layered

variable {defs older : List TagDefinition} {d e : TagDefinition} {t part : Tag}

/-- The name of an older definition is not taken again. -/
theorem other_name (layered : Layered (d :: older))
    (known : older.find? (·.name == t.name) = some e) : (d.name == t.name) = false := by
  rw [beq_eq_false_iff_ne]
  intro same
  rw [← same] at known
  cases known.symm.trans layered.2.1

/-- The parts of a tag are known as well. -/
theorem exists_part (layered : Layered defs) (known : defs.find? (·.name == t.name) = some d)
    (hp : part ∈ d.metaTags) : ∃ e, defs.find? (·.name == part.name) = some e := by
  induction defs with
  | nil => cases known
  | cons first older ih =>
      obtain ⟨e, found⟩ : ∃ e, older.find? (·.name == part.name) = some e := by
        rw [List.find?_cons] at known
        cases named : first.name == t.name with
        | true =>
            rw [named] at known
            cases known
            exact layered.2.2 part hp
        | false =>
            rw [named] at known
            exact ih layered.1 known
      exact ⟨e, by rw [List.find?_cons, layered.other_name found, found]⟩

/-- What is found out of a tag from older definitions, by a step from its parts to itself,
may as well be found out from all of them. -/
theorem unfold {α : Type} (find : List TagDefinition → Tag → α)
    (combine : TagDefinition → Tag → (Tag → α) → α)
    (here : ∀ d older t, (d.name == t.name) = true →
      find (d :: older) t = combine d t (find older))
    (skip : ∀ d older t, (d.name == t.name) = false → find (d :: older) t = find older t)
    (local_parts : ∀ d t (φ ψ : Tag → α), (∀ part ∈ d.metaTags, φ part = ψ part) →
      combine d t φ = combine d t ψ)
    (layered : Layered defs) (known : defs.find? (·.name == t.name) = some d) :
    find defs t = combine d t (find defs) := by
  induction defs with
  | nil => cases known
  | cons first older ih =>
      -- An older definition is composed of ones that the newest does not hide.
      have same : ∀ part e, older.find? (·.name == part.name) = some e →
          find older part = find (first :: older) part :=
        fun part e found => (skip first older part (layered.other_name found)).symm
      rw [List.find?_cons] at known
      cases named : first.name == t.name with
      | true =>
          rw [named] at known
          cases known
          rw [here d older t named]
          refine local_parts d t _ _ fun part hp => ?_
          obtain ⟨e, found⟩ := layered.2.2 part hp
          exact same part e found
      | false =>
          rw [named] at known
          rw [skip first older t named, ih layered.1 known]
          refine local_parts d t _ _ fun part hp => ?_
          obtain ⟨e, found⟩ := layered.1.exists_part known hp
          exact same part e found

end Layered

namespace Builder

/-- Definitions are made one upon another. -/
theorem layered_declareAll (ds : List Definition) : Layered (empty.declareAll ds).tags := by
  refine declareAll_induction (P := fun b => Layered b.tags) trivial ?_ ds
  intro b step layered
  rcases b.declare_cases step with ⟨draft, u, -, -, e⟩ | ⟨draft, d, -, made, e⟩ | e | e
  · rw [e]
    exact layered
  · rw [e]
    refine ⟨layered, made.name_eq ▸ made.fresh, ?_⟩
    intro part hp
    obtain ⟨s, -, done⟩ := exists_of_forall₂ (mapM_eq_ok.1 made.metaTags) hp
    obtain ⟨e, params, known, -, -, rfl⟩ := normalize_eq_ok done
    exact ⟨e, (mem_of_tag?_eq_some known).2 ▸ known⟩
  · rw [e]
    exact layered
  · rw [e]
    exact layered

end Builder

namespace Registry

variable {r : Registry} {t : Tag} {d : TagDefinition}

theorem Built.layered (built : r.Built) : Layered r.tags := by
  obtain ⟨ds, rfl⟩ := built
  exact Builder.layered_declareAll ds

/-- Tags that are stored are known. -/
theorem Built.exists_tag?_of_mem_storedTags (built : r.Built) (stored : t ∈ r.storedTags) :
    ∃ d, r.tag? t.name = some d := by
  obtain ⟨ds, rfl⟩ := built
  obtain ⟨d, found, -⟩ := Builder.exists_normal_of_mem_storedTags stored
  exact ⟨d, found⟩

/-- Going from tags to their parts comes to an end. -/
theorem Built.wellFounded_hasPart (built : r.Built) :
    WellFounded fun part t => r.HasPart t part := by
  obtain ⟨ds, rfl⟩ := built
  have settled := Builder.settled_declareAll ds
  -- The numbers of definitions go down; a tag without a definition has no parts.
  let number (t : Tag) := ((Builder.empty.declareAll ds).build.tag? t.name).elim 0 (·.id + 1)
  refine Subrelation.wf (r := InvImage (· < ·) number) ?_ (InvImage.wf number Nat.lt_wfRel.wf)
  rintro part t ⟨d, known, hp⟩
  have stored : d ∈ (Builder.empty.declareAll ds).tags := List.mem_of_find?_eq_some known
  obtain ⟨e, found, -, lt⟩ := settled.parts d stored part hp
  have found : (Builder.empty.declareAll ds).build.tag? part.name = some e := found
  show number part < number t
  simp only [number, known, found, Option.elim_some]
  exact Nat.succ_lt_succ lt

theorem Built.leavesAmong_eq (built : r.Built) (known : r.tag? t.name = some d) :
    leavesAmong r.tags t = match d.validator with
      | some id => [⟨t, id⟩]
      | none => d.metaTags.flatMap (leavesAmong r.tags) := by
  refine Layered.unfold leavesAmong (fun d t leaves =>
    match d.validator with
    | some id => [⟨t, id⟩]
    | none => d.metaTags.flatMap leaves) ?_ ?_ ?_ built.layered known
  · intro d older t named
    exact if_pos named
  · intro d older t other
    exact if_neg (ne_true_of_eq_false other)
  · intro d t φ ψ same
    cases d.validator with
    | some id => rfl
    | none => exact List.flatMap_congr same

/-- Every tag with a definition has leaves. -/
theorem Built.hasLeaves (built : r.Built) (known : r.tag? t.name = some d) :
    r.HasLeaves t (leavesAmong r.tags t) := by
  induction t using built.wellFounded_hasPart.induction generalizing d with
  | _ t ih =>
      rw [built.leavesAmong_eq known]
      cases validator : d.validator with
      | some id => exact .own known validator
      | none =>
          refine .parts known validator fun part hp => ?_
          obtain ⟨e, found⟩ := built.layered.exists_part known hp
          exact ih part ⟨d, known, hp⟩ found

theorem Built.hasLeaves_iff (built : r.Built) (known : r.tag? t.name = some d)
    {leaves : List Leaf} : r.HasLeaves t leaves ↔ leaves = leavesAmong r.tags t := by
  constructor
  · exact (built.hasLeaves known).unique
  · rintro rfl
    exact built.hasLeaves known

end Registry

namespace Factory

variable {registryOf : CatalogRef → Registry} {f : Factory} {ctx : Context} {r : Registry}
  {t : Tag} {d : TagDefinition} {checker : Option Checker}

/-- What a tag resolves to, from what its parts do. -/
def resolution (registryOf : CatalogRef → Registry) (f : Factory) (ctx : Context)
    (d : TagDefinition) (t : Tag) (parts : Tag → Except ConstraintError (Option Checker)) :
    Except ConstraintError (Option Checker) :=
  match d.validator with
  | some id => ((f.construct (ctx.withTag t) id).answer registryOf).map some
  | none =>
    if d.isComposite then (d.metaTags.mapM parts).map fun checkers =>
      some (Rule.all (checkers.filterMap id))
    else .ok none

theorem resolveAmong_withTag (s : Tag) (defs : List TagDefinition) :
    f.resolveAmong (ctx.withTag s) defs t = f.resolveAmong ctx defs t := by
  induction defs generalizing t with
  | nil => rfl
  | cons d older ih =>
      rw [resolveAmong, resolveAmong]
      simp only [ih]
      rfl

theorem mapM_congr {ε α β : Type} {φ ψ : α → Except ε β} {as : List α}
    (same : ∀ a ∈ as, φ a = ψ a) : as.mapM φ = as.mapM ψ := by
  induction as with
  | nil => rfl
  | cons a as ih =>
      obtain ⟨head, tail⟩ := List.forall_mem_cons.1 same
      rw [List.mapM_cons, List.mapM_cons, head, ih tail]

/-- Each part of a known tag is resolved like the tag itself, among all definitions. -/
theorem answer_resolve (built : (registryOf f.catalog).Built)
    (known : (registryOf f.catalog).tag? ctx.tag.name = some d) :
    (f.resolve ctx).answer registryOf =
      f.resolution registryOf ctx d ctx.tag fun part =>
        (f.resolve (ctx.withTag part)).answer registryOf := by
  have parts : (fun part => (f.resolve (ctx.withTag part)).answer registryOf) = fun part =>
      (f.resolveAmong ctx (registryOf f.catalog).tags part).answer registryOf := by
    funext part
    rw [answer_resolve_eq, resolveAmong_withTag]
    rfl
  rw [answer_resolve_eq, parts]
  refine Layered.unfold (fun defs t => (f.resolveAmong ctx defs t).answer registryOf)
    (f.resolution registryOf ctx) ?_ ?_ ?_ built.layered known
  · intro d older t named
    simp only [resolveAmong, named, if_true, resolution]
    cases d.validator with
    | some id => exact Query.answer_bind_pure registryOf _ _
    | none =>
        cases d.isComposite with
        | true =>
            simp only [if_true, Query.answer_bind_pure, Query.answer_mapM]
        | false => rfl
  · intro d older t named
    simp only [resolveAmong, named]
    rfl
  · intro d t φ ψ same
    rw [resolution, resolution, mapM_congr same]

/-- A tag that is resolved is resolved down to its leaves, in the same place. -/
theorem exists_own_of_resolve (built : (registryOf f.catalog).Built) {leaves : List Leaf}
    (has : (registryOf f.catalog).HasLeaves t leaves)
    (resolved : (f.resolve (ctx.withTag t)).answer registryOf = .ok checker) :
    ∀ leaf ∈ leaves, ∃ own : Checker,
      (f.construct (ctx.withTag leaf.tag) leaf.validator).answer registryOf = .ok own ∧
      (f.resolve (ctx.withTag leaf.tag)).answer registryOf = .ok (some own) := by
  induction has generalizing checker with
  | own known validator =>
      intro leaf hl
      cases List.mem_singleton.1 hl
      have unfolded := resolved
      rw [answer_resolve built known, resolution, validator] at unfolded
      obtain ⟨own, made, rfl⟩ := map_eq_ok.1 unfolded
      exact ⟨own, made, resolved⟩
  | @parts t d leaves known none each ih =>
      rw [answer_resolve built known, resolution, none] at resolved
      intro leaf hl
      obtain ⟨part, hp, hl⟩ := List.mem_flatMap.1 hl
      have composite : d.isComposite = true := by
        cases parts : d.metaTags with
        | nil =>
            rw [parts] at hp
            cases hp
        | cons first rest =>
            rw [TagDefinition.isComposite, parts, List.isEmpty_cons, Bool.not_false]
      rw [composite] at resolved
      obtain ⟨checkers, made, -⟩ := map_eq_ok.1 resolved
      obtain ⟨found, -, resolved⟩ := exists_of_forall₂ (mapM_eq_ok.1 made).flip hp
      exact ih part hp resolved leaf hl

/-- A known tag resolves to nothing exactly if it is a mark. -/
theorem answer_resolve_eq_none_iff (built : (registryOf f.catalog).Built)
    (known : (registryOf f.catalog).tag? ctx.tag.name = some d) :
    (f.resolve ctx).answer registryOf = .ok none ↔ d.validator = none ∧ d.metaTags = [] := by
  rw [answer_resolve built known, resolution]
  cases validator : d.validator with
  | some id =>
      refine iff_of_false ?_ ?_
      · intro resolved
        obtain ⟨own, -, same⟩ := map_eq_ok.1 resolved
        cases same
      · rintro ⟨⟨⟩, -⟩
  | none =>
      cases parts : d.metaTags with
      | nil => simp [TagDefinition.isComposite, parts]
      | cons first rest =>
          refine iff_of_false ?_ ?_
          · intro resolved
            rw [TagDefinition.isComposite, parts] at resolved
            obtain ⟨checkers, -, same⟩ := map_eq_ok.1 resolved
            cases same
          · rintro ⟨-, ⟨⟩⟩

/-- A tag stands for its leaves in a context: it resolves to nothing if it is a mark, and else
to a checker that says what the own checkers of the leaves say first that is not valid. -/
structure StandsFor (registryOf : CatalogRef → Registry) (f : Factory) (ctx : Context)
    (leaves : List Leaf) : Prop where
  mark : (f.resolve ctx).answer registryOf = .ok none ↔
    (registryOf f.catalog).isConstraint ctx.tag = false
  own : ∀ checker, (f.resolve ctx).answer registryOf = .ok (some checker) → ∀ leaf ∈ leaves,
    ∃ own, (f.resolve (ctx.withTag leaf.tag)).answer registryOf = .ok (some own) ∧
      ∀ h v, f.leafVerdict registryOf ctx h v leaf = (own h v).answer registryOf
  verdict : ∀ checker, (f.resolve ctx).answer registryOf = .ok (some checker) → ∀ h v,
    (checker h v).answer registryOf = firstInvalid (f.leafVerdict registryOf ctx h v) leaves

theorem standsFor_leavesAmong (built : (registryOf f.catalog).Built)
    (known : (registryOf f.catalog).tag? ctx.tag.name = some d) :
    f.StandsFor registryOf ctx (leavesAmong (registryOf f.catalog).tags ctx.tag) where
  mark := by
    rw [answer_resolve_eq_none_iff built known, Registry.isConstraint, known, Option.any_some,
      TagDefinition.isConstraint, TagDefinition.isComposite]
    simp
  own := by
    intro checker resolved leaf hl
    obtain ⟨own, made, resolved'⟩ :=
      exists_own_of_resolve (t := ctx.tag) built (built.hasLeaves known) resolved leaf hl
    refine ⟨own, resolved', fun h v => ?_⟩
    rw [leafVerdict, made]
    rfl
  verdict := by
    intro checker resolved h v
    exact (f.resolve_eq_ok registryOf ctx h v resolved).1

end Factory

/-- In a registry that was built all stored tags are known, and going from a tag to its parts
ends.  On the way each part of a known tag is resolved like the tag itself, and the tag has
leaves, one list of them, that it stands for in every context: it resolves to nothing if it
has neither a validator nor parts, and else it says what its leaves say, in order. -/
theorem composite_tags_conjoin_leaves {w : World} {f : Factory}
    (built : (w.catalogs.registry f.catalog).Built) :
    let r := w.catalogs.registry f.catalog
    let resolved := fun ctx => (f.resolve ctx).answer w.catalogs.registry
    (∀ t ∈ r.storedTags, ∃ d, r.tag? t.name = some d) ∧
    (WellFounded fun part t => r.HasPart t part) ∧
    ∀ t d, r.tag? t.name = some d →
      (r.isConstraint t = false ↔ d.validator = none ∧ d.metaTags = []) ∧
      (∀ ctx : Context, ctx.tag = t → resolved ctx =
        f.resolution w.catalogs.registry ctx d t fun part => resolved (ctx.withTag part)) ∧
      ∃ leaves, (∀ others, r.HasLeaves t others ↔ others = leaves) ∧
        ∀ ctx : Context, ctx.tag = t → f.StandsFor w.catalogs.registry ctx leaves := by
  intro r resolved
  refine ⟨?_, built.wellFounded_hasPart, ?_⟩
  · exact fun t stored => built.exists_tag?_of_mem_storedTags stored
  · intro t d known
    refine ⟨?_, ?_, leavesAmong r.tags t, ?_, ?_⟩
    · rw [Registry.isConstraint, known, Option.any_some, TagDefinition.isConstraint,
        TagDefinition.isComposite]
      simp
    · rintro ctx rfl
      exact Factory.answer_resolve built known
    · exact fun others => built.hasLeaves_iff known
    · rintro ctx rfl
      exact Factory.standsFor_leavesAmong built known

/-- Names, which are flagged and not empty, and titles, which are names and not null. -/
def naming : List Definition :=
  BuiltIn.drafts.map .tag ++
  [.tag { TagDraft.plain "naming" with metaTags := [.plain BuiltIn.flag, .plain BuiltIn.notEmpty] },
   .tag { TagDraft.plain "title" with metaTags := [.plain BuiltIn.notNull, .plain "naming"] }]

def namingWorld : World :=
  ⟨.empty, (Catalogs.empty.add (Builder.empty.declareAll naming).build).2⟩

def titleContext : Context where
  tag := .plain "title"
  member := none
  target := none
  engine := (Engine.unchecked (.ofCatalog ⟨0⟩) .standard).asRunning .empty
  create := fun _ => pure none

theorem empty_title_fails_at_second_leaf :
    (namingWorld.catalogs.registry ⟨0⟩).HasLeaves (.plain "title")
        [⟨.plain BuiltIn.notNull, BuiltIn.notNull⟩, ⟨.plain BuiltIn.notEmpty, BuiltIn.notEmpty⟩] ∧
      ∃ checker, ((Factory.ofCatalog ⟨0⟩).resolve titleContext).answer
          namingWorld.catalogs.registry = .ok (some checker) ∧
        (checker .empty (.string "")).answer namingWorld.catalogs.registry = .ok .invalid := by
  have built : (namingWorld.catalogs.registry ⟨0⟩).Built := ⟨naming, rfl⟩
  obtain ⟨-, -, known⟩ :=
    composite_tags_conjoin_leaves (w := namingWorld) (f := Factory.ofCatalog ⟨0⟩) built
  obtain ⟨d, found⟩ : ∃ d, (namingWorld.catalogs.registry ⟨0⟩).tag? "title" = some d := ⟨_, rfl⟩
  obtain ⟨-, -, leaves, has, stands⟩ := known (.plain "title") d found
  obtain ⟨-, -, verdict⟩ := stands titleContext rfl
  have listed : leavesAmong (namingWorld.catalogs.registry ⟨0⟩).tags (.plain "title") =
      [⟨.plain BuiltIn.notNull, BuiltIn.notNull⟩, ⟨.plain BuiltIn.notEmpty, BuiltIn.notEmpty⟩] :=
    rfl
  have same : [⟨.plain BuiltIn.notNull, BuiltIn.notNull⟩,
      ⟨.plain BuiltIn.notEmpty, BuiltIn.notEmpty⟩] = leaves :=
    listed ▸ (has _).1 (built.hasLeaves found)
  obtain ⟨checker, resolved⟩ : ∃ checker, ((Factory.ofCatalog ⟨0⟩).resolve titleContext).answer
      namingWorld.catalogs.registry = .ok (some checker) := ⟨_, rfl⟩
  refine ⟨(has _).2 same, checker, resolved, ?_⟩
  rw [verdict checker resolved, ← same]
  rfl

end Memberwise
