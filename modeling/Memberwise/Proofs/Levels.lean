import Memberwise.Proofs.Findings
import Memberwise.Proofs.Refinement

/-!
# Levels

Going down is a run of the engine one level further down, and nothing but the
number of levels left bounds it.  With more levels a run that comes to a report
comes to the same report (`refines_validate`), and from a container from which
one can go down forever no number of levels is enough.
-/

namespace Memberwise

/-- The definition of a tag names a validator. -/
def Registry.Enforces (r : Registry) (t : Tag) (id : String) : Prop :=
  ∃ d, r.tag? t.name = some d ∧ d.validator = some id

namespace Engine

variable {patterns : PatternEngine} {registryOf : CatalogRef → Registry} {h : Heap} {d : CatalogRef}
  {e e' : Engine} {target v : Value} {m : Member} {t : Tag}

/-- The engine with another bound on levels. -/
def within (e : Engine) (max : Nat) : Engine :=
  { e with config := { e.config with maxDepth := max } }

/-- Engines that look at the same members, with the same validators. -/
structure Alike (e e' : Engine) : Prop where
  factory : e'.factory = e.factory
  filter : e'.filter = e.filter
  deep : e'.config.deep = e.config.deep

theorem alike_within (e : Engine) (a b : Nat) : (e.within a).Alike (e.within b) := ⟨rfl, rfl, rfl⟩

theorem config_of_nested {below : Engine} (nested : e.nested = .ok below) :
    below.config = e.config := by
  rw [Engine.nested] at nested
  split at nested
  · cases nested
    rfl
  · cases nested

theorem Alike.trans {e'' : Engine} (first : e.Alike e') (second : e'.Alike e'') : e.Alike e'' where
  factory := second.factory.trans first.factory
  filter := second.filter.trans first.filter
  deep := second.deep.trans first.deep

theorem Alike.symm (alike : e.Alike e') : e'.Alike e :=
  ⟨alike.factory.symm, alike.filter.symm, alike.deep.symm⟩

theorem alike_of_nested {below : Engine} (nested : e.nested = .ok below) : e.Alike below := by
  rw [Engine.nested] at nested
  split at nested
  · cases nested
    exact ⟨rfl, rfl, rfl⟩
  · cases nested

theorem Alike.catalog (alike : e.Alike e') : e'.catalog = e.catalog :=
  congrArg Factory.catalog alike.factory

theorem Alike.accepts (alike : e.Alike e') : e'.accepts = e.accepts := by
  funext m
  rw [Engine.accepts, Engine.accepts, alike.filter]

theorem Alike.looks (alike : e.Alike e') (looks : e.Looks registryOf h target m v) :
    e'.Looks registryOf h target m v where
  listed := by
    rw [alike.catalog, alike.deep]
    exact looks.listed
  accepted := by
    rw [alike.accepts]
    exact looks.accepted
  readable := looks.readable
  read := looks.read

/-- An engine goes down as long as there are levels left. -/
theorem nested_eq_ok (h : 0 < e.levels) : e.nested = .ok { e with depth := e.depth + 1 } := by
  have lt : e.depth < e.config.maxDepth := by
    simp only [levels] at h
    omega
  rw [nested, if_pos lt]

theorem levels_of_nested {below : Engine} (nested : e.nested = .ok below) :
    e.levels = below.levels + 1 := by
  rw [Engine.nested] at nested
  split at nested
  · cases nested
    simp only [levels]
    omega
  · cases nested

theorem wellFounded_nested : WellFounded fun below above : Engine => above.nested = .ok below := by
  refine Subrelation.wf (r := InvImage (· < ·) levels) ?_ (InvImage.wf levels Nat.lt_wfRel.wf)
  intro below above nested
  exact (levels_lt_of_nested nested).1

/-- A run further down is a run of the engine one level further down, and is
refused where that engine is. -/
theorem map_descend (e : Engine) (h : Heap) :
    ((e.asRunning h).descend.map fun run => run h) = e.nested.map fun below => below.validate h := by
  cases left : e.levels with
  | zero =>
      have down : (e.asRunning h).descend = .error (.depthExceeded e.config.maxDepth) := by
        show inner (e.factory.create h) e.levels e e.filter = _
        rw [left]
        rfl
      have refused : ¬ e.depth < e.config.maxDepth := by
        simp only [levels] at left
        omega
      rw [down, nested, if_neg refused]
      rfl
  | succ n =>
      have down : (e.asRunning h).descend = .ok ({ e with depth := e.depth + 1 }.runWith
          (e.factory.create h) (inner (e.factory.create h) n { e with depth := e.depth + 1 })) := by
        show inner (e.factory.create h) e.levels e e.filter = _
        rw [left]
        rfl
      have allowed := nested_eq_ok (e := e) (by omega)
      have levels : ({ e with depth := e.depth + 1 } : Engine).levels = n := by
        have := levels_of_nested allowed
        omega
      rw [down, allowed]
      simp only [Except.map]
      congr 1
      funext target
      rw [validate, levels]

theorem exists_descend {below : Engine} (nested : e.nested = .ok below) :
    ∃ run, (e.asRunning h).descend = .ok run ∧ run h = below.validate h := by
  have same := map_descend e h
  rw [nested] at same
  cases down : (e.asRunning h).descend with
  | error err =>
      rw [down] at same
      cases same
  | ok run =>
      rw [down] at same
      exact ⟨run, rfl, Except.ok.inj same⟩

/-- The second engine has the levels that the first has, or more. -/
structure Outlasts (e e' : Engine) : Prop extends e.Alike e' where
  levels : e.levels ≤ e'.levels

theorem Outlasts.refl (e : Engine) : e.Outlasts e where
  toAlike := ⟨rfl, rfl, rfl⟩
  levels := Nat.le_refl _

theorem outlasts_within {a b : Nat} (le : a ≤ b) : (e.within a).Outlasts (e.within b) where
  toAlike := alike_within e a b
  levels := by
    show a - e.depth ≤ b - e.depth
    omega

/-- An engine has more levels than those that it goes down to. -/
theorem outlasts_of_nested {below : Engine} (nested : e.nested = .ok below) : below.Outlasts e where
  toAlike := (alike_of_nested nested).symm
  levels := Nat.le_of_lt (levels_lt_of_nested nested).1

/-- Where an engine goes down, one that outlasts it goes down too. -/
theorem Outlasts.exists_nested (outlasts : e.Outlasts e') {below : Engine}
    (nested : e.nested = .ok below) : ∃ below', e'.nested = .ok below' ∧ below.Outlasts below' := by
  have less := levels_of_nested nested
  have more := outlasts.levels
  have nested' := nested_eq_ok (e := e') (by omega)
  have alike := alike_of_nested nested
  have alike' := alike_of_nested nested'
  have less' := levels_of_nested nested'
  refine ⟨_, nested', alike.symm.trans (outlasts.toAlike.trans alike'), ?_⟩
  omega

/-- An engine refines to one that outlasts it, if the runs further down do. -/
theorem Outlasts.refines_of_nested (outlasts : e.Outlasts e')
    (further : ∀ below below', e.nested = .ok below → below.Outlasts below' →
      RefinesOn registryOf h below.validate below'.validate) :
    (e.asRunning h).Refines registryOf h (e'.asRunning h) where
  catalog := outlasts.toAlike.catalog
  descend := by
    intro run down
    obtain ⟨below, nested, same⟩ := descend_eq_ok down
    obtain ⟨below', nested', lasts⟩ := outlasts.exists_nested nested
    obtain ⟨run', down', same'⟩ := exists_descend nested'
    refine ⟨run', down', fun v => ?_⟩
    rw [same, same']
    exact further below below' nested lasts v

/-- A report that a run comes to is the same with more levels. -/
theorem refines_validate (builtIn : e.factory = .ofCatalog d) (outlasts : e.Outlasts e') :
    RefinesOn registryOf h e.validate e'.validate := by
  induction e using wellFounded_nested.induction generalizing e' with
  | _ e ih =>
      have running : (e.asRunning h).Refines registryOf h (e'.asRunning h) := by
        refine outlasts.refines_of_nested ?_
        intro below below' nested lasts
        exact ih below nested ((alike_of_nested nested).factory.trans builtIn) lasts
      intro target
      rw [validate, validate, runWith, runWith, outlasts.toAlike.catalog, outlasts.deep,
        outlasts.toAlike.accepts]
      refine (Query.refines_self _).bind_eq fun ms => ?_
      refine (refines_elementsOf builtIn outlasts.factory running target _).bind_eq fun found => ?_
      exact Query.refines_pure rfl

theorem Outlasts.refines_asRunning (outlasts : e.Outlasts e') (builtIn : e.factory = .ofCatalog d) :
    (e.asRunning h).Refines registryOf h (e'.asRunning h) := by
  refine outlasts.refines_of_nested ?_
  intro below below' nested lasts
  exact refines_validate ((alike_of_nested nested).factory.trans builtIn) lasts

/-- The second container is the value of a member of the first on which a tag
stands that makes the engine go down into it. -/
def LeadsTo (registryOf : CatalogRef → Registry) (h : Heap) (e : Engine) (c c' : Value) : Prop :=
  ∃ m t, e.Looks registryOf h c m c' ∧ c'.isContainer = true ∧ t ∈ m.tags ∧
    (registryOf e.catalog).Enforces t BuiltIn.valid

theorem LeadsTo.alike {c c' : Value} (leads : e.LeadsTo registryOf h c c') (alike : e.Alike e') :
    e'.LeadsTo registryOf h c c' := by
  obtain ⟨m, t, looks, container, tagged, enforces⟩ := leads
  refine ⟨m, t, alike.looks looks, container, tagged, ?_⟩
  rw [alike.catalog]
  exact enforces

/-- A tag with a validator is judged by what that validator says. -/
theorem exists_leafVerdict_of_judge {f : Factory} {ctx : Tag → Context} {tags : List Tag}
    {js : List Judgement} (judged : (judge f ctx h v tags).answer registryOf = .ok js)
    (tagged : t ∈ tags) (own : (ctx t).tag = t) {id : String}
    (enforces : (registryOf f.catalog).Enforces t id) :
    ∃ verdict, f.leafVerdict registryOf (ctx t) h v ⟨t, id⟩ = .ok verdict := by
  obtain ⟨definition, found, validator⟩ := enforces
  obtain ⟨verdict, said⟩ := exists_firstInvalid_of_judge judged tagged
  rw [own, Factory.leavesAmong_of_validator found validator, firstInvalid_singleton] at said
  exact ⟨verdict, said⟩

theorem isConstraint_of_enforces {r : Registry} {id : String} (enforces : r.Enforces t id) :
    r.isConstraint t = true := by
  obtain ⟨definition, found, validator⟩ := enforces
  simp [Registry.isConstraint, found, TagDefinition.isConstraint, validator]

/-- A run that comes to a report has gone down wherever a container leads to another. -/
theorem exists_nested_of_leadsTo {c c' : Value} {r : Report} (builtIn : e.factory = .ofCatalog d)
    (leads : e.LeadsTo registryOf h c c') (done : (e.validate h c).answer registryOf = .ok r) :
    ∃ below r', e.nested = .ok below ∧ (below.validate h c').answer registryOf = .ok r' := by
  obtain ⟨m, t, looks, container, tagged, enforces⟩ := leads
  obtain ⟨ms, parts, listed, hparts, -⟩ := validate_eq_ok done
  obtain ⟨part, -, here⟩ := looks.exists_part listed hparts
  rcases memberElements_eq_ok here with ⟨unable, -⟩ | ⟨-, v, js, read, judged, -⟩
  · have constraint : m.tags.any (registryOf e.catalog).isConstraint = true :=
      List.any_eq_true.2 ⟨t, tagged, isConstraint_of_enforces enforces⟩
    rw [constraint, looks.readable] at unable
    cases unable
  · cases looks.read.symm.trans read
    obtain ⟨verdict, spoken⟩ := exists_leafVerdict_of_judge judged tagged rfl enforces
    rw [builtIn] at spoken
    have said := Factory.valid_of_leafVerdict spoken rfl
    obtain ⟨below, r', nested, done', -⟩ := valid_container_eq_ok container said
    exact ⟨below, r', nested, done'⟩

/-- From a container from which one can go down forever no run comes to a report. -/
theorem validate_ne_ok_of_chain (builtIn : e.factory = .ofCatalog d) (chain : Nat → Value)
    (leads : ∀ i, e.LeadsTo registryOf h (chain i) (chain (i + 1))) (r : Report) :
    (e.validate h (chain 0)).answer registryOf ≠ .ok r := by
  induction e using wellFounded_nested.induction generalizing chain r with
  | _ e ih =>
      intro done
      -- A report here needs one below, on the rest of the chain.
      obtain ⟨below, r', nested, done'⟩ := exists_nested_of_leadsTo builtIn (leads 0) done
      have alike := alike_of_nested nested
      refine ih below nested (alike.factory.trans builtIn) (fun i => chain (i + 1)) ?_ r'
        done'
      intro i
      exact (leads (i + 1)).alike alike

end Engine

/-- Every run ends.  Further runs are runs of the nested engine, of which there
are finitely many in a row; a report is the same under every greater bound; and
where one can go down forever, a run ends with an error under every bound. -/
theorem runs_end_and_bounds_only_cut [PatternEngine] {w : World} {e : Engine} {d : CatalogRef}
    (builtIn : e.factory = .ofCatalog d) (target : Value) :
    (WellFounded fun below above : Engine => above.nested = .ok below) ∧
    ((e.asRunning w.heap).descend.map fun run => run w.heap) =
      (e.nested.map fun below => below.validate w.heap) ∧
    (∀ max r, (Query.run w fun h => (e.within max).validate h target).1 = .ok r →
      ∀ max', max ≤ max' → (Query.run w fun h => (e.within max').validate h target).1 = .ok r) ∧
    (∀ chain : Nat → Value, chain 0 = target →
      (∀ i, e.LeadsTo w.catalogs.registry w.heap (chain i) (chain (i + 1))) →
      ∀ max, ∃ err, (Query.run w fun h => (e.within max).validate h target).1 = .error err) := by
  refine ⟨Engine.wellFounded_nested, Engine.map_descend e w.heap, ?_, ?_⟩
  · intro max r done max' le
    rw [Query.run_fst] at done ⊢
    obtain ⟨r', done', rfl⟩ := Engine.refines_validate (e := e.within max) builtIn
      (Engine.outlasts_within le) target r done
    exact done'
  · rintro chain rfl leads max
    rw [Query.run_fst]
    cases done : ((e.within max).validate w.heap (chain 0)).answer w.catalogs.registry with
    | error err => exact ⟨err, rfl⟩
    | ok r =>
        refine absurd done (Engine.validate_ne_ok_of_chain (e := e.within max) builtIn chain ?_ r)
        intro i
        exact (leads i).alike ⟨rfl, rfl, rfl⟩

/-- Nodes with a name, and with a next node that is to be valid. -/
def links : List Definition :=
  BuiltIn.drafts.map .tag ++
    [.type (((TypeDraft.plain "Node").withField
      { Field.plain "name" .string with tags := [.plain BuiltIn.notNull] }).withField
      { Field.plain "next" (.object "Node") with tags := [.plain BuiltIn.valid] })]

def node (id : Nat) : Value := .object ⟨id, "Node", []⟩

/-- The first node is the next one of itself, the second has the third. -/
def linkWorld : World :=
  ⟨{ Heap.empty with objects := ⟨#[.ofList [("next", node 0)], .ofList [("next", node 2)], .empty]⟩ },
   (Catalogs.empty.add (Builder.empty.declareAll links).build).2⟩

/-- The next node of a node. -/
def nextNode (id : Nat) : Member :=
  .ofTemplate ((Declarations.along ((linkWorld.catalogs.registry ⟨0⟩).lineage "Node")
    "next").merge "next") (some (node id))

def linkEngine : Engine := .unchecked (.ofCatalog ⟨0⟩) .standard

/-- The node that follows itself is never reported on; the one that is followed
by a last one is, under every bound from one on. -/
theorem node_after_itself_is_refused :
    (∀ max, ∃ err, (Query.run linkWorld fun h => (linkEngine.within max).validate h (node 0)).1 =
      .error err) ∧
    ∃ r, ("next.name", BuiltIn.notNull) ∈ r.findings ∧ ∀ max, 1 ≤ max →
      (Query.run linkWorld fun h => (linkEngine.within max).validate h (node 1)).1 = .ok r := by
  constructor
  · obtain ⟨-, -, -, endless⟩ :=
      runs_end_and_bounds_only_cut (w := linkWorld) (e := linkEngine) rfl (node 0)
    refine endless (fun _ => node 0) rfl ?_
    intro i
    refine ⟨nextNode 0, .plain BuiltIn.valid, ⟨⟨_, rfl, ?_⟩, rfl, rfl, rfl⟩, rfl, ?_, _, rfl, rfl⟩
    · exact List.mem_cons_of_mem _ List.mem_cons_self
    · exact List.mem_cons_self
  · obtain ⟨-, -, stable, -⟩ :=
      runs_end_and_bounds_only_cut (w := linkWorld) (e := linkEngine) rfl (node 1)
    have reported : ∃ r, (Query.run linkWorld fun h =>
        (linkEngine.within 1).validate h (node 1)).1 = .ok r ∧
          ("next.name", BuiltIn.notNull) ∈ r.findings :=
      ⟨_, rfl, _, List.mem_cons_of_mem _ (List.mem_cons_of_mem _ List.mem_cons_self), rfl, rfl⟩
    obtain ⟨r, done, found⟩ := reported
    exact ⟨r, found, stable 1 r done⟩

end Memberwise
