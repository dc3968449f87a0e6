import Memberwise.Proofs.Failures
import Memberwise.Proofs.Walks

/-!
# Where findings stand

Every element of a report stands at the end of a walk from the container that is
validated, and its violated tags are those that the engine itself finds violated
there (`located_of_mem_elements`).  So its path leads back: a selector finds a
member under it with the value that is reported, and validating that member alone
reports the same tags under the same path (`paths_lead_back`).
-/

namespace Memberwise

/-- All leaves before one find the value valid, so that its validator is asked. -/
def Factory.Asks (registryOf : CatalogRef → Registry) (f : Factory) (ctx : Context) (h : Heap)
    (v : Value) (leaf : Leaf) : Prop :=
  ∃ before after, leavesAmong (registryOf f.catalog).tags ctx.tag = before ++ leaf :: after ∧
    ∀ l ∈ before, f.leafVerdict registryOf ctx h v l = .ok .valid

theorem Factory.Decides.asks {registryOf : CatalogRef → Registry} {f : Factory} {ctx : Context}
    {h : Heap} {v : Value} {leaf : Leaf} {verdict : Verdict}
    (decides : f.Decides registryOf ctx h v leaf verdict) : f.Asks registryOf ctx h v leaf := by
  obtain ⟨-, before, after, leaves, valid, -⟩ := decides
  exact ⟨before, after, leaves, valid⟩

namespace Engine

section Reaching

variable (registryOf : CatalogRef → Registry) (h : Heap)

/-- A run comes to a member or an item of some name. -/
inductive Reaches : Engine → Value → String → Prop
  /-- The run looks at a member. -/
  | member {e : Engine} {target v : Value} {m : Member}
      (looks : e.Looks registryOf h target m v) : Reaches e target m.name
  /-- The run goes down into the value of a member. -/
  | valid {e below : Engine} {target v : Value} {m : Member} {t : Tag} {leaf : Leaf} {name : String}
      (looks : e.Looks registryOf h target m v) (tagged : t ∈ m.tags)
      (asks : e.factory.Asks registryOf (e.contextOf h target m t) h v leaf)
      (validator : leaf.validator = BuiltIn.valid) (nested : e.nested = .ok below)
      (further : Reaches below v name) : Reaches e target name
  /-- The run goes over the items of the value of a member. -/
  | item {e : Engine} {target v : Value} {m : Member} {t : Tag} {leaf : Leaf} {items : List Member}
      {item : Member} (looks : e.Looks registryOf h target m v) (tagged : t ∈ m.tags)
      (asks : e.factory.Asks registryOf (e.contextOf h target m t) h v leaf)
      (validator : leaf.validator = BuiltIn.valids) (iterates : v.iterates = true)
      (itemized : (e.catalog.membersOf h v false).answer registryOf = .ok items)
      (listed : item ∈ items) : Reaches e target item.name
  /-- The run goes down into the value of an item. -/
  | valids {e below : Engine} {target v w : Value} {m : Member} {t : Tag} {leaf : Leaf}
      {items : List Member} {item : Member} {name : String}
      (looks : e.Looks registryOf h target m v) (tagged : t ∈ m.tags)
      (asks : e.factory.Asks registryOf (e.contextOf h target m t) h v leaf)
      (validator : leaf.validator = BuiltIn.valids) (iterates : v.iterates = true)
      (itemized : (e.catalog.membersOf h v false).answer registryOf = .ok items)
      (listed : item ∈ items) (read : (item.read h).answer registryOf = .ok w)
      (nested : e.nested = .ok below) (further : Reaches below w name) : Reaches e target name

/-- A tag in no particular place. -/
def contextAt (e : Engine) (t : Tag) : Context :=
  ⟨t, none, none, e.asRunning h, e.factory.create h⟩

/-- An element stands at the end of a walk along names without dots, where the
engine judges its value and finds its tags violated. -/
structure Stands (e : Engine) (target : Value) (el : InvalidElement) (names : List String)
    (owner : Value) (leaf : Template) (js : List Judgement) : Prop where
  walks : Walks registryOf e.catalog h e.config.deep target names owner leaf
  plain : ∀ n ∈ names, isPath n = false
  path : el.path = joinPath names
  read : leaf.read h owner = .ok el.value
  judged : (judge e.factory (e.contextAt h) h el.value leaf.tags).answer registryOf = .ok js
  invalid : violated js ≠ []
  violates : ∀ name, el.violates name = (violated js).any (name == ·.name)

/-- What is kept of elements on their way from where they are found to a report. -/
def Located (e : Engine) (target : Value) (el : InvalidElement) : Prop :=
  ∃ names owner leaf js, e.Stands registryOf h target el names owner leaf js

end Reaching

variable {patterns : PatternEngine} {registryOf : CatalogRef → Registry} {h : Heap} {d : CatalogRef}
  {e below : Engine} {target v w : Value} {m : Member} {t : Tag} {el : InvalidElement}
  {js : List Judgement}

/-- A tagged member that an engine looks at is found by its name. -/
theorem exists_template_of_looks (addressable : h.Addressable)
    (looks : e.Looks registryOf h target m v) (tagged : t ∈ m.tags) : ∃ template,
      m = .ofTemplate template (some target) ∧ template.read h target = .ok v ∧
        (e.catalog.templateOf? h target m.name e.config.deep).answer registryOf =
          .ok (some template) := by
  obtain ⟨ms, listed, member⟩ := looks.listed
  obtain ⟨ts, found, rfl⟩ := CatalogRef.membersOf_eq_ok listed
  obtain ⟨template, htemplate, rfl⟩ := List.mem_map.1 member
  have object : ∀ s, target ≠ .tag s := by
    rintro s rfl
    cases CatalogRef.listed_of_templatesOf found htemplate
    cases tagged
  refine ⟨template, rfl, ?_, ?_⟩
  · rw [← Walks.answer_readIn_ofTemplate registryOf]
    exact looks.read
  · exact CatalogRef.answer_templateOf?_of_mem addressable found htemplate object

/-- An item of a list or a map is found by its name. -/
theorem exists_template_of_item (addressable : h.Addressable) {items : List Member}
    {item : Member} (iterates : v.iterates = true)
    (itemized : (d.membersOf h v false).answer registryOf = .ok items) (listed : item ∈ items)
    (read : (item.read h).answer registryOf = .ok w) (deep : Bool) : ∃ template,
      template.read h v = .ok w ∧
        (d.templateOf? h v item.name deep).answer registryOf = .ok (some template) := by
  have itself : (d.templatesOf h v false).answer registryOf =
      (d.templatesOf h v deep).answer registryOf := by
    cases v with
    | list l => rfl
    | map k => rfl
    | _ => cases iterates
  have other : ∀ tag, v ≠ .tag tag := by
    rintro tag rfl
    cases iterates
  obtain ⟨ts, found, rfl⟩ := CatalogRef.membersOf_eq_ok itemized
  rw [itself] at found
  obtain ⟨template, htemplate, rfl⟩ := List.mem_map.1 listed
  refine ⟨template, ?_, CatalogRef.answer_templateOf?_of_mem addressable found htemplate other⟩
  rw [← Walks.answer_readIn_ofTemplate registryOf]
  exact read

/-! Elements stay located when they are seen from further outside, and when they
are merged. -/

theorem Located.of_nested (builtIn : e.factory = .ofCatalog d) (nested : e.nested = .ok below)
    (located : below.Located registryOf h target el) : e.Located registryOf h target el := by
  obtain ⟨names, owner, leaf, js, stands⟩ := located
  have outlasts := outlasts_of_nested nested
  have builtIn' : below.factory = .ofCatalog d := outlasts.factory.symm.trans builtIn
  have contexts : ∀ t, Context.Refines registryOf h (below.contextAt h t) (e.contextAt h t) :=
    fun t => ⟨rfl, outlasts.refines_asRunning builtIn'⟩
  have judged := stands.judged
  rw [builtIn'] at judged
  obtain ⟨_, judged', rfl⟩ := refines_judge contexts el.value leaf.tags js judged
  exact ⟨names, owner, leaf, js,
    { walks := by
        rw [outlasts.toAlike.catalog, outlasts.deep]
        exact stands.walks
      plain := stands.plain
      path := stands.path
      read := stands.read
      judged := by
        rw [builtIn]
        exact judged'
      invalid := stands.invalid
      violates := stands.violates }⟩

theorem Located.through {lead : String} {template : Template}
    (found : (e.catalog.templateOf? h target lead e.config.deep).answer registryOf =
      .ok (some template)) (read : template.read h target = .ok v) (plain : isPath lead = false)
    (located : e.Located registryOf h v el) : e.Located registryOf h target (el.under lead) := by
  obtain ⟨names, owner, leaf, js, stands⟩ := located
  exact ⟨lead :: names, owner, leaf, js,
    { walks := .through found read stands.walks
      plain := List.forall_mem_cons.2 ⟨plain, stands.plain⟩
      path := by
        rw [InvalidElement.path_under, stands.path, joinPath_cons stands.walks.ne_nil]
      read := stands.read
      judged := stands.judged
      invalid := stands.invalid
      violates := stands.violates }⟩

/-- Under one path there is one value, with one judgement. -/
theorem Located.merge {other : InvalidElement} (located : e.Located registryOf h target el)
    (located' : e.Located registryOf h target other) (same : el.path = other.path) :
    e.Located registryOf h target (el.merge other) := by
  obtain ⟨names, owner, leaf, js, stands⟩ := located
  obtain ⟨names', owner', leaf', js', stands'⟩ := located'
  obtain ⟨m, found, place⟩ := stands.walks.exists_find? stands.plain
  obtain ⟨m', found', place'⟩ := stands'.walks.exists_find? stands'.plain
  rw [← stands'.path, ← same, stands.path] at found'
  cases found.symm.trans found'
  have value : el.value = other.value :=
    Except.ok.inj ((place.reads _ stands.read).symm.trans (place'.reads _ stands'.read))
  have tags : leaf.tags = leaf'.tags := place.tags.symm.trans place'.tags
  have judged := stands'.judged
  rw [← value, ← tags] at judged
  cases stands.judged.symm.trans judged
  refine ⟨names, owner, leaf, js, { stands with violates := ?_ }⟩
  intro name
  rw [InvalidElement.violates_merge, stands.violates, stands'.violates, Bool.or_self]

/-- A tag is judged alike in all places. -/
theorem judge_contextAt_iff (builtIn : e.factory = .ofCatalog d) (target : Value) (m : Member)
    {tags : List Tag} :
    (judge e.factory (e.contextAt h) h v tags).answer registryOf = .ok js ↔
      (judge e.factory (e.contextOf h target m) h v tags).answer registryOf = .ok js := by
  have running := Running.refines_self registryOf h (e.asRunning h)
  rw [builtIn]
  constructor
  · intro judged
    have contexts : ∀ t, Context.Refines registryOf h (e.contextAt h t) (e.contextOf h target m t) :=
      fun t => ⟨rfl, running⟩
    obtain ⟨_, judged', rfl⟩ := refines_judge contexts v tags js judged
    exact judged'
  · intro judged
    have contexts : ∀ t, Context.Refines registryOf h (e.contextOf h target m t) (e.contextAt h t) :=
      fun t => ⟨rfl, running⟩
    obtain ⟨_, judged', rfl⟩ := refines_judge contexts v tags js judged
    exact judged'

theorem exists_judged_of_violated {f : Factory} {ctx : Tag → Context} {tags : List Tag}
    (judged : (judge f ctx h v tags).answer registryOf = .ok js) (invalid : violated js ≠ []) :
    ∃ j ∈ js, j.verdict.isValid = false ∧ j.tag ∈ tags ∧
      f.Gives registryOf (ctx j.tag) h v j.verdict := by
  obtain ⟨t, ht⟩ := List.exists_mem_of_ne_nil _ invalid
  obtain ⟨j, hj, unfit, -⟩ := mem_violated.1 ht
  obtain ⟨tagged, gives⟩ := (mem_judge judged).1 hj
  exact ⟨j, hj, unfit, tagged, gives⟩

/-- The element of a member in its own container is located. -/
theorem located_own (addressable : h.Addressable) (builtIn : e.factory = .ofCatalog d)
    (looks : e.Looks registryOf h target m v) (plain : isPath m.name = false)
    (judged : (judge e.factory (e.contextOf h target m) h v m.tags).answer registryOf = .ok js)
    (invalid : violated js ≠ []) :
    e.Located registryOf h target (.ofMember m v (violated js)) := by
  obtain ⟨j, -, -, tagged, -⟩ := exists_judged_of_violated judged invalid
  obtain ⟨template, rfl, read, found⟩ := exists_template_of_looks addressable looks tagged
  have path : (InvalidElement.ofMember (.ofTemplate template (some target)) v (violated js)).path =
      template.name := InvalidElement.path_violateAll _ _
  have value : (InvalidElement.ofMember (.ofTemplate template (some target)) v (violated js)).value =
      v := InvalidElement.value_violateAll _ _
  exact ⟨[template.name], target, template, js,
    { walks := .here found
      plain := by
        intro n hn
        rw [List.mem_singleton.1 hn]
        exact plain
      path := path
      read := by
        rw [value]
        exact read
      judged := by
        rw [value]
        exact (judge_contextAt_iff builtIn _ _).2 judged
      invalid := invalid
      violates := InvalidElement.violates_ofMember _ _ _ }⟩

/-- What holds of the elements that a run makes for members, of those that it takes over
from inside their values, and of what is merged from such, holds of its whole report. -/
theorem forall_elements_of_validate {P : InvalidElement → Prop} {r : Report}
    (builtIn : e.factory = .ofCatalog d) (done : (e.validate h target).answer registryOf = .ok r)
    (merges : ∀ a b, P a → P b → a.path = b.path → P (a.merge b))
    (own : ∀ {m v js}, e.Looks registryOf h target m v →
      (judge e.factory (e.contextOf h target m) h v m.tags).answer registryOf = .ok js →
      violated js ≠ [] → P (.ofMember m v (violated js)))
    (inside : ∀ {m v t leaf verdict below el}, e.Looks registryOf h target m v → t ∈ m.tags →
      e.factory.Decides registryOf (e.contextOf h target m t) h v leaf verdict →
      (registryOf e.catalog).mergesElements t = true → e.nested = .ok below →
      FoundInside registryOf h e below v leaf.validator el → P (el.under m.name)) :
    ∀ el ∈ r.elements, P el := by
  obtain ⟨ms, parts, listed, hparts, rfl⟩ := validate_eq_ok done
  refine Report.forall_elements_ofElements merges ?_
  intro el hel
  obtain ⟨part, hpart, hel⟩ := List.mem_flatten.1 hel
  obtain ⟨m, hm, here⟩ := exists_of_forall₂ hparts hpart
  obtain ⟨member, accepted⟩ := List.mem_filter.1 hm
  rcases memberElements_eq_ok here with ⟨-, rfl⟩ | ⟨readable, v, js, read, judged, rfl⟩
  · cases hel
  · have looks : e.Looks registryOf h target m v :=
      ⟨⟨ms, listed, member⟩, accepted, readable, read⟩
    rcases mem_reported.1 hel with ⟨j, hj, reports, f, hf, rfl⟩ | ⟨invalid, rfl⟩
    · obtain ⟨tagged, gives⟩ := (mem_judge judged).1 hj
      obtain ⟨leaf, decides⟩ := gives.exists_decides (isValid_of_mem_elements hf)
      obtain ⟨below, nested, found⟩ := exists_foundInside builtIn decides hf
      exact inside looks tagged decides reports nested found
    · exact own looks judged invalid

/-- Every element of a report is located, if no name that the run reaches has a dot in it. -/
theorem located_of_mem_elements {r : Report} (addressable : h.Addressable)
    (builtIn : e.factory = .ofCatalog d)
    (plain : ∀ name, e.Reaches registryOf h target name → isPath name = false)
    (done : (e.validate h target).answer registryOf = .ok r) :
    ∀ el ∈ r.elements, e.Located registryOf h target el := by
  -- Along the levels, as a report below is taken up by the next engine further out.
  induction e using wellFounded_nested.induction generalizing target r with
  | _ e ih =>
      refine forall_elements_of_validate builtIn done (fun _ _ => Located.merge) ?_ ?_
      · intro m v js looks judged invalid
        exact located_own addressable builtIn looks (plain m.name (.member looks)) judged invalid
      · intro m v t leaf verdict below el looks tagged decides _ nested inside
        obtain ⟨template, rfl, value, found⟩ := exists_template_of_looks addressable looks tagged
        refine Located.through found value (plain template.name (.member looks)) ?_
        refine Located.of_nested builtIn nested ?_
        have alike := alike_of_nested nested
        generalize validator : leaf.validator = id at inside
        cases inside with
        | valid done' found' =>
            refine ih below nested (alike.factory.trans builtIn) ?_ done' el found'
            intro name reaches
            exact plain name (.valid looks tagged decides.asks validator nested reaches)
        | @valids items item w r' g iterates itemized itemListed read' container done' found' =>
            obtain ⟨_, value', named⟩ := exists_template_of_item addressable iterates itemized
              itemListed read' below.config.deep
            rw [← alike.catalog] at named
            have plainItem : isPath item.name = false := plain item.name
              (.item looks tagged decides.asks validator iterates itemized itemListed)
            refine Located.through named value' plainItem ?_
            refine ih below nested (alike.factory.trans builtIn) ?_ done' g found'
            intro name reaches
            exact plain name (.valids looks tagged decides.asks validator iterates itemized
              itemListed read' nested reaches)

theorem answer_memberElements_of_judged
    (constraint : m.tags.any (registryOf e.catalog).isConstraint = true)
    (readable : m.readable = true) (read : (m.readIn h target).answer registryOf = .ok v)
    (judged : (judge e.factory (e.contextOf h target m) h v m.tags).answer registryOf = .ok js) :
    (e.memberElements (e.factory.create h) (e.asRunning h) h target m).answer registryOf =
      .ok (reported (registryOf e.catalog) m v js) := by
  have judged : (judge e.factory (fun t => ⟨t, some m, some target, e.asRunning h,
      e.factory.create h⟩) h v m.tags).answer registryOf = .ok js := judged
  rw [memberElements, Query.answer_bind, Query.answer_registry]
  simp only [Except.bind, constraint, readable, Bool.and_self, if_true, Query.answer_bind,
    Query.answer_mapError, read, mapError_ok, judged, Query.answer_pure]

/-- Under the name of a member its report holds the tags that the member itself violates. -/
theorem violates_ofElements_reported (target : Value) (r : Registry) (m : Member) (v : Value)
    (js : List Judgement) (name : String) :
    (Report.ofElements target (reported r m v js)).violates m.name name =
      (violated js).any (name == ·.name) := by
  -- What is found further down stands under a longer path.
  have deeper : ∀ path, m.name ≠ m.name ++ "." ++ path := by
    intro path same
    have lengths := congrArg String.length same
    simp only [String.length_append] at lengths
    have dot : ".".length = 1 := rfl
    omega
  rw [Bool.eq_iff_iff, Report.violates_ofElements, exists_mem_reported, List.any_eq_true]
  constructor
  · rintro ⟨j, hj, invalid, ⟨-, same⟩ | ⟨-, f, -, same, -⟩⟩
    · exact ⟨j.tag, mem_violated.2 ⟨j, hj, invalid, rfl⟩, by simpa using same⟩
    · exact absurd same (deeper f.path)
  · rintro ⟨t, ht, same⟩
    obtain ⟨j, hj, invalid, rfl⟩ := mem_violated.1 ht
    exact ⟨j, hj, invalid, Or.inl ⟨rfl, by simpa using same⟩⟩

/-- Validating a member that stands for the place of an element reports the
violated tags of the element. -/
theorem validateMember_of_stands {names : List String} {owner : Value} {leaf : Template}
    (builtIn : e.factory = .ofCatalog d) (stands : e.Stands registryOf h target el names owner leaf js)
    (place : m.StandsFor registryOf h target (joinPath names) owner leaf) :
    ∃ r, (e.validateMember h m).answer registryOf = .ok r ∧
      ∃ el', r.element? el.path = some el' ∧ ∀ name, el'.violates name = el.violates name := by
  have judged := stands.judged
  rw [judge_contextAt_iff builtIn target m, ← place.tags] at judged
  obtain ⟨j, hj, invalid, tagged, gives⟩ := exists_judged_of_violated judged stands.invalid
  obtain ⟨_, decides⟩ := gives.exists_decides invalid
  have constraint : m.tags.any (registryOf e.catalog).isConstraint = true :=
    List.any_eq_true.2 ⟨j.tag, tagged, decides.isConstraint⟩
  have readable : m.readable = true := place.readable.trans (Walks.readable_of_read stands.read)
  have found := answer_memberElements_of_judged constraint readable (place.reads _ stands.read) judged
  have name : m.name = el.path := place.name.trans stands.path.symm
  have violates := violates_ofElements_reported target (registryOf e.catalog) m el.value js
  refine ⟨.ofElements target (reported (registryOf e.catalog) m el.value js), ?_, ?_⟩
  · rw [validateMember, place.target]
    simp only [Query.answer_bind, found, Except.bind, Query.answer_pure]
  · rw [name] at violates
    have some : (violated js).any (j.tag.name == ·.name) = true :=
      List.any_eq_true.2 ⟨j.tag, mem_violated.2 ⟨j, hj, invalid, rfl⟩, by simp⟩
    have there := (violates j.tag.name).trans some
    obtain ⟨el', found', -⟩ := (Option.any_eq_true _ _).1 there
    refine ⟨el', found', ?_⟩
    intro name
    rw [stands.violates, ← violates name, Report.violates, found', Option.any_some]

end Engine

/-- No name that is declared and no key that is stored has a dot in it. -/
structure Registry.Plain (r : Registry) (h : Heap) : Prop where
  types : ∀ u ∈ r.types, ∀ n ∈ declaredNames u, isPath n = false
  params : ∀ t ∈ r.tags, ∀ p ∈ t.params, isPath p.name = false
  entries : ∀ m, ∀ key ∈ (h.entries m).keys, isPath key = false
  properties : ∀ p, ∀ key ∈ (h.propertyDict p).keys, isPath key = false

section Plain

variable {registryOf : CatalogRef → Registry} {d : CatalogRef} {h : Heap}

theorem Registry.Plain.of_listed {r : Registry} (plain : r.Plain h) {target : Value}
    {t : Template} (listed : Listed r h target t) : isPath t.name = false := by
  cases listed with
  | declared known merged =>
      obtain ⟨n, ⟨u, hu, stated⟩, rfl⟩ := mem_membersAlong.1 merged
      exact plain.types u (known u hu) n stated
  | param known stated => exact plain.params _ known _ stated
  | @item l i within => exact isPath_write i
  | entry stored => exact plain.entries _ _ stored
  | property stored => exact plain.properties _ _ stored
  | column c i => exact isPath_write (i + 1)

theorem Registry.Plain.of_membersOf (plain : (registryOf d).Plain h) {target : Value} {deep : Bool}
    {ms : List Member} (listed : (d.membersOf h target deep).answer registryOf = .ok ms) :
    ∀ m ∈ ms, isPath m.name = false := by
  intro m hm
  obtain ⟨ts, found, rfl⟩ := CatalogRef.membersOf_eq_ok listed
  obtain ⟨template, htemplate, rfl⟩ := List.mem_map.1 hm
  exact plain.of_listed (CatalogRef.listed_of_templatesOf found htemplate)

/-- Without dots in any names a run comes to no name with a dot. -/
theorem Engine.Reaches.isPath_eq_false {e : Engine} {target : Value} {name : String}
    (reaches : e.Reaches registryOf h target name) (plain : (registryOf e.catalog).Plain h) :
    isPath name = false := by
  induction reaches with
  | member looks =>
      obtain ⟨ms, listed, member⟩ := looks.listed
      exact plain.of_membersOf listed _ member
  | valid looks tagged asks validator nested further ih =>
      refine ih ?_
      rw [(alike_of_nested nested).catalog]
      exact plain
  | item looks tagged asks validator iterates itemized listed =>
      exact plain.of_membersOf itemized _ listed
  | valids looks tagged asks validator iterates itemized listed read nested further ih =>
      refine ih ?_
      rw [(alike_of_nested nested).catalog]
      exact plain

end Plain

/-- The path of an element leads back to where it was found.  A selector finds a
member under it whose value is the invalid one, and validated alone the member
is reported under the same path, for the same tags. -/
theorem paths_lead_back [PatternEngine] {w : World} {e : Engine} {d : CatalogRef}
    (builtIn : e.factory = .ofCatalog d) (addressable : w.heap.Addressable) {target : Value}
    (plain : ∀ name, e.Reaches w.catalogs.registry w.heap target name → isPath name = false)
    {r : Report} (done : (Query.run w fun h => e.validate h target).1 = .ok r)
    {el : InvalidElement} (reported : el ∈ r.elements) :
    ∃ m, (Query.run w fun h => (Selector.mk e.catalog [] e.config.deep).find? h el.path target).1 =
        .ok (some m) ∧
      (Query.run w fun h => m.read h).1 = .ok el.value ∧
      ∃ r', (Query.run w fun h => e.validateMember h m).1 = .ok r' ∧
        ∃ el', r'.element? el.path = some el' ∧ ∀ name, el'.violates name = el.violates name := by
  simp only [Query.run_fst] at done ⊢
  obtain ⟨names, owner, leaf, js, stands⟩ :=
    Engine.located_of_mem_elements addressable builtIn plain done el reported
  obtain ⟨m, found, place⟩ := stands.walks.exists_find? stands.plain
  rw [← stands.path] at found
  refine ⟨m, found, ?_, Engine.validateMember_of_stands builtIn stands place⟩
  rw [Member.read, place.target]
  exact place.reads _ stands.read

/-- A kit has parts, which are to be valid one by one, and each has to have a mark. -/
def kits : List Definition :=
  BuiltIn.drafts.map .tag ++
    [.type ((TypeDraft.plain "Part").withField
      { Field.plain "mark" .string with tags := [.plain BuiltIn.notNull] }),
     .type ((TypeDraft.plain "Kit").withField
      { Field.plain "parts" (.list (.object "Part")) with tags := [.plain BuiltIn.valids] })]

def kit : Value := .object ⟨0, "Kit", []⟩

/-- The kit has one part, which has no mark. -/
def kitWorld : World :=
  ⟨{ Heap.empty with
      objects := ⟨#[.ofList [("parts", .list ⟨0, .object "Part"⟩)], .empty]⟩
      lists := ⟨#[[.object ⟨1, "Part", []⟩]]⟩ },
   (Catalogs.empty.add (Builder.empty.declareAll kits).build).2⟩

def kitEngine : Engine := .unchecked (.ofCatalog ⟨0⟩) .standard

theorem kitWorld_plain : (kitWorld.catalogs.registry ⟨0⟩).Plain kitWorld.heap where
  types := by decide
  params := by decide
  entries := by
    intro m key stored
    cases stored
  properties := by
    intro p key stored
    cases stored

theorem kitWorld_addressable : kitWorld.heap.Addressable := by
  intro l
  have few : (kitWorld.heap.items l).length ≤ 1 := by
    rw [Heap.items]
    cases found : kitWorld.heap.lists.get? l.id with
    | none => exact Nat.zero_le 1
    | some items =>
        have stored : items ∈ #[[Value.object ⟨1, "Part", []⟩]] := Array.mem_of_getElem? found
        cases Array.mem_singleton.1 stored
        exact Nat.le_refl 1
  exact Nat.le_trans few (by decide)

/-- The mark that the part misses is found again, and validated alone it is missed again. -/
theorem mark_of_part_leads_back :
    ∃ m, (Query.run kitWorld fun h =>
        (Selector.mk ⟨0⟩ [] true).find? h "parts.0.mark" kit).1 = .ok (some m) ∧
      (Query.run kitWorld fun h => m.read h).1 = .ok .null ∧
      ∃ r, (Query.run kitWorld fun h => kitEngine.validateMember h m).1 = .ok r ∧
        ∃ el, r.element? "parts.0.mark" = some el ∧ el.violates BuiltIn.notNull = true := by
  have reported : ∃ r, (Query.run kitWorld fun h => kitEngine.validate h kit).1 = .ok r ∧
      ∃ el ∈ r.elements, el.path = "parts.0.mark" ∧ el.value = .null ∧
        el.violates BuiltIn.notNull = true :=
    ⟨_, rfl, _, List.mem_cons_of_mem _ List.mem_cons_self, rfl, rfl, rfl⟩
  obtain ⟨r, done, el, hel, path, value, violated⟩ := reported
  obtain ⟨m, found, read, r', done', el', reported', same⟩ := paths_lead_back (w := kitWorld)
    (e := kitEngine) (d := ⟨0⟩) rfl kitWorld_addressable
    (fun name reaches => reaches.isPath_eq_false kitWorld_plain) done hel
  rw [path] at found reported'
  rw [value] at read
  exact ⟨m, found, read, r', done', el', reported', (same _).trans violated⟩

end Memberwise
