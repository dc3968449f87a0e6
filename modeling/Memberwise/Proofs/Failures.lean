import Memberwise.Proofs.Construction
import Memberwise.Proofs.Levels

/-!
# How runs fail

A run may fail on the values that it meets, on parameters of tags and on its
depth.  It does not fail because a tag, a validator or what that needs is not
there, nor because a tag does not fit where it stands: what is resolved for a
tag of which one of the same name has passed can be resolved
(`Factory.yields_resolveAmong`), and on the members of all containers there are
only such tags (`Engine.vetted_of_listed`).
-/

namespace Memberwise

/-- Errors about definitions and where tags stand, not about values. -/
def ConstraintError.isLookup : ConstraintError → Bool
  | unknownTag .. | unknownValidator .. | missingCapability .. | unsupportedShape .. => true
  | _ => false

theorem ConstraintError.OfParams.isLookup_eq_false {err : ConstraintError}
    (stated : err.OfParams) : err.isLookup = false := by
  rcases stated with ⟨tag, param, rfl⟩ | ⟨pattern, rfl⟩
  · rfl
  · rfl

namespace Query

variable {α β : Type} {registryOf : CatalogRef → Registry} {S : α → Prop} {T : β → Prop}

/-- What the query comes to has a property, or it fails, but not on a look-up. -/
structure Yields (registryOf : CatalogRef → Registry) (S : α → Prop)
    (q : Query ConstraintError α) : Prop where
  result : ∀ a, q.answer registryOf = .ok a → S a
  failure : ∀ err, q.answer registryOf = .error err → err.isLookup = false

theorem yields_pure {a : α} (holds : S a) : Yields registryOf S (pure a) where
  result := by
    intro b same
    cases same
    exact holds
  failure := by
    intro err failed
    cases failed

theorem yields_throw {err : ConstraintError} (spared : err.isLookup = false) :
    Yields registryOf S (throw err) where
  result := by
    intro a done
    cases done
  failure := by
    intro err' same
    cases same
    exact spared

theorem yields_element (q : Query MemberError α) :
    Yields registryOf (fun a => q.answer registryOf = .ok a) (q.mapError .element) where
  result := by
    intro a done
    rw [answer_mapError] at done
    exact mapError_eq_ok.1 done
  failure := by
    intro err failed
    rw [answer_mapError] at failed
    cases asked : q.answer registryOf with
    | error e =>
        rw [asked] at failed
        cases failed
        rfl
    | ok a =>
        rw [asked] at failed
        cases failed

theorem Yields.bind {q : Query ConstraintError α} {f : α → Query ConstraintError β}
    (first : Yields registryOf S q) (rest : ∀ a, S a → Yields registryOf T (f a)) :
    Yields registryOf T (q >>= f) where
  result := by
    intro b done
    rw [answer_bind] at done
    obtain ⟨a, ha, hb⟩ := bind_eq_ok.1 done
    exact (rest a (first.result a ha)).result b hb
  failure := by
    intro err failed
    rw [answer_bind] at failed
    cases here : q.answer registryOf with
    | error e =>
        rw [here] at failed
        cases failed
        exact first.failure err here
    | ok a =>
        rw [here] at failed
        exact (rest a (first.result a here)).failure err failed

theorem yields_mapM {f : α → Query ConstraintError β} {as : List α}
    (each : ∀ a ∈ as, Yields registryOf T (f a)) :
    Yields registryOf (fun bs => ∀ b ∈ bs, T b) (as.mapM f) := by
  induction as with
  | nil => exact yields_pure (by simp)
  | cons a as ih =>
      obtain ⟨here, later⟩ := List.forall_mem_cons.1 each
      rw [List.mapM_cons]
      refine here.bind fun b hb => ?_
      refine (ih later).bind fun bs hbs => ?_
      exact yields_pure (List.forall_mem_cons.2 ⟨hb, hbs⟩)

end Query

section Settling

variable {patterns : PatternEngine} {registryOf : CatalogRef → Registry} {h : Heap}

/-- A checker or a run that never fails on a look-up. -/
def Settles {α : Type} (registryOf : CatalogRef → Registry) (h : Heap)
    (f : Heap → Value → Query ConstraintError α) : Prop :=
  ∀ v, Query.Yields registryOf (fun _ => True) (f h v)

/-- Going down never fails on a look-up, nor do the runs there. -/
def Running.Settles (registryOf : CatalogRef → Registry) (h : Heap) (e : Running) : Prop :=
  Query.Yields registryOf (Memberwise.Settles registryOf h) (Query.ofExcept e.descend)

namespace Rule

theorem Decisive.settles {checker : Checker} (decisive : Decisive checker) :
    Settles registryOf h checker := by
  intro v
  rcases decisive h v with ⟨b, answers⟩ | ⟨id, refuses⟩
  · rw [answers]
    exact Query.yields_pure trivial
  · rw [refuses]
    exact Query.yields_throw rfl

theorem settles_valid {e : Running} (running : e.Settles registryOf h) :
    Settles registryOf h (valid e) := by
  intro v
  rw [valid]
  cases v.isContainer with
  | false => exact Query.yields_pure trivial
  | true =>
      refine running.bind fun run further => ?_
      refine (further v).bind fun r _ => ?_
      exact Query.yields_pure trivial

theorem settles_itemElements {run : Run} (further : Settles registryOf h run) (item : Member) :
    Query.Yields registryOf (fun _ => True) (itemElements run h item) := by
  refine (Query.yields_element _).bind fun v _ => ?_
  cases v.isContainer with
  | false => exact Query.yields_pure trivial
  | true =>
      refine (further v).bind fun r _ => ?_
      exact Query.yields_pure trivial

theorem settles_allItemElements {run : Run} (further : Settles registryOf h run)
    (items : List Member) :
    Query.Yields registryOf (fun _ => True) (allItemElements run h items) := by
  induction items with
  | nil => exact Query.yields_pure trivial
  | cons item items ih =>
      refine (settles_itemElements further item).bind fun found _ => ?_
      refine ih.bind fun rest _ => ?_
      exact Query.yields_pure trivial

theorem settles_valids {e : Running} (running : e.Settles registryOf h) :
    Settles registryOf h (valids e) := by
  intro v
  cases iterates : v.iterates with
  | false =>
      rw [valids_of_not_iterates iterates]
      exact Query.yields_pure trivial
  | true =>
      rw [valids_of_iterates iterates]
      refine running.bind fun run further => ?_
      refine (Query.yields_element _).bind fun items _ => ?_
      refine (settles_allItemElements further items).bind fun es _ => ?_
      exact Query.yields_pure trivial

theorem settles_all {cs : List Checker} (each : ∀ c ∈ cs, Settles registryOf h c) :
    Settles registryOf h (all cs) := by
  intro v
  induction cs with
  | nil => exact Query.yields_pure trivial
  | cons c cs ih =>
      obtain ⟨here, later⟩ := List.forall_mem_cons.1 each
      rw [all_cons]
      refine (here v).bind fun verdict _ => ?_
      cases verdict.isValid with
      | true => exact ih later
      | false => exact Query.yields_pure trivial

/-- The built-in validators never fail on a look-up, neither when they are built
nor when they judge. -/
theorem yields_build {id : String} {r : Registration} (registered : (id, r) ∈ builtIn)
    {ctx : Context} (running : ctx.engine.Settles registryOf h) :
    Query.Yields registryOf (Settles registryOf h) (r.build ctx) := by
  rcases (builtIn_cases registered).2 with
    ⟨-, -, make, build, decisive, stated⟩ | ⟨-, build⟩ | ⟨-, build⟩
  · rw [build]
    exact
      { result := fun c made => (decisive _ c made).settles
        failure := fun err failed => (stated _ err failed).isLookup_eq_false }
  · rw [build]
    exact Query.yields_pure (settles_valid running)
  · rw [build]
    exact Query.yields_pure (settles_valids running)

end Rule

namespace Factory

variable {d : CatalogRef} {ctx : Context}

theorem yields_construct {id : String} {r : Registration}
    (found : (ofCatalog d).registrations.get? id = some r)
    (running : ctx.engine.Settles registryOf h) :
    Query.Yields registryOf (Settles registryOf h) ((ofCatalog d).construct ctx id) := by
  have built := Rule.yields_build (mem_builtIn_of_get? found) running
  exact
    { result := by
        rw [construct_ofCatalog found]
        exact built.result
      failure := by
        rw [construct_ofCatalog found]
        exact built.failure }

/-- A tag of whose name one has passed can be resolved, with all that it comes down to. -/
theorem yields_resolveAmong (running : ctx.engine.Settles registryOf h)
    {defs : List TagDefinition} {s t : Tag} {name : String} {type : ValueType}
    (same : s.name = t.name) (passed : (ofCatalog d).checkAmong name type defs s = .ok ()) :
    Query.Yields registryOf (fun checker => ∀ c ∈ checker, Settles registryOf h c)
      ((ofCatalog d).resolveAmong ctx defs t) := by
  -- Along the definitions: the parts of a tag are looked up among older ones, by the
  -- check and when it is resolved.
  induction defs generalizing s t with
  | nil => cases passed
  | cons def' older ih =>
      rw [checkAmong, same] at passed
      rw [resolveAmong]
      cases named : def'.name == t.name with
      | false =>
          rw [named] at passed
          exact ih same passed
      | true =>
          simp only [named, if_true] at passed ⊢
          cases validated : def'.validator with
          | some id =>
              simp only [validated, registration] at passed
              cases found : (ofCatalog d).registrations.get? id with
              | none =>
                  rw [found] at passed
                  cases passed
              | some r =>
                  have running : (ctx.withTag t).engine.Settles registryOf h := running
                  refine (yields_construct found running).bind fun c settles => ?_
                  exact Query.yields_pure (by simpa using settles)
          | none =>
              simp only [validated, forM_eq_ok] at passed
              cases def'.isComposite with
              | false => exact Query.yields_pure (by simp)
              | true =>
                  refine (Query.yields_mapM fun part hp => ih rfl (passed part hp)).bind
                    fun checkers settle => ?_
                  have each : ∀ c ∈ checkers.filterMap id, Settles registryOf h c := by
                    intro c hc
                    obtain ⟨checker, hchecker, rfl⟩ := List.mem_filterMap.1 hc
                    exact settle (some c) hchecker c rfl
                  exact Query.yields_pure (by simpa using Rule.settles_all each)

theorem yields_resolve (running : ctx.engine.Settles registryOf h)
    (vetted : (ofCatalog d).Vetted (registryOf d) ctx.tag) :
    Query.Yields registryOf (fun checker => ∀ c ∈ checker, Settles registryOf h c)
      ((ofCatalog d).resolve ctx) := by
  obtain ⟨s, name, type, same, passed⟩ := vetted
  have resolved := yields_resolveAmong running same passed
  exact ⟨resolved.result, resolved.failure⟩

end Factory

/-- Only objects have members with tags. -/
theorem Listed.exists_line_of_tagged {r : Registry} {target : Value} {m : Template} {t : Tag}
    (listed : Listed r h target m) (tagged : t ∈ m.tags) :
    ∃ line, (∀ u ∈ line, u ∈ r.types) ∧ m ∈ membersAlong line := by
  cases listed with
  | declared known merged => exact ⟨_, known, merged⟩
  | _ => cases tagged

namespace Engine

variable {d : CatalogRef} {e : Engine} {config : EngineConfig}

/-- On the members of all containers there are only tags of whose names one has passed. -/
theorem vetted_of_listed (built : (registryOf d).Built)
    (made : (withConfig (.ofCatalog d) config).answer registryOf = .ok e) {target : Value}
    {deep : Bool} {ms : List Member}
    (listed : (d.membersOf h target deep).answer registryOf = .ok ms) :
    ∀ m ∈ ms, ∀ t ∈ m.tags, (Factory.ofCatalog d).Vetted (registryOf d) t := by
  intro m hm t ht
  obtain ⟨ts, found, rfl⟩ := CatalogRef.membersOf_eq_ok listed
  obtain ⟨template, htemplate, rfl⟩ := List.mem_map.1 hm
  have listed := CatalogRef.listed_of_templatesOf found htemplate
  obtain ⟨line, known, merged⟩ := listed.exists_line_of_tagged ht
  exact vetted_of_withConfig built made known merged ht

theorem settles_judge {ctx : Tag → Context} {v : Value} {tags : List Tag}
    (own : ∀ t, (ctx t).tag = t) (running : ∀ t, (ctx t).engine.Settles registryOf h)
    (vetted : ∀ t ∈ tags, (Factory.ofCatalog d).Vetted (registryOf d) t) :
    Query.Yields registryOf (fun _ => True) (judge (.ofCatalog d) ctx h v tags) := by
  induction tags with
  | nil => exact Query.yields_pure trivial
  | cons t tags ih =>
      obtain ⟨here, later⟩ := List.forall_mem_cons.1 vetted
      rw [judge]
      refine (Factory.yields_resolve (running t) ((own t).symm ▸ here)).bind
        fun checker settle => ?_
      cases checker with
      | none => exact ih later
      | some c =>
          refine (settle c rfl v).bind fun verdict _ => ?_
          refine (ih later).bind fun rest _ => ?_
          exact Query.yields_pure trivial

theorem settles_memberElements {create : Creator} {running : Running} {target : Value} {m : Member}
    (builtIn : e.factory = .ofCatalog d) (settles : running.Settles registryOf h)
    (vetted : ∀ t ∈ m.tags, (Factory.ofCatalog d).Vetted (registryOf d) t) :
    Query.Yields registryOf (fun _ => True) (e.memberElements create running h target m) := by
  have asked : Query.Yields registryOf (fun _ => True)
      (Query.registry e.catalog : Query ConstraintError Registry) :=
    ⟨fun _ _ => trivial, by rintro err ⟨⟩⟩
  rw [memberElements]
  refine asked.bind fun r _ => ?_
  split
  · refine (Query.yields_element _).bind fun v _ => ?_
    rw [builtIn]
    refine (settles_judge (fun _ => rfl) (fun _ => settles) vetted).bind fun js _ => ?_
    exact Query.yields_pure trivial
  · exact Query.yields_pure trivial

theorem settles_elementsOf {create : Creator} {running : Running} {target : Value}
    {ms : List Member} (builtIn : e.factory = .ofCatalog d)
    (settles : running.Settles registryOf h)
    (vetted : ∀ m ∈ ms, ∀ t ∈ m.tags, (Factory.ofCatalog d).Vetted (registryOf d) t) :
    Query.Yields registryOf (fun _ => True) (e.elementsOf create running h target ms) := by
  induction ms with
  | nil => exact Query.yields_pure trivial
  | cons m ms ih =>
      obtain ⟨here, later⟩ := List.forall_mem_cons.1 vetted
      refine (settles_memberElements builtIn settles here).bind fun found _ => ?_
      refine (ih later).bind fun rest _ => ?_
      exact Query.yields_pure trivial

/-- Where the runs of the engine one level further down settle, going down does. -/
theorem settles_asRunning
    (further : ∀ below, e.nested = .ok below → Settles registryOf h below.validate) :
    (e.asRunning h).Settles registryOf h where
  result := by
    intro run down
    obtain ⟨below, nested, same⟩ := descend_eq_ok down
    intro v
    rw [same]
    exact further below nested v
  failure := by
    intro err failed
    have same := map_descend e h
    rw [Query.answer_ofExcept] at failed
    rw [failed] at same
    rw [Engine.nested] at same
    split at same
    · cases same
    · cases same
      rfl

/-- A run over vetted tags settles, as the runs further down do. -/
theorem settles_validate (builtIn : e.factory = .ofCatalog d)
    (vetted : ∀ target deep ms, (d.membersOf h target deep).answer registryOf = .ok ms →
      ∀ m ∈ ms, ∀ t ∈ m.tags, (Factory.ofCatalog d).Vetted (registryOf d) t) :
    Settles registryOf h e.validate := by
  induction e using wellFounded_nested.induction with
  | _ e ih =>
      have running : (e.asRunning h).Settles registryOf h := by
        refine settles_asRunning ?_
        intro below nested
        exact ih below nested ((alike_of_nested nested).factory.trans builtIn)
      intro target
      rw [validate, runWith, catalog, builtIn]
      refine (Query.yields_element _).bind fun ms listed => ?_
      have passed : ∀ m ∈ ms.filter e.accepts, ∀ t ∈ m.tags,
          (Factory.ofCatalog d).Vetted (registryOf d) t :=
        fun m hm => vetted target _ ms listed m (List.mem_filter.1 hm).1
      rw [← builtIn]
      refine (settles_elementsOf builtIn running passed).bind fun found _ => ?_
      exact Query.yields_pure trivial

end Engine

end Settling

/-- No run of an engine that could be made fails on a look-up, whatever its
filter and whatever has become of the heap. -/
theorem runs_never_fail_on_lookups [PatternEngine] {w : World} {d : CatalogRef}
    (built : (w.catalogs.registry d).Built) (config : EngineConfig) {e : Engine}
    (made : (Query.run w fun _ => Engine.withConfig (.ofCatalog d) config).1 = .ok e)
    (filter : Option MemberPredicate) (h : Heap) (target : Value) {err : ConstraintError}
    (failed : (Query.run { w with heap := h } fun h =>
      ({ e with filter := filter } : Engine).validate h target).1 = .error err) :
    err.isLookup = false := by
  rw [Query.run_fst] at made failed
  have builtIn : ({ e with filter := filter } : Engine).factory = .ofCatalog d := by
    rw [(Engine.withConfig_eq_ok built made).1]
    rfl
  have settles := Engine.settles_validate (h := h) builtIn
    fun target deep ms listed => Engine.vetted_of_listed built made listed
  exact (settles target).failure err failed

/-- The node that follows itself is refused for the depth of the run. -/
theorem node_after_itself_is_too_deep :
    ∃ err, (Query.run linkWorld fun h => (Engine.unchecked (.ofCatalog ⟨0⟩) ⟨true, 2⟩).validate h
      (node 0)).1 = .error err ∧ err.isLookup = false :=
  ⟨_, rfl, runs_never_fail_on_lookups (w := linkWorld) (d := ⟨0⟩) (Registry.built_build links)
    ⟨true, 2⟩ rfl none linkWorld.heap (node 0) rfl⟩

end Memberwise
