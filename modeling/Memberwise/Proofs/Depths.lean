import Memberwise.Proofs.Filtering

/-!
# How deep runs go

A validator that looks inside a value takes a level for it, so that a run takes as
many levels as there are descents in a row.  A bound on levels does nothing but cut a
run off (`Engine.cut_validate`), where all levels are used up by a chain of descents
and a value is to be looked into at its end (`Engine.Exceeds`).  That value need not
hold any container: a list or a map takes a level before its items are looked at.
-/

namespace Memberwise

/-- A validator goes one level down to judge a value. -/
inductive Rule.GoesDown : String → Value → Prop
  | valid {v : Value} (container : v.isContainer = true) : GoesDown BuiltIn.valid v
  | valids {v : Value} (iterates : v.iterates = true) : GoesDown BuiltIn.valids v

namespace Engine

section Descending

variable (registryOf : CatalogRef → Registry) (h : Heap)

/-- A container that a validator looks into to judge a value. -/
inductive Enters (e : Engine) : String → Value → Value → Prop
  | valid {v : Value} (container : v.isContainer = true) : Enters e BuiltIn.valid v v
  | valids {v w : Value} {items : List Member} {item : Member} (iterates : v.iterates = true)
      (itemized : (e.catalog.membersOf h v false).answer registryOf = .ok items)
      (listed : item ∈ items) (read : (item.read h).answer registryOf = .ok w)
      (container : w.isContainer = true) : Enters e BuiltIn.valids v w

/-- A validator is asked about a value, that of a member of a container.  It may take more
levels than there are to come to the leaf with this validator; then an engine with more
levels asks it. -/
def Consults (e : Engine) (c : Value) (id : String) (v : Value) : Prop :=
  ∃ e' m t leaf, e.Alike e' ∧ e'.Looks registryOf h c m v ∧ t ∈ m.tags ∧
    e'.factory.Asks registryOf (e'.contextOf h c m t) h v leaf ∧ leaf.validator = id

/-- Some number of descents in a row, each from a container into one that a validator
looks into to judge the value of a member. -/
inductive Chain (e : Engine) : Nat → Value → Value → Prop
  | here {c : Value} : Chain e 0 c c
  | down {n : Nat} {c c' c'' v : Value} {id : String}
      (consults : e.Consults registryOf h c id v) (enters : e.Enters registryOf h id v c')
      (further : Chain e n c' c'') : Chain e (n + 1) c c''

/-- The value of some member is to be looked into. -/
def Opens (e : Engine) (c : Value) : Prop :=
  ∃ id v, e.Consults registryOf h c id v ∧ Rule.GoesDown id v

/-- A list or map that holds no container is to be looked into. -/
def OpensInVain (e : Engine) (c : Value) : Prop :=
  ∃ v, e.Consults registryOf h c BuiltIn.valids v ∧ v.iterates = true ∧
    ∀ w, ¬ e.Enters registryOf h BuiltIn.valids v w

/-- As many descents as there are levels lead to a container in which a value is to be
looked into. -/
def Exceeds (e : Engine) (c : Value) : Prop :=
  ∃ c', e.Chain registryOf h e.levels c c' ∧ e.Opens registryOf h c'

/-- There are not levels enough to judge a value. -/
inductive Overruns (e : Engine) (id : String) (v : Value) : Prop
  | here (goesDown : Rule.GoesDown id v) (left : e.levels = 0)
  | below {below : Engine} {w : Value} (enters : e.Enters registryOf h id v w)
      (nested : e.nested = .ok below) (exceeds : below.Exceeds registryOf h w)

end Descending

variable {patterns : PatternEngine} {registryOf : CatalogRef → Registry} {h : Heap} {d : CatalogRef}
  {e e' : Engine} {c c' v : Value} {m : Member} {id : String} {n : Nat}

theorem Consults.alike (consults : e.Consults registryOf h c id v) (alike : e.Alike e') :
    e'.Consults registryOf h c id v := by
  obtain ⟨e₁, m, t, leaf, alike₁, rest⟩ := consults
  exact ⟨e₁, m, t, leaf, alike.symm.trans alike₁, rest⟩

theorem Enters.alike (enters : e.Enters registryOf h id v c) (alike : e.Alike e') :
    e'.Enters registryOf h id v c := by
  cases enters with
  | valid container => exact .valid container
  | valids iterates itemized listed read container =>
      rw [← alike.catalog] at itemized
      exact .valids iterates itemized listed read container

theorem Chain.alike (chain : e.Chain registryOf h n c c') (alike : e.Alike e') :
    e'.Chain registryOf h n c c' := by
  induction chain with
  | here => exact .here
  | down consults enters _ ih => exact .down (consults.alike alike) (enters.alike alike) ih

theorem Opens.alike (opens : e.Opens registryOf h c) (alike : e.Alike e') :
    e'.Opens registryOf h c := by
  obtain ⟨id, v, consults, goesDown⟩ := opens
  exact ⟨id, v, consults.alike alike, goesDown⟩

/-- A container with one member, on which one tag stands that has one leaf. -/
theorem Consults.eq_of_singleton {m : Member} {t : Tag} {leaf : Leaf} {value : Value}
    (consults : e.Consults registryOf h c id v)
    (members : (e.catalog.membersOf h c e.config.deep).answer registryOf = .ok [m])
    (tags : m.tags = [t]) (leaves : leavesAmong (registryOf e.catalog).tags t = [leaf])
    (value_eq : (m.readIn h c).answer registryOf = .ok value) :
    id = leaf.validator ∧ v = value := by
  obtain ⟨e', m', t', leaf', alike, looks, tagged, ⟨before, after, asked, -⟩, rfl⟩ := consults
  have looks := alike.symm.looks looks
  obtain ⟨ms, listed, member⟩ := looks.listed
  cases members.symm.trans listed
  cases List.mem_singleton.1 member
  rw [tags] at tagged
  cases List.mem_singleton.1 tagged
  cases value_eq.symm.trans looks.read
  have asked : leavesAmong (registryOf e.catalog).tags t = before ++ leaf' :: after := by
    rw [← alike.catalog]
    exact asked
  have own : leaf' ∈ [leaf] := by
    rw [← leaves, asked]
    exact List.mem_append_right _ List.mem_cons_self
  cases List.mem_singleton.1 own
  exact ⟨rfl, rfl⟩

/-- Where a value is to be looked into, there is a further descent or nothing to go down to. -/
theorem Opens.exists_chain_or_inVain (opens : e.Opens registryOf h c) :
    (∃ c', e.Chain registryOf h 1 c c') ∨ e.OpensInVain registryOf h c := by
  obtain ⟨id, v, consults, goesDown⟩ := opens
  cases goesDown with
  | valid container => exact Or.inl ⟨v, .down consults (.valid container) .here⟩
  | valids iterates =>
      by_cases held : ∃ w, e.Enters registryOf h BuiltIn.valids v w
      · obtain ⟨w, enters⟩ := held
        exact Or.inl ⟨w, .down consults enters .here⟩
      · exact Or.inr ⟨v, consults, iterates, fun w enters => held ⟨w, enters⟩⟩

theorem OpensInVain.opens (opens : e.OpensInVain registryOf h c) : e.Opens registryOf h c := by
  obtain ⟨v, consults, iterates, -⟩ := opens
  exact ⟨BuiltIn.valids, v, consults, .valids iterates⟩

theorem Chain.trans {k : Nat} {c'' : Value} (first : e.Chain registryOf h n c c')
    (second : e.Chain registryOf h k c' c'') : e.Chain registryOf h (n + k) c c'' := by
  induction first with
  | here => rwa [Nat.zero_add]
  | down consults enters _ ih =>
      rw [Nat.succ_add]
      exact .down consults enters (ih second)

/-- Where no chain of descents is longer than there are levels, they are exceeded only
for the sake of a list or map that holds no container. -/
theorem exceeds_iff_of_chains_le (bounded : ∀ n c', e.Chain registryOf h n c c' → n ≤ e.levels) :
    e.Exceeds registryOf h c ↔
      ∃ c', e.Chain registryOf h e.levels c c' ∧ e.OpensInVain registryOf h c' := by
  constructor
  · rintro ⟨c', chain, opens⟩
    rcases opens.exists_chain_or_inVain with ⟨c'', further⟩ | inVain
    · have := bounded _ _ (chain.trans further)
      omega
    · exact ⟨c', chain, inVain⟩
  · rintro ⟨c', chain, inVain⟩
    exact ⟨c', chain, inVain.opens⟩

/-- Where there are not levels enough to judge the value of a member, they are exceeded. -/
theorem exceeds_of_overruns (consults : e.Consults registryOf h c id v)
    (overruns : e.Overruns registryOf h id v) : e.Exceeds registryOf h c := by
  cases overruns with
  | here goesDown left =>
      refine ⟨c, ?_, id, v, consults, goesDown⟩
      rw [left]
      exact .here
  | below enters nested exceeds =>
      obtain ⟨c', chain, opens⟩ := exceeds
      have alike := (alike_of_nested nested).symm
      refine ⟨c', ?_, opens.alike alike⟩
      rw [levels_of_nested nested]
      exact .down consults enters (chain.alike alike)

/-- Engines that look at the same members.  Where the first goes down, the second does,
and the runs there are cut off by the bound of the first. -/
structure CutsOff (registryOf : CatalogRef → Registry) (h : Heap) (e e' : Engine) : Prop
    extends e.Alike e' where
  further : ∀ below, e.nested = .ok below → ∃ below', e'.nested = .ok below' ∧ ∀ c,
    Cut e.config.maxDepth (below.Exceeds registryOf h c) Eq
      ((below.validate h c).answer registryOf) ((below'.validate h c).answer registryOf)

/-- An engine without levels does not go down; with levels the runs further down are cut off. -/
theorem CutsOff.descend (cuts : e.CutsOff registryOf h e') : Cut e.config.maxDepth (e.levels = 0)
    (fun run run' => ∃ below, e.nested = .ok below ∧ ∀ c,
      Cut e.config.maxDepth (below.Exceeds registryOf h c) Eq ((run h c).answer registryOf)
        ((run' h c).answer registryOf))
    (e.asRunning h).descend (e'.asRunning h).descend := by
  cases left : e.levels with
  | zero =>
      have down : (e.asRunning h).descend = .error (.depthExceeded e.config.maxDepth) := by
        show inner (e.factory.create h) e.levels e e.filter = _
        rw [left]
        rfl
      rw [down]
      exact .exceeded rfl
  | succ n =>
      have nested := nested_eq_ok (e := e) (by omega)
      obtain ⟨below', nested', cut⟩ := cuts.further _ nested
      obtain ⟨run, down, same⟩ := exists_descend (h := h) nested
      obtain ⟨run', down', same'⟩ := exists_descend (h := h) nested'
      rw [down, down']
      refine .done ⟨_, nested, fun c => ?_⟩
      rw [same, same']
      exact cut c

theorem CutsOff.valid (cuts : e.CutsOff registryOf h e') (v : Value) :
    Cut e.config.maxDepth (e.Overruns registryOf h BuiltIn.valid v) Eq
      ((Rule.valid (e.asRunning h) h v).answer registryOf)
      ((Rule.valid (e'.asRunning h) h v).answer registryOf) := by
  rw [Rule.valid, Rule.valid]
  cases container : v.isContainer with
  | false => exact .result rfl
  | true =>
      refine (cuts.descend.because fun left =>
        Overruns.here (.valid container) left).answer_bind ?_
      rintro run run' ⟨below, nested, cut⟩
      refine ((cut v).because fun exceeds =>
        Overruns.below (.valid container) nested exceeds).answer_bind ?_
      rintro r _ rfl
      exact .result rfl

theorem cut_itemElements {run run' : Run} {bound : Nat} {below : Engine}
    (cut : ∀ c, Cut bound (below.Exceeds registryOf h c) Eq ((run h c).answer registryOf)
      ((run' h c).answer registryOf)) (item : Member) :
    Cut bound (∃ w, (item.read h).answer registryOf = .ok w ∧ w.isContainer = true ∧
        below.Exceeds registryOf h w) Eq
      ((Rule.itemElements run h item).answer registryOf)
      ((Rule.itemElements run' h item).answer registryOf) := by
  rw [Rule.itemElements, Rule.itemElements]
  refine (Cut.element _).answer_bind ?_
  rintro w _ ⟨rfl, read⟩
  cases container : w.isContainer with
  | false => exact .result rfl
  | true =>
      refine ((cut w).because fun exceeds => ⟨w, read, container, exceeds⟩).answer_bind ?_
      rintro r _ rfl
      exact .result rfl

theorem cut_allItemElements {run run' : Run} {bound : Nat} {below : Engine}
    (cut : ∀ c, Cut bound (below.Exceeds registryOf h c) Eq ((run h c).answer registryOf)
      ((run' h c).answer registryOf)) (items : List Member) :
    Cut bound (∃ item ∈ items, ∃ w, (item.read h).answer registryOf = .ok w ∧
        w.isContainer = true ∧ below.Exceeds registryOf h w) Eq
      ((Rule.allItemElements run h items).answer registryOf)
      ((Rule.allItemElements run' h items).answer registryOf) :=
  Cut.parts (Rule.itemElements run h) (Rule.itemElements run' h) rfl rfl (fun _ _ => rfl)
    (fun _ _ => rfl) fun item _ => cut_itemElements cut item

theorem CutsOff.valids (cuts : e.CutsOff registryOf h e') (v : Value) :
    Cut e.config.maxDepth (e.Overruns registryOf h BuiltIn.valids v) Eq
      ((Rule.valids (e.asRunning h) h v).answer registryOf)
      ((Rule.valids (e'.asRunning h) h v).answer registryOf) := by
  cases iterates : v.iterates with
  | false =>
      rw [Rule.valids_of_not_iterates iterates, Rule.valids_of_not_iterates iterates]
      exact .result rfl
  | true =>
      rw [Rule.valids_of_iterates iterates, Rule.valids_of_iterates iterates]
      have catalog : (e'.asRunning h).catalog = (e.asRunning h).catalog := cuts.toAlike.catalog
      rw [catalog]
      refine (cuts.descend.because fun left =>
        Overruns.here (.valids iterates) left).answer_bind ?_
      rintro run run' ⟨below, nested, cut⟩
      refine (Cut.element _).answer_bind ?_
      rintro items _ ⟨rfl, itemized⟩
      refine ((cut_allItemElements cut items).because ?_).answer_bind ?_
      · rintro ⟨item, listed, w, read, container, exceeds⟩
        exact .below (.valids iterates itemized listed read container) nested exceeds
      · rintro es _ rfl
        exact .result rfl

/-- There are not levels enough to judge the value of a member by a tag. -/
def Overtaxes (registryOf : CatalogRef → Registry) (h : Heap) (e : Engine) (c : Value) (m : Member)
    (v : Value) (t : Tag) : Prop :=
  ∃ leaf, e.factory.Asks registryOf (e.contextOf h c m t) h v leaf ∧
    e.Overruns registryOf h leaf.validator v

theorem CutsOff.leafVerdict (cuts : e.CutsOff registryOf h e') (builtIn : e.factory = .ofCatalog d)
    (c : Value) (m : Member) (v : Value) (t : Tag) (leaf : Leaf) :
    Cut e.config.maxDepth (e.Overruns registryOf h leaf.validator v) Eq
      (e.factory.leafVerdict registryOf (e.contextOf h c m t) h v leaf)
      (e'.factory.leafVerdict registryOf (e'.contextOf h c m t) h v leaf) := by
  rw [cuts.factory, builtIn]
  rcases Factory.leafVerdict_eq_or registryOf d h v leaf with
    ⟨said, other, same⟩ | ⟨validator, looks⟩ | ⟨validator, looks⟩
  · rw [same, same]
    cases said with
    | error err => exact .failed fun k => mt (congrArg Except.error) (other k)
    | ok verdict => exact .done rfl
  · rw [looks, looks, validator]
    exact cuts.valid v
  · rw [looks, looks, validator]
    exact cuts.valids v

/-- The checker of a tag is cut off where a leaf is asked for which there are not levels enough. -/
theorem CutsOff.resolve (cuts : e.CutsOff registryOf h e') (builtIn : e.factory = .ofCatalog d)
    (c : Value) (m : Member) (v : Value) (t : Tag) :
    Cut e.config.maxDepth False
      (Option.Rel fun own own' => Cut e.config.maxDepth (e.Overtaxes registryOf h c m v t) Eq
        ((own h v).answer registryOf) ((own' h v).answer registryOf))
      ((e.factory.resolve (e.contextOf h c m t)).answer registryOf)
      ((e'.factory.resolve (e'.contextOf h c m t)).answer registryOf) := by
  have shape : Cut e.config.maxDepth False (Option.Rel fun _ _ => True)
      ((e.factory.resolve (e.contextOf h c m t)).answer registryOf)
      ((e'.factory.resolve (e'.contextOf h c m t)).answer registryOf) := by
    rw [cuts.factory, builtIn]
    exact Factory.cut_resolve _ _ rfl
  refine shape.imp id ?_
  intro checker checker' resolved resolved' alike
  obtain ⟨judges, -⟩ := Factory.resolve_eq_ok registryOf _ _ h v resolved
  obtain ⟨judges', -⟩ := Factory.resolve_eq_ok registryOf _ _ h v resolved'
  cases alike with
  | none => exact .none
  | @some own own' _ =>
      have said : (own h v).answer registryOf = _ := judges
      have said' : (own' h v).answer registryOf = _ := judges'
      have catalog : e'.factory.catalog = e.factory.catalog := cuts.toAlike.catalog
      refine .some ?_
      rw [said, said', catalog]
      refine (Cut.firstInvalid (cuts.leafVerdict builtIn c m v t) _).because ?_
      rintro ⟨before, leaf, after, listed, satisfied, overruns⟩
      exact ⟨leaf, ⟨before, after, listed, satisfied⟩, overruns⟩

theorem CutsOff.judge (cuts : e.CutsOff registryOf h e') (builtIn : e.factory = .ofCatalog d)
    (c : Value) (m : Member) (v : Value) (tags : List Tag) :
    Cut e.config.maxDepth (∃ t ∈ tags, e.Overtaxes registryOf h c m v t) Eq
      ((Engine.judge e.factory (e.contextOf h c m) h v tags).answer registryOf)
      ((Engine.judge e'.factory (e'.contextOf h c m) h v tags).answer registryOf) := by
  induction tags with
  | nil => exact .result rfl
  | cons t tags ih =>
      have later : Cut e.config.maxDepth (∃ s ∈ t :: tags, e.Overtaxes registryOf h c m v s) Eq
          _ _ := ih.because fun ⟨s, hs, given⟩ => ⟨s, List.mem_cons_of_mem _ hs, given⟩
      rw [Engine.judge, Engine.judge]
      refine ((cuts.resolve builtIn c m v t).because False.elim).answer_bind ?_
      intro checker checker' related
      cases related with
      | none => exact later
      | some here =>
          refine (here.because fun given => ⟨t, List.mem_cons_self, given⟩).answer_bind ?_
          rintro verdict _ rfl
          refine later.answer_bind ?_
          rintro rest _ rfl
          exact .result rfl

theorem CutsOff.memberElements (cuts : e.CutsOff registryOf h e')
    (builtIn : e.factory = .ofCatalog d) (c : Value) (m : Member) :
    Cut e.config.maxDepth (m.readable = true ∧ ∃ v, (m.readIn h c).answer registryOf = .ok v ∧
        ∃ t ∈ m.tags, e.Overtaxes registryOf h c m v t) Eq
      ((e.memberElements (e.factory.create h) (e.asRunning h) h c m).answer registryOf)
      ((e'.memberElements (e'.factory.create h) (e'.asRunning h) h c m).answer registryOf) := by
  rw [Engine.memberElements, Engine.memberElements, Query.answer_bind, Query.answer_bind,
    Query.answer_registry, Query.answer_registry, cuts.toAlike.catalog]
  simp only [Except.bind]
  cases able : m.tags.any (registryOf e.catalog).isConstraint && m.readable with
  | false => exact .result rfl
  | true =>
      refine (Cut.element _).answer_bind ?_
      rintro v _ ⟨rfl, read⟩
      have readable := (Bool.and_eq_true_iff.1 able).2
      refine ((cuts.judge builtIn c m v m.tags).because fun given =>
        ⟨readable, v, read, given⟩).answer_bind ?_
      rintro js _ rfl
      exact .result rfl

theorem CutsOff.elementsOf (cuts : e.CutsOff registryOf h e') (builtIn : e.factory = .ofCatalog d)
    (c : Value) (ms : List Member) :
    Cut e.config.maxDepth (∃ m ∈ ms, m.readable = true ∧ ∃ v,
        (m.readIn h c).answer registryOf = .ok v ∧
          ∃ t ∈ m.tags, e.Overtaxes registryOf h c m v t) Eq
      ((e.elementsOf (e.factory.create h) (e.asRunning h) h c ms).answer registryOf)
      ((e'.elementsOf (e'.factory.create h) (e'.asRunning h) h c ms).answer registryOf) :=
  Cut.parts (e.memberElements (e.factory.create h) (e.asRunning h) h c)
    (e'.memberElements (e'.factory.create h) (e'.asRunning h) h c) rfl rfl (fun _ _ => rfl)
    (fun _ _ => rfl) fun m _ => cuts.memberElements builtIn c m

theorem Outlasts.cutsOff (outlasts : e.Outlasts e')
    (further : ∀ below below', e.nested = .ok below → below.Outlasts below' → ∀ c,
      Cut below.config.maxDepth (below.Exceeds registryOf h c) Eq
        ((below.validate h c).answer registryOf) ((below'.validate h c).answer registryOf)) :
    e.CutsOff registryOf h e' := by
  refine ⟨outlasts.toAlike, fun below nested => ?_⟩
  obtain ⟨below', nested', lasts⟩ := outlasts.exists_nested nested
  refine ⟨below', nested', fun c => ?_⟩
  rw [← config_of_nested nested]
  exact further below below' nested lasts c

/-- A bound on levels does nothing but cut a run off, where a chain of descents uses up
all levels and a value is to be looked into at its end. -/
theorem cut_validate (builtIn : e.factory = .ofCatalog d) (outlasts : e.Outlasts e') (c : Value) :
    Cut e.config.maxDepth (e.Exceeds registryOf h c) Eq ((e.validate h c).answer registryOf)
      ((e'.validate h c).answer registryOf) := by
  -- Along the levels: the runs further down are cut off, and so is what is built on them.
  induction e using wellFounded_nested.induction generalizing e' c with
  | _ e ih =>
      have cuts : e.CutsOff registryOf h e' := by
        refine outlasts.cutsOff fun below below' nested lasts c => ?_
        exact ih below nested ((alike_of_nested nested).factory.trans builtIn) lasts c
      rw [validate, validate, runWith, runWith, outlasts.toAlike.catalog, outlasts.deep,
        outlasts.toAlike.accepts]
      refine (Cut.element _).answer_bind ?_
      rintro ms _ ⟨rfl, listed⟩
      refine ((cuts.elementsOf builtIn c _).because ?_).answer_bind ?_
      · rintro ⟨m, hm, readable, v, read, t, tagged, leaf, asks, overruns⟩
        obtain ⟨member, accepted⟩ := List.mem_filter.1 hm
        have looks : e.Looks registryOf h c m v := ⟨⟨ms, listed, member⟩, accepted, readable, read⟩
        have alike : e.Alike e := ⟨rfl, rfl, rfl⟩
        exact exceeds_of_overruns ⟨e, m, t, leaf, alike, looks, tagged, asks, rfl⟩ overruns
      · rintro found _ rfl
        exact .result rfl

/-- Engines that look at the same members agree on what a validator says if it says
something in both. -/
theorem Alike.eq_of_leafVerdict (alike : e.Alike e') (builtIn : e.factory = .ofCatalog d)
    {t : Tag} {leaf : Leaf} {a b : Verdict}
    (said : e.factory.leafVerdict registryOf (e.contextOf h c m t) h v leaf = .ok a)
    (said' : e'.factory.leafVerdict registryOf (e'.contextOf h c m t) h v leaf = .ok b) :
    a = b := by
  -- Of two such engines one has the levels of the other.
  have agree : ∀ {e e' : Engine} {a b : Verdict}, e.Outlasts e' → e.factory = .ofCatalog d →
      e.factory.leafVerdict registryOf (e.contextOf h c m t) h v leaf = .ok a →
      e'.factory.leafVerdict registryOf (e'.contextOf h c m t) h v leaf = .ok b → a = b := by
    intro e e' a b outlasts builtIn said said'
    have cuts : e.CutsOff registryOf h e' := outlasts.cutsOff fun _ _ nested lasts =>
      cut_validate ((alike_of_nested nested).factory.trans builtIn) lasts
    have cut := cuts.leafVerdict builtIn c m v t leaf
    rw [said, said'] at cut
    cases cut with
    | done same => exact same
  rcases Nat.le_total e.levels e'.levels with le | le
  · exact agree ⟨alike, le⟩ builtIn said said'
  · exact (agree ⟨alike.symm, le⟩ (alike.factory.trans builtIn) said' said).symm

/-- In a run that comes to a report every validator that is asked says something. -/
theorem Consults.exists_leafVerdict {id : String} {r : Report}
    (consults : e.Consults registryOf h c id v) (builtIn : e.factory = .ofCatalog d)
    (done : (e.validate h c).answer registryOf = .ok r) :
    ∃ m t leaf verdict, leaf.validator = id ∧
      e.factory.leafVerdict registryOf (e.contextOf h c m t) h v leaf = .ok verdict := by
  obtain ⟨e', m, t, leaf, alike, looks, tagged, ⟨before, after, leaves, satisfied⟩, validator⟩ :=
    consults
  refine ⟨m, t, leaf, ?_⟩
  have catalog : e'.factory.catalog = e.catalog := alike.catalog
  rw [catalog] at leaves
  have leaves : leavesAmong (registryOf e.catalog).tags t = before ++ leaf :: after := leaves
  have constraint : (registryOf e.catalog).isConstraint t = true := by
    cases mark : (registryOf e.catalog).isConstraint t with
    | true => rfl
    | false =>
        rw [Factory.leavesAmong_eq_nil mark] at leaves
        simp at leaves
  obtain ⟨verdict, judged⟩ :=
    exists_firstInvalid_of_looks done (alike.symm.looks looks) tagged constraint
  cases valid : verdict.isValid with
  | true =>
      cases Verdict.isValid_eq_true.1 valid
      refine ⟨.valid, validator, firstInvalid_eq_valid_iff.1 judged leaf ?_⟩
      rw [leaves]
      exact List.mem_append_right _ List.mem_cons_self
  | false =>
      obtain ⟨before', leaf', after', leaves', satisfied', said⟩ :=
        (firstInvalid_eq_ok_iff valid).1 judged
      -- The run does not stop before the leaf in question, which says something in turn.
      rcases mem_or_eq_or_mem_of_append_eq (leaves.symm.trans leaves') with hl | rfl | hl
      · cases alike.eq_of_leafVerdict builtIn said (satisfied leaf' hl)
        cases valid
      · exact ⟨verdict, validator, said⟩
      · exact ⟨.valid, validator, satisfied' leaf hl⟩

/-- A run that comes to a report has gone down wherever a validator goes down. -/
theorem exists_nested_of_goesDown {id : String} {r : Report}
    (consults : e.Consults registryOf h c id v) (goesDown : Rule.GoesDown id v)
    (builtIn : e.factory = .ofCatalog d) (done : (e.validate h c).answer registryOf = .ok r) :
    ∃ below, e.nested = .ok below := by
  obtain ⟨m, t, leaf, verdict, validator, said⟩ := consults.exists_leafVerdict builtIn done
  rw [builtIn] at said
  cases goesDown with
  | valid container =>
      obtain ⟨below, -, nested, -⟩ :=
        valid_container_eq_ok container (Factory.valid_of_leafVerdict said validator)
      exact ⟨below, nested⟩
  | valids iterates =>
      obtain ⟨below, -, -, nested, -⟩ :=
        valids_items_eq_ok iterates (Factory.valids_of_leafVerdict said validator)
      exact ⟨below, nested⟩

/-- A run that comes to a report has come to one in every container that it goes down into. -/
theorem exists_validate_of_enters {id : String} {w : Value} {r : Report}
    (consults : e.Consults registryOf h c id v) (enters : e.Enters registryOf h id v w)
    (builtIn : e.factory = .ofCatalog d) (done : (e.validate h c).answer registryOf = .ok r) :
    ∃ below r', e.nested = .ok below ∧ (below.validate h w).answer registryOf = .ok r' := by
  obtain ⟨m, t, leaf, verdict, validator, said⟩ := consults.exists_leafVerdict builtIn done
  rw [builtIn] at said
  cases enters with
  | valid container =>
      obtain ⟨below, r', nested, done', -⟩ :=
        valid_container_eq_ok container (Factory.valid_of_leafVerdict said validator)
      exact ⟨below, r', nested, done'⟩
  | valids iterates itemized listed read container =>
      obtain ⟨below, items, parts, nested, itemized', hparts, -⟩ :=
        valids_items_eq_ok iterates (Factory.valids_of_leafVerdict said validator)
      cases itemized.symm.trans itemized'
      obtain ⟨part, -, here⟩ := exists_of_forall₂ hparts.flip listed
      obtain ⟨w', read', ⟨-, r', done', -⟩ | ⟨scalar, -⟩⟩ := itemElements_eq_ok here
      · cases read.symm.trans read'
        exact ⟨below, r', nested, done'⟩
      · cases read.symm.trans read'
        rw [scalar] at container
        cases container

/-- A run that comes to a report has the levels that it takes. -/
theorem not_exceeds_of_validate {r : Report} (builtIn : e.factory = .ofCatalog d)
    (done : (e.validate h c).answer registryOf = .ok r) : ¬ e.Exceeds registryOf h c := by
  induction e using wellFounded_nested.induction generalizing c r with
  | _ e ih =>
      rintro ⟨c', chain, opens⟩
      generalize left : e.levels = n at chain
      -- Each descent of the chain takes a level, and at its end there is none left to go down.
      cases chain with
      | here =>
          obtain ⟨id, v, consults, goesDown⟩ := opens
          obtain ⟨below, nested⟩ := exists_nested_of_goesDown consults goesDown builtIn done
          have := levels_of_nested nested
          omega
      | @down k _ _ _ _ _ consults enters further =>
          obtain ⟨below, r', nested, done'⟩ :=
            exists_validate_of_enters consults enters builtIn done
          have alike := alike_of_nested nested
          have levels : below.levels = k := Nat.succ.inj ((levels_of_nested nested).symm.trans left)
          refine ih below nested (alike.factory.trans builtIn) done' ⟨c', ?_, opens.alike alike⟩
          rw [levels]
          exact further.alike alike

end Engine

/-- A run is cut off by its bound where all levels are used up by a chain of descents
and a value is to be looked into at its end.  A run that fails for its depth meets such
a place, one that meets it comes to no report, and a run that does not fail for its
depth has the same outcome under every wider bound.  Where no chain of descents is
longer than there are levels, that value is a list or map that holds no container, and
the run is cut off although there is nothing to go down to. -/
theorem runs_are_cut_off_where_levels_end [PatternEngine] {w : World} {e : Engine}
    {d : CatalogRef} (builtIn : e.factory = .ofCatalog d) (target : Value) :
    let outcome := fun e : Engine => (Query.run w fun h => e.validate h target).1
    let exceeds := e.Exceeds w.catalogs.registry w.heap target
    (∀ k, outcome e = .error (.depthExceeded k) → k = e.config.maxDepth ∧ exceeds) ∧
    (exceeds → ∀ r, outcome e ≠ .ok r) ∧
    (outcome e = .error (.depthExceeded e.config.maxDepth) ∨
      ∀ e', e.Outlasts e' → outcome e' = outcome e) ∧
    ((∀ n c, e.Chain w.catalogs.registry w.heap n target c → n ≤ e.levels) →
      (exceeds ↔ ∃ c, e.Chain w.catalogs.registry w.heap e.levels target c ∧
        e.OpensInVain w.catalogs.registry w.heap c)) := by
  intro outcome exceeds
  have answers (e : Engine) : outcome e = (e.validate w.heap target).answer w.catalogs.registry :=
    Query.run_fst w fun h => e.validate h target
  have cut : ∀ e', e.Outlasts e' →
      Cut e.config.maxDepth exceeds Eq (outcome e) (outcome e') := by
    intro e' outlasts
    rw [answers, answers]
    exact Engine.cut_validate builtIn outlasts target
  refine ⟨?_, ?_, ?_, Engine.exceeds_iff_of_chains_le⟩
  · intro k failed
    have cut := cut e (.refl e)
    rw [failed] at cut
    cases cut with
    | exceeded reason => exact ⟨rfl, reason⟩
    | failed other => exact absurd rfl (other k)
  · intro given r done
    rw [answers] at done
    exact Engine.not_exceeds_of_validate builtIn done given
  · by_cases failed : outcome e = .error (.depthExceeded e.config.maxDepth)
    · exact Or.inl failed
    · refine Or.inr fun e' outlasts => ?_
      have cut := cut e' outlasts
      generalize outcome e = x, outcome e' = y at cut failed
      cases cut with
      | exceeded => exact absurd rfl failed
      | failed => rfl
      | done same => rw [same]

/-- Pallets with a box that is to be valid, with items that are to be valid. -/
def pallets : List Definition :=
  BuiltIn.drafts.map .tag ++
    [.type ((TypeDraft.plain "Box").withField
      { Field.plain "items" (.list .any) with tags := [.plain BuiltIn.valids] }),
     .type ((TypeDraft.plain "Pallet").withField
      { Field.plain "box" (.object "Box") with tags := [.plain BuiltIn.valid] })]

def box : Value := .object ⟨0, "Box", []⟩

def pallet : Value := .object ⟨1, "Pallet", []⟩

/-- The pallet has the box, which has numbers for items. -/
def palletWorld : World :=
  ⟨{ Heap.empty with
      objects := ⟨#[.ofList [("items", .list ⟨0, .any⟩)], .ofList [("box", box)]]⟩
      lists := ⟨#[[.int 1, .int 2]]⟩ },
   (Catalogs.empty.add (Builder.empty.declareAll pallets).build).2⟩

/-- An engine that may go down once. -/
def palletEngine : Engine := .unchecked (.ofCatalog ⟨0⟩) ⟨true, 1⟩

theorem box_leads_nowhere {n : Nat} {c : Value}
    (chain : palletEngine.Chain palletWorld.catalogs.registry palletWorld.heap n box c) :
    n = 0 := by
  cases chain with
  | here => rfl
  | down consults enters further =>
      obtain ⟨validator, rfl⟩ := consults.eq_of_singleton rfl rfl rfl rfl
      cases enters with
      | valid => exact absurd validator (by decide)
      | valids iterates itemized listed read container =>
          cases itemized
          rcases List.mem_cons.1 listed with rfl | listed
          · cases read
            cases container
          · cases List.mem_singleton.1 listed
            cases read
            cases container

theorem pallet_leads_to_box {n : Nat} {c : Value}
    (chain : palletEngine.Chain palletWorld.catalogs.registry palletWorld.heap n pallet c) :
    n ≤ 1 := by
  cases chain with
  | here => exact Nat.zero_le 1
  | down consults enters further =>
      obtain ⟨validator, rfl⟩ := consults.eq_of_singleton rfl rfl rfl rfl
      cases enters with
      | valid =>
          cases box_leads_nowhere further
          exact Nat.le_refl 1
      | valids => exact absurd validator (by decide)

/-- From the pallet there is no more than one descent, and an engine that may go down
once fails all the same. -/
theorem pallet_is_too_deep_for_one_descent :
    palletEngine.config.maxDepth = 1 ∧ palletEngine.depth = 0 ∧
    (∀ n c, palletEngine.Chain palletWorld.catalogs.registry palletWorld.heap n pallet c →
      n ≤ 1) ∧
    (Query.run palletWorld fun h => palletEngine.validate h pallet).1 =
      .error (.depthExceeded 1) :=
  ⟨rfl, rfl, fun _ _ chain => pallet_leads_to_box chain, rfl⟩

/-- The pallet takes a second level for the items of the box, to no purpose, and with it
the pallet is valid under every bound. -/
theorem pallet_takes_a_second_level :
    (∃ c, palletEngine.Chain palletWorld.catalogs.registry palletWorld.heap 1 pallet c ∧
      palletEngine.OpensInVain palletWorld.catalogs.registry palletWorld.heap c) ∧
    ∀ max, 2 ≤ max →
      (Query.run palletWorld fun h => (palletEngine.within max).validate h pallet).1 =
        .ok (.ofElements pallet []) := by
  constructor
  · obtain ⟨fails, -, -, bounded⟩ :=
      runs_are_cut_off_where_levels_end (w := palletWorld) (e := palletEngine) (d := ⟨0⟩) rfl
        pallet
    obtain ⟨-, exceeds⟩ := fails 1 rfl
    exact (bounded fun n c chain => pallet_leads_to_box chain).1 exceeds
  · obtain ⟨-, -, done | stable, -⟩ :=
      runs_are_cut_off_where_levels_end (w := palletWorld) (e := palletEngine.within 2) (d := ⟨0⟩)
        rfl pallet
    · cases done
    · intro max le
      exact stable _ (Engine.outlasts_within le)

end Memberwise
