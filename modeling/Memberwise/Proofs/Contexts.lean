import Memberwise.Constraint.Engine
import Memberwise.Constraint.Rule.Further
import Memberwise.Proofs.Levels

/-!
# Contexts that a run hands out

A run hands a context to whatever builds a checker.  Two factories that build alike in
certain contexts go through a run alike if the run hands out no others, and that is
what is meant by it here (`Engine.HandsOnly`).  The target of a context is always the
container to which its member is bound (`targets_are_own_containers`).  At the top of a
run that is the root; one level further down it is the value inside, and not the root.
-/

namespace Memberwise

/-- Two factories know the same validators, and build their checkers alike in the
contexts of a kind. -/
structure Factory.AlikeIn (kind : Context → Prop) (f g : Factory) : Prop where
  catalog : f.catalog = g.catalog
  registrations : ∀ id, Option.Rel
    (fun r s => r.requires = s.requires ∧ ∀ ctx, kind ctx → r.build ctx = s.build ctx)
    (f.registrations.get? id) (g.registrations.get? id)

/-- The engine with another factory. -/
def Engine.withFactory (e : Engine) (f : Factory) : Engine :=
  { e with factory := f }

/-- In a run only contexts of a kind are handed to builders: how checkers are built in
others does not show, neither in the outcome nor in what has been asked and is kept. -/
def Engine.HandsOnly (e : Engine) (kind : Context → Prop) (w : World) (root : Value) : Prop :=
  ∀ f, e.factory.AlikeIn kind f →
    (Query.run w fun h => e.validate h root) =
      Query.run w fun h => (e.withFactory f).validate h root

/-- A context names the container to which its member is bound, and the member passes
the filter of the running engine.  At the top of a run the member is one of the root.
Where a checker is built outside of any run there is neither member nor target. -/
structure Context.Local (root : Value) (ctx : Context) : Prop where
  own : ctx.target = ctx.member.bind (·.target)
  accepted : ∀ m, ctx.member = some m → ctx.engine.filter.all (fun p => p m) = true
  top : ctx.engine.depth = 0 → ∀ m, ctx.member = some m → m.target = some root

theorem Query.ofExcept_ok {ε α : Type} (a : α) : (ofExcept (.ok a) : Query ε α) = pure a := rfl

namespace Factory.AlikeIn

variable {kind : Context → Prop} {f g : Factory} {ctx : Context}

theorem construct_eq (alike : f.AlikeIn kind g) (here : kind ctx) (id : String) :
    f.construct ctx id = g.construct ctx id := by
  have known := alike.registrations id
  simp only [construct, registration]
  generalize f.registrations.get? id = r at known ⊢
  generalize g.registrations.get? id = s at known ⊢
  cases known with
  | none => rfl
  | some same => simp only [Query.ofExcept_ok, pure_bind, same.1, same.2 ctx here]

/-- Composite tags hand their context on to their parts, with another tag in it. -/
theorem resolveAmong_eq (alike : f.AlikeIn kind g) (here : ∀ t, kind (ctx.withTag t))
    (ds : List TagDefinition) (t : Tag) : f.resolveAmong ctx ds t = g.resolveAmong ctx ds t := by
  induction ds generalizing t with
  | nil => rfl
  | cons d older ih =>
      simp only [resolveAmong, alike.construct_eq (here t), ih]

theorem resolve_eq (alike : f.AlikeIn kind g) (here : ∀ t, kind (ctx.withTag t)) :
    f.resolve ctx = g.resolve ctx := by
  rw [resolve, resolve, alike.catalog]
  congr 1
  funext r
  exact alike.resolveAmong_eq here r.tags ctx.tag

theorem judge_eq (alike : f.AlikeIn kind g) (place : Tag → Context)
    (here : ∀ t u, kind ((place t).withTag u)) (h : Heap) (v : Value) (ts : List Tag) :
    Engine.judge f place h v ts = Engine.judge g place h v ts := by
  induction ts with
  | nil => rfl
  | cons t rest ih => simp only [Engine.judge, alike.resolve_eq (here t), ih]

end Factory.AlikeIn

namespace Engine

variable {kind : Context → Prop} {e : Engine} {f : Factory} {create : Creator} {running : Running}
  {h : Heap} {target root : Value}

theorem running_withFactory (alike : e.factory.AlikeIn kind f)
    (nested : Option MemberPredicate → Except ConstraintError Run) :
    (e.withFactory f).running nested = e.running nested := by
  simp only [Engine.running, catalog, withFactory, alike.catalog]

theorem memberElements_withFactory (alike : e.factory.AlikeIn kind f) {m : Member}
    (here : ∀ t, kind ⟨t, some m, some target, running, create⟩) :
    e.memberElements create running h target m =
      (e.withFactory f).memberElements create running h target m := by
  have judged := fun v => alike.judge_eq (fun t => ⟨t, some m, some target, running, create⟩)
    (fun _ u => here u) h v m.tags
  simp only [memberElements, catalog, withFactory, alike.catalog, judged]

theorem elementsOf_withFactory (alike : e.factory.AlikeIn kind f) {ms : List Member}
    (here : ∀ m ∈ ms, ∀ t, kind ⟨t, some m, some target, running, create⟩) :
    e.elementsOf create running h target ms =
      (e.withFactory f).elementsOf create running h target ms := by
  induction ms with
  | nil => rfl
  | cons m rest ih =>
      have first := memberElements_withFactory (h := h) alike (here m List.mem_cons_self)
      have later := ih (fun n hn => here n (List.mem_cons_of_mem m hn))
      simp only [elementsOf, first, later]

end Engine

/-- An error is renamed before or after a look at the result. -/
theorem Query.mapError_bind_pure {ε δ α β : Type} (c : ε → δ) (q : Query ε α) (f : α → β) :
    (q >>= fun a => pure (f a)).mapError c = q.mapError c >>= fun a => pure (f a) := by
  apply ExceptT.ext
  show Except.mapError c <$> (ExceptT.run q >>= ExceptT.bindCont fun a => pure (f a)) =
    (Except.mapError c <$> ExceptT.run q) >>= ExceptT.bindCont fun a => pure (f a)
  rw [map_bind, bind_map_left]
  congr 1
  funext result
  cases result with
  | error e => rfl
  | ok a => rfl

/-- Whatever is done with the members of a container is done with members bound to it. -/
theorem CatalogRef.membersOf_mapError_bind {ε α : Type} (c : MemberError → ε) (d : CatalogRef)
    (h : Heap) (target : Value) (deep : Bool) (k : List Member → Query ε α) :
    (d.membersOf h target deep).mapError c >>= k =
      (d.templatesOf h target deep).mapError c >>= fun ts =>
        k (ts.map fun t => .ofTemplate t (some target)) := by
  rw [membersOf, Query.mapError_bind_pure, bind_assoc]
  simp only [pure_bind]

namespace Engine

variable {e : Engine} {f : Factory} {create : Creator} {h : Heap} {target root : Value}

/-- A run hands out contexts of the members that its filter accepts, bound to the
container that it validates. -/
theorem runWith_withFactory (alike : e.factory.AlikeIn (Context.Local root) f)
    (nested : Option MemberPredicate → Except ConstraintError Run)
    (top : e.depth = 0 → target = root) :
    e.runWith create nested h target = (e.withFactory f).runWith create nested h target := by
  have elements : ∀ ts : List Template,
      e.elementsOf create (e.running nested) h target
          ((ts.map fun t => .ofTemplate t (some target)).filter e.accepts) =
        (e.withFactory f).elementsOf create (e.running nested) h target
          ((ts.map fun t => .ofTemplate t (some target)).filter e.accepts) := by
    intro ts
    apply elementsOf_withFactory alike
    intro m hm t
    obtain ⟨listed, accepted⟩ := List.mem_filter.1 hm
    obtain ⟨template, -, rfl⟩ := List.mem_map.1 listed
    refine ⟨rfl, ?_, ?_⟩
    · rintro m ⟨⟩
      exact accepted
    · rintro here m ⟨⟩
      exact congrArg some (top here)
  have catalog : (e.withFactory f).catalog = e.catalog := alike.catalog.symm
  rw [runWith, runWith, CatalogRef.membersOf_mapError_bind, CatalogRef.membersOf_mapError_bind,
    running_withFactory alike, catalog]
  congr 1
  funext ts
  rw [elements]
  rfl

/-- Runs further down are never at the top, so any container may be their target. -/
theorem inner_withFactory (alike : e.factory.AlikeIn (Context.Local root) f) (n : Nat)
    (filter : Option MemberPredicate) :
    inner create n e filter = inner create n (e.withFactory f) filter := by
  induction n generalizing e filter with
  | zero => rfl
  | succ n ih =>
      -- The runs below are alike already, so the engines see the same way further down.
      let below : Engine := { e with filter := filter, depth := e.depth + 1 }
      have further : inner create n (below.withFactory f) = inner create n below :=
        funext fun filter => (ih (e := below) alike filter).symm
      show Except.ok (below.runWith create (inner create n below)) =
        .ok ((below.withFactory f).runWith create (inner create n (below.withFactory f)))
      rw [further]
      congr 1
      funext h target
      exact runWith_withFactory (e := below) alike _ (fun here => absurd here (Nat.succ_ne_zero _))

end Engine

namespace Factory.AlikeIn

variable {f g : Factory} {root : Value}

/-- Outside of any run contexts have neither member nor target. -/
theorem createWithin_eq (alike : f.AlikeIn (Context.Local root) g) (n : Nat) :
    f.createWithin n = g.createWithin n := by
  induction n with
  | zero => rfl
  | succ n ih =>
      funext t
      let fresh := Engine.unchecked f .standard
      have inner : Engine.inner (g.createWithin n) fresh.levels (fresh.withFactory g) =
          Engine.inner (f.createWithin n) fresh.levels fresh := by
        rw [ih]
        exact funext fun filter => (Engine.inner_withFactory alike _ filter).symm
      show f.resolve ⟨t, none, none, fresh.running _, f.createWithin n⟩ =
        g.resolve ⟨t, none, none, (fresh.withFactory g).running
          (Engine.inner (g.createWithin n) fresh.levels (fresh.withFactory g)), g.createWithin n⟩
      rw [inner, Engine.running_withFactory (e := fresh) alike, ← ih]
      apply alike.resolve_eq
      intro u
      refine ⟨rfl, ?_, ?_⟩
      · rintro m ⟨⟩
      · rintro - m ⟨⟩

theorem create_eq (alike : f.AlikeIn (Context.Local root) g) (h : Heap) :
    f.create h = g.create h := by
  funext t
  have steps : f.createSteps h = g.createSteps h := by
    rw [createSteps, createSteps, alike.catalog]
  simp only [create, steps, alike.createWithin_eq]

end Factory.AlikeIn

namespace Engine

variable {e : Engine} {f : Factory} {root : Value}

theorem validate_withFactory (alike : e.factory.AlikeIn (Context.Local root) f) (h : Heap) :
    e.validate h root = (e.withFactory f).validate h root := by
  have further : inner (e.factory.create h) e.levels (e.withFactory f) =
      inner (e.factory.create h) e.levels e :=
    funext fun filter => (inner_withFactory alike _ filter).symm
  show _ = (e.withFactory f).runWith (f.create h)
    (inner (f.create h) e.levels (e.withFactory f)) h root
  rw [← alike.create_eq h, further]
  exact runWith_withFactory alike _ (fun _ => rfl)

theorem handsOnly_local (e : Engine) (w : World) (root : Value) :
    e.HandsOnly (Context.Local root) w root := by
  intro f alike
  congr 1
  funext h
  exact validate_withFactory alike h

end Engine

/-! Factories that build differently in two kinds of contexts. -/

namespace Dict

variable {α : Type}

/-- Other values under the same keys. -/
def mapValues (f : String → α → α) (d : Dict α) : Dict α where
  pairs := d.pairs.map fun p => (p.1, f p.1 p.2)
  ascending := by
    rw [Pairs.Ascending, List.pairwise_map]
    exact d.ascending

theorem get?_mapValues (f : String → α → α) (d : Dict α) (key : String) :
    (d.mapValues f).get? key = (d.get? key).map (f key) := by
  show Pairs.get? key (d.pairs.map fun p => (p.1, f p.1 p.2)) = (Pairs.get? key d.pairs).map (f key)
  induction d.pairs with
  | nil => rfl
  | cons p rest ih =>
      by_cases here : p.1 = key
      · simp [Pairs.get?, here]
      · simp [Pairs.get?, here, ih]

end Dict

open Classical in
/-- Builds as the second registration in contexts of a kind, and as the first in others. -/
noncomputable def Registration.mixed (r s : Registration) (kind : Context → Prop) : Registration :=
  { s with build := fun ctx => if kind ctx then s.build ctx else r.build ctx }

namespace Registration

variable {kind : Context → Prop} {ctx : Context}

theorem build_mixed (r s : Registration) (here : kind ctx) :
    (r.mixed s kind).build ctx = s.build ctx := if_pos here

theorem build_mixed_of_not (r s : Registration) (elsewhere : ¬kind ctx) :
    (r.mixed s kind).build ctx = r.build ctx := if_neg elsewhere

end Registration

namespace Factory

variable {kind within : Context → Prop} {f g : Factory}

/-- Builds as the second factory in contexts of a kind, and as the first in others. -/
noncomputable def mixed (f g : Factory) (kind : Context → Prop) : Factory :=
  { g with
    registrations := g.registrations.mapValues fun id s =>
      .mixed ((f.registrations.get? id).getD s) s kind }

theorem alikeIn_mixed (f g : Factory) (kind : Context → Prop) :
    g.AlikeIn kind (f.mixed g kind) where
  catalog := rfl
  registrations id := by
    rw [mixed, Dict.get?_mapValues]
    cases g.registrations.get? id with
    | none => exact .none
    | some s => exact .some ⟨rfl, fun ctx here => (Registration.build_mixed _ s here).symm⟩

theorem alikeIn_register (f : Factory) (id : String) {r s : Registration}
    (requires : r.requires = s.requires) (build : ∀ ctx, kind ctx → r.build ctx = s.build ctx) :
    (f.register id r).AlikeIn kind (f.register id s) where
  catalog := rfl
  registrations other := by
    by_cases same : other = id
    · subst same
      rw [register, register, Dict.get?_insert_self, Dict.get?_insert_self]
      exact .some ⟨requires, build⟩
    · rw [register, register, Dict.get?_insert_of_ne _ _ _ _ same,
        Dict.get?_insert_of_ne _ _ _ _ same]
      cases f.registrations.get? other with
      | none => exact .none
      | some r => exact .some ⟨rfl, fun _ _ => rfl⟩

/-- The mixture differs from the first factory only where the second does. -/
theorem AlikeIn.mixed_left (alike : f.AlikeIn (fun ctx => kind ctx ∧ within ctx) g) :
    f.AlikeIn kind (f.mixed g within) where
  catalog := alike.catalog
  registrations id := by
    have known := alike.registrations id
    rw [mixed, Dict.get?_mapValues]
    generalize f.registrations.get? id = r at known ⊢
    generalize g.registrations.get? id = s at known ⊢
    cases known with
    | none => exact .none
    | @some r s same =>
        refine .some ⟨same.1, ?_⟩
        intro ctx here
        by_cases inside : within ctx
        · exact (same.2 ctx ⟨here, inside⟩).trans (r.build_mixed s inside).symm
        · exact (r.build_mixed_of_not s inside).symm

end Factory

namespace Engine.HandsOnly

variable {kind kind' : Context → Prop} {e : Engine} {w : World} {root : Value}

theorem mono (hands : e.HandsOnly kind w root) (implies : ∀ ctx, kind ctx → kind' ctx) :
    e.HandsOnly kind' w root := by
  intro f alike
  refine hands f ⟨alike.catalog, ?_⟩
  intro id
  have known := alike.registrations id
  generalize e.factory.registrations.get? id = r at known ⊢
  generalize f.registrations.get? id = s at known ⊢
  cases known with
  | none => exact .none
  | some same => exact .some ⟨same.1, fun ctx here => same.2 ctx (implies ctx here)⟩

/-- Whatever a run hands out is local besides. -/
theorem and_local (hands : e.HandsOnly kind w root) :
    e.HandsOnly (fun ctx => kind ctx ∧ ctx.Local root) w root := by
  intro f alike
  -- The mixture is told from `f` in no local context, and from the engine's own factory in
  -- none of the kind.
  have far := (e.withFactory f).handsOnly_local w root _
    (e.factory.alikeIn_mixed f (Context.Local root))
  rw [hands _ alike.mixed_left]
  exact far.symm

end Engine.HandsOnly

/-- In any run, with whatever validators, a context has for its target the container to
which its member is bound, which is the root at the top.  So the target of all contexts
with a member is the root if, and only if, no member is handed out that is bound to
another container. -/
theorem targets_are_own_containers (e : Engine) (w : World) (root : Value) :
    e.HandsOnly (Context.Local root) w root ∧
    (e.HandsOnly (fun ctx => ∀ m, ctx.member = some m → ctx.target = some root) w root ↔
      e.HandsOnly (fun ctx => ∀ m, ctx.member = some m → m.target = some root) w root) := by
  refine ⟨e.handsOnly_local w root, ?_, ?_⟩
  · intro hands
    refine hands.and_local.mono ?_
    rintro ctx ⟨rooted, here⟩ m bound
    have own := here.own
    rw [rooted m bound, bound] at own
    exact own.symm
  · intro hands
    refine hands.and_local.mono ?_
    rintro ctx ⟨rooted, here⟩ m bound
    rw [here.own, bound]
    exact rooted m bound

/-- What a room leads back to must not be the room at which validation began. -/
def noReturn : TagDraft := ⟨"no_return", [], some "not_target", [], false⟩

def rooms : List Definition :=
  (BuiltIn.drafts ++ [noReturn]).map .tag ++
    [.type (((TypeDraft.plain "Room").withField
      { Field.plain "next" (.object "Room") with tags := [.plain BuiltIn.valid] }).withField
      { Field.plain "back" .any with tags := [.plain noReturn.name] })]

def hall : Value := .object ⟨0, "Room", []⟩

/-- The room next to the hall leads back there. -/
def roomWorld : World :=
  ⟨{ Heap.empty with
      objects := ⟨#[.ofList [("next", .object ⟨1, "Room", []⟩)], .ofList [("back", hall)]]⟩ },
   (Catalogs.empty.add (Builder.empty.declareAll rooms).build).2⟩

def roomEngine : Engine :=
  .unchecked ((Factory.ofCatalog ⟨0⟩).register "not_target" Rule.notTarget) .standard

/-- Refuses to build for members of other containers than the hall. -/
def hallOnly : Registration :=
  .plain fun ctx =>
    if ctx.member.isSome && !ctx.target.any (·.same hall) then throw (.unknownTag noReturn.name)
    else Rule.notTarget.build ctx

theorem build_hallOnly {ctx : Context}
    (rooted : ∀ m, ctx.member = some m → ctx.target = some hall) :
    Rule.notTarget.build ctx = hallOnly.build ctx := by
  have served : ¬(ctx.member.isSome && !ctx.target.any (·.same hall)) = true := by
    cases bound : ctx.member with
    | none => simp
    | some m => simp [rooted m bound, hall, Value.same]
  exact (if_neg served).symm

/-- The hall is not the target where the room next to it is checked: the way back is let
pass, and a builder that serves the hall only gets a context of the room. -/
theorem way_back_to_hall_is_missed :
    roomEngine.depth = 0 ∧
    (Query.run roomWorld fun h => roomEngine.validate h hall).1.map Report.elements = .ok [] ∧
    ¬roomEngine.HandsOnly (fun ctx => ∀ m, ctx.member = some m → ctx.target = some hall)
      roomWorld hall := by
  refine ⟨rfl, rfl, ?_⟩
  intro hands
  have alike := Factory.alikeIn_register (.ofCatalog ⟨0⟩) "not_target" (r := Rule.notTarget)
    (s := hallOnly) rfl fun ctx => build_hallOnly
  have refused : (Query.run roomWorld fun h => (roomEngine.withFactory
      ((Factory.ofCatalog ⟨0⟩).register "not_target" hallOnly)).validate h hall).1 =
        .error (.unknownTag noReturn.name) := rfl
  rw [← hands _ alike] at refused
  cases refused

end Memberwise
