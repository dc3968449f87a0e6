import Memberwise.Constraint.Engine
import Memberwise.Proofs.Verdicts

/-!
# Queries that get at least as far

One query refines to another if wherever it comes to a result the other one does,
and the two results are related; its failures are left open.  Checkers refine to
checkers that give the same verdicts, and what is built for a running engine
refines to what is built for one that can go down as far
(`Engine.refines_memberElements`).
-/

namespace Memberwise

namespace Query

variable {ε α α' β β' : Type} {registryOf : CatalogRef → Registry}

/-- Where the first query comes to a result, the second comes to a related one. -/
def Refines (registryOf : CatalogRef → Registry) (R : α → α' → Prop) (q : Query ε α)
    (q' : Query ε α') : Prop :=
  ∀ a, q.answer registryOf = .ok a → ∃ a', q'.answer registryOf = .ok a' ∧ R a a'

variable {R : α → α' → Prop} {S : β → β' → Prop} {q : Query ε α} {q' : Query ε α'}

theorem refines_self (q : Query ε α) : Refines registryOf Eq q q := by
  intro a done
  exact ⟨a, done, rfl⟩

theorem refines_pure {a : α} {a' : α'} (related : R a a') :
    Refines registryOf R (pure a : Query ε α) (pure a') := by
  intro b done
  cases done
  exact ⟨a', rfl, related⟩

theorem refines_ofExcept {x : Except ε α} {x' : Except ε α'}
    (h : ∀ a, x = .ok a → ∃ a', x' = .ok a' ∧ R a a') :
    Refines registryOf R (ofExcept x) (ofExcept x') := h

theorem Refines.bind {f : α → Query ε β} {f' : α' → Query ε β'} (first : Refines registryOf R q q')
    (rest : ∀ a a', R a a' → Refines registryOf S (f a) (f' a')) :
    Refines registryOf S (q >>= f) (q' >>= f') := by
  intro b done
  rw [answer_bind] at done
  obtain ⟨a, ha, done⟩ := bind_eq_ok.1 done
  obtain ⟨a', ha', related⟩ := first a ha
  obtain ⟨b', hb', related⟩ := rest a a' related b done
  refine ⟨b', ?_, related⟩
  rw [answer_bind, ha']
  exact hb'

/-- The second query goes on as the first, from the same result. -/
theorem Refines.bind_eq {q q' : Query ε α} {f : α → Query ε β} {f' : α → Query ε β'}
    (first : Refines registryOf Eq q q') (rest : ∀ a, Refines registryOf S (f a) (f' a)) :
    Refines registryOf S (q >>= f) (q' >>= f') := by
  refine first.bind ?_
  rintro a _ rfl
  exact rest a

theorem refines_mapM {f : α → Query ε β} {f' : α → Query ε β'}
    (each : ∀ a, Refines registryOf S (f a) (f' a)) (as : List α) :
    Refines registryOf (List.Forall₂ S) (as.mapM f) (as.mapM f') := by
  induction as with
  | nil => exact refines_pure .nil
  | cons a as ih =>
      rw [List.mapM_cons, List.mapM_cons]
      refine (each a).bind fun b b' here => ?_
      refine ih.bind fun bs bs' later => ?_
      exact refines_pure (.cons here later)

end Query

/-- On one heap, whatever the first gives for a value, the second gives as well. -/
def RefinesOn {ε α : Type} (registryOf : CatalogRef → Registry) (h : Heap)
    (f f' : Heap → Value → Query ε α) : Prop :=
  ∀ v, Query.Refines registryOf Eq (f h v) (f' h v)

/-- The second engine can go down where the first can, to runs that report the same. -/
structure Running.Refines (registryOf : CatalogRef → Registry) (h : Heap) (e e' : Running) :
    Prop where
  catalog : e'.catalog = e.catalog
  descend : ∀ run, e.descend = .ok run → ∃ run', e'.descend = .ok run' ∧
    RefinesOn registryOf h run run'

/-- Two contexts of one tag, which may stand in different places. -/
structure Context.Refines (registryOf : CatalogRef → Registry) (h : Heap) (ctx ctx' : Context) :
    Prop where
  tag : ctx'.tag = ctx.tag
  engine : ctx.engine.Refines registryOf h ctx'.engine

variable {registryOf : CatalogRef → Registry} {h : Heap}

theorem Running.refines_self (registryOf : CatalogRef → Registry) (h : Heap) (e : Running) :
    e.Refines registryOf h e where
  catalog := rfl
  descend := fun run down => ⟨run, down, fun _ => Query.refines_self _⟩

theorem Context.Refines.withTag {ctx ctx' : Context} (refines : ctx.Refines registryOf h ctx')
    (t : Tag) : (ctx.withTag t).Refines registryOf h (ctx'.withTag t) :=
  ⟨rfl, refines.engine⟩

namespace Rule

variable {e e' : Running}

theorem refines_valid (refines : e.Refines registryOf h e') :
    RefinesOn registryOf h (valid e) (valid e') := by
  intro v
  rw [valid, valid]
  cases v.isContainer with
  | false => exact Query.refines_pure rfl
  | true =>
      refine (Query.refines_ofExcept refines.descend).bind fun run run' further => ?_
      refine (further v).bind_eq fun r => ?_
      exact Query.refines_pure rfl

theorem refines_itemElements {run run' : Run} (further : RefinesOn registryOf h run run')
    (item : Member) :
    Query.Refines registryOf Eq (itemElements run h item) (itemElements run' h item) := by
  refine (Query.refines_self _).bind_eq fun v => ?_
  cases v.isContainer with
  | false => exact Query.refines_pure rfl
  | true =>
      refine (further v).bind_eq fun r => ?_
      exact Query.refines_pure rfl

theorem refines_allItemElements {run run' : Run} (further : RefinesOn registryOf h run run')
    (items : List Member) :
    Query.Refines registryOf Eq (allItemElements run h items) (allItemElements run' h items) := by
  induction items with
  | nil => exact Query.refines_pure rfl
  | cons item items ih =>
      refine (refines_itemElements further item).bind_eq fun found => ?_
      refine ih.bind_eq fun rest => ?_
      exact Query.refines_pure rfl

theorem refines_valids (refines : e.Refines registryOf h e') :
    RefinesOn registryOf h (valids e) (valids e') := by
  intro v
  cases iterates : v.iterates with
  | false =>
      rw [valids_of_not_iterates iterates, valids_of_not_iterates iterates]
      exact Query.refines_pure rfl
  | true =>
      rw [valids_of_iterates iterates, valids_of_iterates iterates, refines.catalog]
      refine (Query.refines_ofExcept refines.descend).bind fun run run' further => ?_
      refine (Query.refines_self _).bind_eq fun items => ?_
      refine (refines_allItemElements further items).bind_eq fun es => ?_
      exact Query.refines_pure rfl

theorem refines_all {cs cs' : List Checker} (each : List.Forall₂ (RefinesOn registryOf h) cs cs') :
    RefinesOn registryOf h (all cs) (all cs') := by
  intro v
  induction each with
  | nil => exact Query.refines_pure rfl
  | cons here _ ih =>
      rw [all_cons, all_cons]
      refine (here v).bind_eq fun verdict => ?_
      cases verdict.isValid with
      | true => exact ih
      | false => exact Query.refines_pure rfl

theorem refines_build [PatternEngine] {id : String} {r : Registration}
    (registered : (id, r) ∈ builtIn)
    {ctx ctx' : Context} (refines : ctx.Refines registryOf h ctx') :
    Query.Refines registryOf (RefinesOn registryOf h) (r.build ctx) (r.build ctx') := by
  rcases (builtIn_cases registered).2 with ⟨-, -, make, build, -⟩ | ⟨-, build⟩ | ⟨-, build⟩
  · rw [build, build, refines.tag]
    exact Query.refines_ofExcept fun c made => ⟨c, made, fun v => Query.refines_self _⟩
  · rw [build, build]
    exact Query.refines_pure (refines_valid refines.engine)
  · rw [build, build]
    exact Query.refines_pure (refines_valids refines.engine)

end Rule

namespace Factory

variable {patterns : PatternEngine} {d : CatalogRef} {ctx ctx' : Context}

/-- The built-in validators are built as soon as they are found. -/
theorem construct_ofCatalog {id : String} {r : Registration}
    (found : (ofCatalog d).registrations.get? id = some r) :
    ((ofCatalog d).construct ctx id).answer registryOf = (r.build ctx).answer registryOf := by
  rw [construct, Query.answer_bind, Query.answer_ofExcept, registration, found]
  simp only [Except.bind, (Rule.builtIn_cases (mem_builtIn_of_get? found)).1 ctx]

theorem refines_construct (refines : ctx.Refines registryOf h ctx') (id : String) :
    Query.Refines registryOf (RefinesOn registryOf h) ((ofCatalog d).construct ctx id)
      ((ofCatalog d).construct ctx' id) := by
  intro checker made
  obtain ⟨r, found, built⟩ := construct_eq_ok made
  rw [construct_ofCatalog found]
  exact Rule.refines_build (mem_builtIn_of_get? found) refines checker built

theorem forall₂_filterMap {checkers checkers' : List (Option Checker)}
    (each : List.Forall₂ (Option.Rel (RefinesOn registryOf h)) checkers checkers') :
    List.Forall₂ (RefinesOn registryOf h) (checkers.filterMap id) (checkers'.filterMap id) := by
  induction each with
  | nil => exact .nil
  | cons here _ ih =>
      cases here with
      | none => exact ih
      | some refines => exact .cons refines ih

theorem refines_resolveAmong (refines : ctx.Refines registryOf h ctx') (defs : List TagDefinition)
    (t : Tag) : Query.Refines registryOf (Option.Rel (RefinesOn registryOf h))
      ((ofCatalog d).resolveAmong ctx defs t) ((ofCatalog d).resolveAmong ctx' defs t) := by
  induction defs generalizing t with
  | nil =>
      intro checker resolved
      cases resolved
  | cons def' older ih =>
      rw [resolveAmong, resolveAmong]
      cases def'.name == t.name with
      | false => exact ih t
      | true =>
          simp only [if_true]
          cases def'.validator with
          | some id =>
              refine (refines_construct (refines.withTag t) id).bind fun c c' further => ?_
              exact Query.refines_pure (.some further)
          | none =>
              cases def'.isComposite with
              | false => exact Query.refines_pure .none
              | true =>
                  refine (Query.refines_mapM ih def'.metaTags).bind fun cs cs' each => ?_
                  exact Query.refines_pure (.some (Rule.refines_all (forall₂_filterMap each)))

theorem refines_resolve (refines : ctx.Refines registryOf h ctx') :
    Query.Refines registryOf (Option.Rel (RefinesOn registryOf h)) ((ofCatalog d).resolve ctx)
      ((ofCatalog d).resolve ctx') := by
  rw [resolve, resolve, refines.tag]
  refine (Query.refines_self _).bind_eq fun r => ?_
  exact refines_resolveAmong refines r.tags ctx.tag

end Factory

namespace Engine

variable {patterns : PatternEngine} {d : CatalogRef} {e e' : Engine} {create create' : Creator}
  {running running' : Running}

/-- The tags of a member are judged as in any other place from which runs go down as far. -/
theorem refines_judge {ctx ctx' : Tag → Context}
    (refines : ∀ t, (ctx t).Refines registryOf h (ctx' t)) (v : Value) (tags : List Tag) :
    Query.Refines registryOf Eq (judge (.ofCatalog d) ctx h v tags)
      (judge (.ofCatalog d) ctx' h v tags) := by
  induction tags with
  | nil => exact Query.refines_pure rfl
  | cons t tags ih =>
      rw [judge, judge]
      refine (Factory.refines_resolve (refines t)).bind fun checker checker' further => ?_
      cases further with
      | none => exact ih
      | some further =>
          refine (further v).bind_eq fun verdict => ?_
          refine ih.bind_eq fun rest => ?_
          exact Query.refines_pure rfl

theorem refines_memberElements (builtIn : e.factory = .ofCatalog d)
    (factory : e'.factory = e.factory) (refines : running.Refines registryOf h running')
    (target : Value) (m : Member) :
    Query.Refines registryOf Eq (e.memberElements create running h target m)
      (e'.memberElements create' running' h target m) := by
  rw [memberElements, memberElements, catalog, catalog, factory, builtIn]
  refine (Query.refines_self _).bind_eq fun r => ?_
  cases m.tags.any r.isConstraint && m.readable with
  | false => exact Query.refines_pure rfl
  | true =>
      refine (Query.refines_self _).bind_eq fun v => ?_
      have contexts : ∀ t, Context.Refines registryOf h
          ⟨t, some m, some target, running, create⟩ ⟨t, some m, some target, running', create'⟩ :=
        fun t => ⟨rfl, refines⟩
      refine (refines_judge contexts v m.tags).bind_eq fun js => ?_
      exact Query.refines_pure rfl

theorem refines_elementsOf (builtIn : e.factory = .ofCatalog d) (factory : e'.factory = e.factory)
    (refines : running.Refines registryOf h running') (target : Value) (ms : List Member) :
    Query.Refines registryOf Eq (e.elementsOf create running h target ms)
      (e'.elementsOf create' running' h target ms) := by
  induction ms with
  | nil => exact Query.refines_pure rfl
  | cons m ms ih =>
      refine (refines_memberElements builtIn factory refines target m).bind_eq fun found => ?_
      refine ih.bind_eq fun rest => ?_
      exact Query.refines_pure rfl

end Engine

end Memberwise
