import Memberwise.World

/-!
# What operations answer

Queries and edits are carried out on a world, through its caches.  Since the
caches do not show, the outcome is that of an answer from the registries
themselves, and this is given step by step.
-/

namespace Memberwise

namespace EditOf

variable {σ ε α β : Type} (registryOf : CatalogRef → Registry)

/-- The outcome of an operation on a state, from the registries themselves. -/
def answer (e : EditOf σ ε α) (s : σ) : Except ε α × σ :=
  Lookup.answer registryOf (StateT.run (ExceptT.run e) s)

theorem answer_pure (a : α) (s : σ) :
    (pure a : EditOf σ ε α).answer registryOf s = (.ok a, s) := rfl

theorem answer_bind (e : EditOf σ ε α) (f : α → EditOf σ ε β) (s : σ) :
    (e >>= f).answer registryOf s =
      match e.answer registryOf s with
      | (.ok a, s) => (f a).answer registryOf s
      | (.error x, s) => (.error x, s) := by
  refine (Lookup.answer_bind registryOf (StateT.run (ExceptT.run e) s) _).trans ?_
  unfold answer
  rcases Lookup.answer registryOf (StateT.run (ExceptT.run e) s) with ⟨_ | a, after⟩
  · rfl
  · rfl

theorem answer_look (f : σ → Query ε α) (s : σ) :
    (look f).answer registryOf s = ((f s).answer registryOf, s) :=
  Lookup.answer_bind registryOf (ExceptT.run (f s)) _

theorem answer_update (f : σ → Query ε σ) (s : σ) :
    (update f).answer registryOf s =
      match (f s).answer registryOf with
      | .ok changed => (.ok (), changed)
      | .error e => (.error e, s) := by
  refine (Lookup.answer_bind registryOf (ExceptT.run (f s)) _).trans ?_
  unfold Query.answer
  cases Lookup.answer registryOf (ExceptT.run (f s)) with
  | error e => rfl
  | ok changed => rfl

end EditOf

namespace Edit

variable {ε α : Type} (registryOf : CatalogRef → Registry)

theorem run_fst (e : Edit ε α) (w : World) :
    (e.run w).1 = (e.answer w.catalogs.registry w.heap).1 := by
  show ((StateT.run (ExceptT.run e) w.heap).run w.catalogs).1.1 = _
  rw [Lookup.run_fst]
  rfl

theorem heap_run (e : Edit ε α) (w : World) :
    (e.run w).2.heap = (e.answer w.catalogs.registry w.heap).2 := by
  show ((StateT.run (ExceptT.run e) w.heap).run w.catalogs).1.2 = _
  rw [Lookup.run_fst]
  rfl

/-- Edits leave the registries as they are. -/
theorem registry_run (e : Edit ε α) (w : World) :
    (e.run w).2.catalogs.registry = w.catalogs.registry :=
  Lookup.registry_run _ _

/-- A change that asks no questions. -/
theorem run_update_ofExcept (f : Heap → Except ε Heap) (w : World) :
    (update fun h => Query.ofExcept (f h)).run w =
      match f w.heap with
      | .ok h => (.ok (), { w with heap := h })
      | .error e => (.error e, w) := by
  rw [run]
  unfold update EditOf.update
  simp only [Query.ofExcept, ExceptT.run_mk, StateT.run]
  cases f w.heap with
  | error e => rfl
  | ok h => rfl

end Edit

theorem mapError_error {ε δ α : Type} (f : ε → δ) (e : ε) :
    (.error e : Except ε α).mapError f = .error (f e) := rfl

theorem mapError_ok {ε δ α : Type} (f : ε → δ) (a : α) :
    (.ok a : Except ε α).mapError f = .ok a := rfl

theorem mapError_eq_ok {ε δ α : Type} {f : ε → δ} {x : Except ε α} {a : α} :
    x.mapError f = .ok a ↔ x = .ok a := by
  cases x with
  | error e => simp [mapError_error]
  | ok b => simp [mapError_ok]

theorem Query.mapError_ofExcept {ε δ α : Type} (f : ε → δ) (e : Except ε α) :
    (Query.ofExcept e).mapError f = Query.ofExcept (e.mapError f) := by
  cases e with
  | error e => rfl
  | ok a => rfl

theorem Query.run_fst {ε α : Type} (w : World) (q : Heap → Query ε α) :
    (Query.run w q).1 = (q w.heap).answer w.catalogs.registry := by
  rw [Query.run, Edit.run_fst, EditOf.answer_look]

theorem Query.heap_run {ε α : Type} (w : World) (q : Heap → Query ε α) :
    (Query.run w q).2.heap = w.heap := by
  rw [Query.run, Edit.heap_run, EditOf.answer_look]

theorem Query.registry_run {ε α : Type} (w : World) (q : Heap → Query ε α) :
    (Query.run w q).2.catalogs.registry = w.catalogs.registry :=
  Edit.registry_run _ w

/-- What is made of an answer when nothing else is asked. -/
theorem Query.answer_bind_pure {ε α β : Type} (registryOf : CatalogRef → Registry)
    (q : Query ε α) (f : α → β) :
    (do return f (← q) : Query ε β).answer registryOf = (q.answer registryOf).map f := by
  rw [answer_bind]
  cases q.answer registryOf with
  | error e => rfl
  | ok a => rfl

end Memberwise
