import Memberwise.Member.Cache

/-!
# Questions about members

Operations on members ask for registries and for the members of types, and what
they ask next may depend on the answers.  A `Lookup` is such a course of
questions with a result at its end.  It can be answered from member caches that
grow on the way (`run`), or afresh from the registries (`answer`); `run_fst`
says that both give the same result.

A registry and its cache make up a catalog.  Catalogs are kept under numbers, so
that whatever refers to one shares its cache with all others that do.
-/

namespace Memberwise

/-- Names a catalog. -/
structure CatalogRef where
  id : Nat
  deriving DecidableEq

/-- A course of questions with a result. -/
inductive Lookup (α : Type) where
  | done (result : α)
  | registry (d : CatalogRef) (next : Registry → Lookup α)
  | members (d : CatalogRef) (key : CacheKey)
      (next : Except MemberError (List Template) → Lookup α)

namespace Lookup

variable {α β : Type}

def bind : Lookup α → (α → Lookup β) → Lookup β
  | done result, f => f result
  | registry d next, f => registry d fun r => bind (next r) f
  | members d key next, f => members d key fun ts => bind (next ts) f

instance : Monad Lookup where
  pure := done
  bind := bind

theorem bind_done (q : Lookup α) : q.bind done = q := by
  induction q with
  | done result => rfl
  | registry d next ih => simp only [bind, ih]
  | members d key next ih => simp only [bind, ih]

theorem bind_assoc {γ : Type} (q : Lookup α) (f : α → Lookup β) (g : β → Lookup γ) :
    (q.bind f).bind g = q.bind fun a => (f a).bind g := by
  induction q with
  | done result => rfl
  | registry d next ih => simp only [bind, ih]
  | members d key next ih => simp only [bind, ih]

instance : LawfulMonad Lookup :=
  LawfulMonad.mk' Lookup bind_done (fun _ _ => rfl) bind_assoc

/-- Answers every question from the registries themselves. -/
def answer (registryOf : CatalogRef → Registry) : Lookup α → α
  | done result => result
  | registry d next => answer registryOf (next (registryOf d))
  | members d key next => answer registryOf (next (key.discover (registryOf d)))

theorem answer_bind (registryOf : CatalogRef → Registry) (q : Lookup α) (f : α → Lookup β) :
    (q >>= f).answer registryOf = (f (q.answer registryOf)).answer registryOf := by
  induction q with
  | done result => rfl
  | registry d next ih => exact ih _
  | members d key next ih => exact ih _

theorem answer_pure (registryOf : CatalogRef → Registry) (a : α) :
    (pure a : Lookup α).answer registryOf = a := rfl

end Lookup

/-- A registry with its member cache. -/
structure Catalog where
  registry : Registry
  cache : MemberCache registry

namespace Catalog

def ofRegistry (r : Registry) : Catalog := ⟨r, .empty⟩

instance : Inhabited Catalog := ⟨ofRegistry .empty⟩

def members (c : Catalog) (key : CacheKey) : Except MemberError (List Template) × Catalog :=
  let (ts, cache) := c.cache.members key
  (ts, ⟨c.registry, cache⟩)

end Catalog

/-- All catalogs. -/
structure Catalogs where
  store : Store Catalog

namespace Catalogs

def empty : Catalogs := ⟨.empty⟩

def get (cs : Catalogs) (d : CatalogRef) : Catalog :=
  (cs.store.get? d.id).getD default

def registry (cs : Catalogs) (d : CatalogRef) : Registry :=
  (cs.get d).registry

/-- Takes up a registry, with an empty cache. -/
def add (cs : Catalogs) (r : Registry) : CatalogRef × Catalogs :=
  (⟨cs.store.size⟩, ⟨cs.store.push (.ofRegistry r)⟩)

/-- The members of a type through the cache of a catalog. -/
def members (cs : Catalogs) (d : CatalogRef) (key : CacheKey) :
    Except MemberError (List Template) × Catalogs :=
  let (ts, catalog) := (cs.get d).members key
  (ts, ⟨cs.store.set d.id catalog⟩)

theorem members_fst (cs : Catalogs) (d : CatalogRef) (key : CacheKey) :
    (cs.members d key).1 = key.discover (cs.registry d) :=
  MemberCache.members_fst _ _

/-- Look-ups leave the registries as they are. -/
theorem registry_members (cs : Catalogs) (d : CatalogRef) (key : CacheKey) :
    (cs.members d key).2.registry = cs.registry := by
  funext other
  by_cases h : other = d
  · subst h
    by_cases live : other.id < cs.store.size
    · simp [registry, members, get, Store.get?_set_self _ _ _ live, Catalog.members]
    · have outside : cs.store.cells.size ≤ other.id := Nat.le_of_not_lt live
      simp [registry, members, get, Store.set, Store.get?, outside]
  · have : other.id ≠ d.id := fun e => h (by cases other; cases d; simpa using e)
    simp [registry, members, get, Store.get?_set_of_ne _ _ _ _ this]

end Catalogs

namespace Lookup

variable {α : Type}

/-- Answers every question through the caches. -/
def run : Lookup α → Catalogs → α × Catalogs
  | done result, cs => (result, cs)
  | registry d next, cs => run (next (cs.registry d)) cs
  | members d key next, cs =>
    let (ts, cs) := cs.members d key
    run (next ts) cs

/-- The caches do not show in the result. -/
theorem run_fst (q : Lookup α) (cs : Catalogs) : (q.run cs).1 = q.answer cs.registry := by
  induction q generalizing cs with
  | done result => rfl
  | registry d next ih => exact ih _ cs
  | members d key next ih =>
    simp only [run, answer, ih, Catalogs.members_fst, Catalogs.registry_members]

theorem registry_run (q : Lookup α) (cs : Catalogs) : (q.run cs).2.registry = cs.registry := by
  induction q generalizing cs with
  | done result => rfl
  | registry d next ih => exact ih _ cs
  | members d key next ih => simp only [run, ih, Catalogs.registry_members]

end Lookup

/-- A course of questions that may end with an error. -/
abbrev Query (ε α : Type) := ExceptT ε Lookup α

namespace Query

variable {ε δ α : Type}

/-- The result of a query, from the registries themselves. -/
def answer (registryOf : CatalogRef → Registry) (q : Query ε α) : Except ε α :=
  Lookup.answer registryOf (ExceptT.run q)

def ofExcept (e : Except ε α) : Query ε α :=
  ExceptT.mk (.done e)

def mapError (f : ε → δ) (q : Query ε α) : Query δ α :=
  ExceptT.adapt f q

def registry (d : CatalogRef) : Query ε Registry :=
  ExceptT.mk (.registry d fun r => .done (.ok r))

/-! What queries answer, step by step. -/

theorem answer_pure (registryOf : CatalogRef → Registry) (a : α) :
    (pure a : Query ε α).answer registryOf = .ok a := rfl

theorem answer_throw (registryOf : CatalogRef → Registry) (e : ε) :
    (throw e : Query ε α).answer registryOf = .error e := rfl

theorem answer_bind {β : Type} (registryOf : CatalogRef → Registry) (q : Query ε α)
    (f : α → Query ε β) :
    (q >>= f).answer registryOf =
      (q.answer registryOf).bind fun a => (f a).answer registryOf := by
  refine (Lookup.answer_bind registryOf (ExceptT.run q) _).trans ?_
  unfold answer
  generalize Lookup.answer registryOf (ExceptT.run q) = result
  cases result <;> rfl

theorem answer_ofExcept (registryOf : CatalogRef → Registry) (e : Except ε α) :
    (ofExcept e).answer registryOf = e := rfl

theorem answer_registry (registryOf : CatalogRef → Registry) (d : CatalogRef) :
    (registry d : Query ε Registry).answer registryOf = .ok (registryOf d) := rfl

theorem answer_mapError (registryOf : CatalogRef → Registry) (f : ε → δ) (q : Query ε α) :
    (q.mapError f).answer registryOf = (q.answer registryOf).mapError f := by
  show Lookup.answer registryOf (Except.mapError f <$> ExceptT.run q) = _
  rw [map_eq_pure_bind, Lookup.answer_bind]
  rfl

end Query

end Memberwise
