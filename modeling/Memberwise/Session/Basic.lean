import Memberwise.Constraint.Engine
import Memberwise.Snapshot
import Memberwise.World

/-!
# Sessions

A session is a world in which things have names: the state in which someone
works with the library step by step.  It also keeps the builder, the catalog and
the factory that are at work now, and in which order containers were shown.

An action may change the session and have a result, be refused because it asks
for something that is not there, or fail with an error of the library.  A
refused action leaves the session as it was (`attempt_refused`); a failed one
keeps what it had changed.
-/

namespace Memberwise

/-- Why an action has no result. -/
inductive Stop where
  | refused
  | failed (code message : String)

instance : Inhabited Stop := ⟨.refused⟩

structure Session where
  world : World
  builder : Option Builder
  catalog : Option CatalogRef
  factory : Option Factory
  /-- The catalog of the shop that was opened last. -/
  shop : Option CatalogRef
  values : Dict Value
  members : Dict Member
  engines : Dict Engine
  reports : Dict Report
  rows : Dict CursorRef
  /-- The containers that were shown, in order. -/
  shown : List Identity

def Session.empty : Session :=
  ⟨.empty, none, none, none, none, .empty, .empty, .empty, .empty, .empty, []⟩

instance : Inhabited Session := ⟨Session.empty⟩

abbrev Action := ExceptT Stop (StateM Session)

namespace Action

variable {ε α : Type}

instance : Inhabited (Action α) := ⟨throw .refused⟩

def refuse : Action α := throw .refused

/-- What must be there. -/
def require : Option α → Action α
  | some a => pure a
  | none => refuse

/-- Fails with an error of the library. -/
def fail [Reported ε] (e : ε) : Action α :=
  throw (.failed (Reported.code e) (Reported.message e))

def lift [Reported ε] : Except ε α → Action α
  | .ok a => pure a
  | .error e => fail e

/-- Carries out an edit on the world. -/
def edit [Reported ε] (e : Edit ε α) : Action α := do
  let s ← get
  let (result, world) := e.run s.world
  set { s with world := world }
  lift result

/-- The outcome of a query about the heap. -/
def outcome (q : Heap → Query ε α) : Action (Except ε α) := do
  let s ← get
  let (result, world) := Query.run s.world q
  set { s with world := world }
  return result

def ask [Reported ε] (q : Heap → Query ε α) : Action α := do
  lift (← outcome q)

def heap : Action Heap :=
  return (← get).world.heap

/-- Changes the heap, with a result. -/
def change (f : Heap → α × Heap) : Action α := do
  let (a, h) := f (← heap)
  modify fun s => { s with world := { s.world with heap := h } }
  return a

def update [Reported ε] (f : Heap → Except ε Heap) : Action Unit := do
  let h ← lift (f (← heap))
  change fun _ => ((), h)

/-- Makes something in the heap. -/
def make [Reported ε] (f : Heap → Except ε (α × Heap)) : Action α := do
  let made ← lift (f (← heap))
  change fun _ => made

def catalog : Action CatalogRef := do
  require (← get).catalog

def factory : Action Factory := do
  require (← get).factory

def registryOf (d : CatalogRef) : Action Registry :=
  return (← get).world.catalogs.registry d

def registry : Action Registry := do
  registryOf (← catalog)

/-- How many entries the member cache of the catalog has. -/
def cacheSize : Action Nat := do
  let d ← catalog
  return ((← get).world.catalogs.get d).cache.size

/-- The outcome of an action, and the session then. -/
def attempt (a : Action α) (s : Session) : Except Stop α × Session :=
  match (ExceptT.run a).run s with
  | (.error .refused, _) => (.error .refused, s)
  | (result, changed) => (result, changed)

/-- A refused action leaves the session as it was. -/
theorem attempt_refused (a : Action α) (s : Session)
    (h : (attempt a s).1 = .error .refused) : (attempt a s).2 = s := by
  unfold attempt at h ⊢
  generalize (ExceptT.run a).run s = run at h ⊢
  obtain ⟨result, changed⟩ := run
  cases result with
  | ok a => simp at h
  | error stop =>
    cases stop with
    | refused => rfl
    | failed code message => simp at h

end Action

end Memberwise
