import Memberwise.Session.Named
import Memberwise.Shop

/-!
# Definitions in a session

A registry is declared step by step with a builder.  Building uses the builder
up, and from then on members are looked up in the new registry; engines and
variables of before stay.
-/

namespace Memberwise.Action

/-- Begins a registry, with the built-in tags or without. -/
def begin (builtIn : Bool) : Action Unit :=
  modify fun s => { s with builder := some (if builtIn then BuiltIn.builder else .empty) }

/-- Changes the builder and keeps the change, whether the declaration succeeds or not. -/
def declare {ε α : Type} [Reported ε] (f : Builder → Except ε α × Builder) : Action α := do
  let b ← require (← get).builder
  let (result, b) := f b
  modify fun s => { s with builder := some b }
  lift result

def declareType (d : TypeDraft) : Action TypeId :=
  declare fun b => b.addType d

def declareTag (d : TagDraft) : Action TagId :=
  declare fun b => b.addTag d

/-- Builds the registry that was declared, with a fresh catalog and factory. -/
def build : Action Registry := do
  let r := (← require (← get).builder).build
  modify fun s =>
    let (d, catalogs) := s.world.catalogs.add r
    { s with
      world := { s.world with catalogs := catalogs }
      builder := none
      catalog := some d
      factory := some (.ofCatalog d) }
  return r

/-- Opens the shop: its catalog and factory, and its engine under a name. -/
def openShop (engineName : String) : Action Registry := do
  let s ← get
  let (opened, world) := Shop.opened s.world
  let (d, e) ← lift opened
  set { s with world := world, catalog := some d, factory := some e.factory, shop := some d }
  keepEngine engineName e
  registryOf d

/-- The registry of the shop. -/
def shopRegistry : Action Registry := do
  registryOf (← require (← get).shop)

/-- Makes an object of a registered type. -/
def instantiate (name : String) : Action ObjectRef := do
  let r ← registry
  make fun h => r.instantiate h name

/-- Registers a validator on the factory; whether it replaced one. -/
def register (id : String) (r : Registration) : Action Bool := do
  let f ← factory
  modify fun s => { s with factory := some (f.register id r) }
  return f.registrations.contains id

/-- A value and its contents, with the members of the registry at work. -/
def snapshot (v : Value) : Action Snapshot := do
  let r ← (← get).catalog.mapM registryOf
  require (Snapshot.take? r (← heap) v)

end Memberwise.Action
