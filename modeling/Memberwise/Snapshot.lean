import Memberwise.Registry.Basic

/-!
# Snapshots

A value together with everything that can be reached from it.  Containers may be
shared and graphs of them cyclic, so each container is opened only where it is
met first.  Walks go from a container to one that was not met before, which
bounds their length by the number of containers.
-/

namespace Memberwise

/-- What makes a container the one that it is. -/
structure Identity where
  kind : ContainerKind
  id : Nat
  deriving DecidableEq

/-- The identity of a value that refers to a container. -/
def Value.identity? : Value → Option Identity
  | object o => some ⟨.object, o.id⟩
  | list l => some ⟨.sequence, l.id⟩
  | map m => some ⟨.map, m.id⟩
  | properties p => some ⟨.properties, p.id⟩
  | cursor c => some ⟨.cursor, c.id⟩
  | _ => none

/-- A value with its contents. -/
inductive Snapshot where
  /-- A value without contents, or whose contents are shown elsewhere. -/
  | closed (v : Value)
  | object (v : Value) (slots : List (String × Snapshot))
  | list (v : Value) (items : List Snapshot)
  | map (v : Value) (entries : List (String × Snapshot))
  | properties (v : Value) (entries : List (String × String))

namespace Snapshot

/-- Takes things in order, each knowing the containers met before it. -/
def eachIn {α β : Type} (take : α → List Identity → β × List Identity) :
    List α → List Identity → List β × List Identity
  | [], met => ([], met)
  | a :: rest, met =>
    let (b, met) := take a met
    let (bs, met) := eachIn take rest met
    (b :: bs, met)

/-- Takes the values of pairs. -/
def valueOf {α β : Type} (take : α → List Identity → β × List Identity) (p : String × α)
    (met : List Identity) : (String × β) × List Identity :=
  let (b, met) := take p.2 met
  ((p.1, b), met)

/-- A snapshot of a value, where `isShown` says which slots of which type of
objects are shown. -/
def takeWithin (isShown : String → String → Bool) (h : Heap) :
    (fuel : Nat) → Value → List Identity → Snapshot × List Identity
  | 0, v, met => (closed v, met)
  | fuel + 1, v, met =>
    match v.identity? with
    | none => (closed v, met)
    | some identity =>
      if met.contains identity then (closed v, met)
      else
        let take := takeWithin isShown h fuel
        let met := identity :: met
        match v with
        | .object o =>
          let shown := (h.slots o).pairs.filter fun p => isShown o.typeName p.1
          let (slots, met) := eachIn (valueOf take) shown met
          (object v slots, met)
        | .list l =>
          let (items, met) := eachIn take (h.items l) met
          (list v items, met)
        | .map m =>
          let (entries, met) := eachIn (valueOf take) (h.entries m).pairs met
          (map v entries, met)
        | .properties p => (properties v (h.propertyDict p).pairs, met)
        | other => (closed other, met)

/-- Whether a slot is a member of a registered type or of one that it descends from. -/
def isMemberSlot (r : Registry) (typeName slot : String) : Bool :=
  (r.lineage typeName).any fun d => d.memberNames.contains slot

/-- A snapshot of a value with the slots that are members in a registry.  Without
a registry nobody knows the members of objects, so there is none of a value from
which an object is reached. -/
def take? (r : Option Registry) (h : Heap) (v : Value) : Option Snapshot :=
  let (shown, met) := takeWithin (isMemberSlot (r.getD .empty)) h (h.size + 1) v []
  if r.isNone && met.any (·.kind == .object) then none else some shown

end Snapshot

end Memberwise
