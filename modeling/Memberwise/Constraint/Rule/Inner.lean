import Memberwise.Constraint.Validator

/-!
# Values inside values

The running engine goes down into a value that is a container, or into the
containers among the items of a list or map.  Scalars have no members and are
valid.
-/

namespace Memberwise.Rule

/-- Validates the value itself. -/
def valid (e : Running) : Checker := fun h v =>
  if v.isContainer then do
    let run ← Query.ofExcept e.descend
    return .ofElements (← run h v).elements
  else pure .valid

/-- What a run finds in the value of one item, under its name. -/
def itemElements (run : Run) (h : Heap) (item : Member) :
    Query ConstraintError (List InvalidElement) := do
  let v ← (item.read h).mapError .element
  if v.isContainer then return (← run h v).elements.map (·.under item.name) else return []

/-- What a run finds in the containers among the items, in order. -/
def allItemElements (run : Run) (h : Heap) :
    List Member → Query ConstraintError (List InvalidElement)
  | [] => pure []
  | item :: rest => do
    let found ← itemElements run h item
    return found ++ (← allItemElements run h rest)

/-- Validates every item of a list or map. -/
def valids (e : Running) : Checker := fun h v =>
  match v with
  | .list _ | .map _ => do
    let run ← Query.ofExcept e.descend
    let items ← (e.catalog.membersOf h v false).mapError .element
    return .ofElements (← allItemElements run h items)
  | _ => pure .valid

end Memberwise.Rule
