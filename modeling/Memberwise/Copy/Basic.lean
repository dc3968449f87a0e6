import Memberwise.Member.Selector
import Memberwise.World

/-!
# Copying between containers

The members of two containers are paired by name.  A pair is copied if the
source is readable, the destination is writable and the filter lets it pass.
Values other than null go through the transform and are assigned only if the
destination's declared type accepts them; a pair that does not fit is left
alone.

The course of a copy is the same whatever the code behind members and options
does.  It is described for any `CopySetting`, where such code may do anything,
and carried out in the setting of the heap (`Copier.setting`).  There selecting
and filtering see members but not the heap, nothing but a setter changes
anything, a setter changes the slots of its own object only, all at once and not
if it fails, and an object stays of the type that it was made of.
-/

namespace Memberwise

/-- What may become of a value on the way; the heap serves to look into it. -/
abbrev Transform := Heap → Value → Value

/-- A pair that may be copied, with the source's value before any transform. -/
structure CopyCandidate where
  source : Member
  destination : Member
  value : Value

structure CopyOptions where
  transform : Option Transform
  /-- Whether a pair is copied; it sees the two members and the value, but not the heap. -/
  filter : Option (CopyCandidate → Bool)
  /-- Leaves the destination alone where the source is null. -/
  skipNulls : Bool
  /-- Chooses the source members; all of them, inherited ones included, without it. -/
  selector : Option Selector

def CopyOptions.plain : CopyOptions := ⟨none, none, false, none⟩

/-- What a copy works with: a state in which there are containers, and the code behind
members and options, which may change the state in any way, also before it fails. -/
structure CopySetting (σ : Type) where
  heap : σ → Heap
  /-- A container as it stands; an object has the type that it is of by then. -/
  present : σ → Value → Value
  /-- Whether a member of the source is selected. -/
  selects : Member → EditOf σ MemberError Bool
  /-- Reads a member of the source. -/
  read : Member → Value → EditOf σ MemberError Value
  /-- The value to assign for a pair, none if the pair is not to be copied. -/
  offer : CopyCandidate → EditOf σ MemberError (Option Value)
  /-- Assigns a value through a member of the destination. -/
  assign : Member → Value → EditOf σ MemberError Unit

namespace CopySetting

variable {σ : Type}

/-- The members that a container has as it stands, bound to it. -/
def membersOf (x : CopySetting σ) (d : CatalogRef) (target : Value) (deep : Bool) :
    EditOf σ MemberError (List Member) :=
  EditOf.look fun s => do
    let ts ← d.templatesOf (x.heap s) (x.present s target) deep
    return ts.map fun t => .ofTemplate t (some target)

/-- Those of some members that are selected. -/
def selectAmong (x : CopySetting σ) : List Member → EditOf σ MemberError (List Member)
  | [] => pure []
  | m :: rest => do
    let selected ← x.selects m
    let others ← x.selectAmong rest
    return if selected then m :: others else others

/-- Copies one member into its partner, and says whether it was assigned. -/
def copyMember (x : CopySetting σ) (partner? : Member → EditOf σ MemberError (Option Member))
    (source : Value) (src : Member) : EditOf σ MemberError Bool := do
  match ← partner? src with
  | none => return false
  | some dest =>
    if src.readable && dest.writable then
      let value ← x.read src source
      match ← x.offer ⟨src, dest, value⟩ with
      | none => return false
      | some offered =>
        x.assign dest offered
        return true
    else return false

/-- Copies members one after another, and counts those that were assigned. -/
def copyMembers (x : CopySetting σ) (partner? : Member → EditOf σ MemberError (Option Member))
    (source : Value) : List Member → Nat → EditOf σ MemberError Nat
  | [], count => pure count
  | src :: rest, count => do
    let assigned ← x.copyMember partner? source src
    x.copyMembers partner? source rest (if assigned then count + 1 else count)

end CopySetting

structure Copier where
  catalog : CatalogRef
  options : CopyOptions

namespace Copier

variable {σ : Type}

/-- The members to copy. -/
def select (c : Copier) (x : CopySetting σ) (source : Value) :
    EditOf σ MemberError (List Member) :=
  match c.options.selector with
  | some selector => do
    x.selectAmong (← x.membersOf selector.catalog source selector.deep)
  | none => x.membersOf c.catalog source true

/-- Whether both sides have the same members, so that those of the source serve
for the destination too. -/
def sharesTemplates (source destination : Value) : Bool :=
  source.containerKind.any (·.isTypeLevel) && source.type == destination.type

/-- The member to copy into, of a destination that stands as given. -/
def partnerAs? (c : Copier) (h : Heap) (shared : Bool) (present destination : Value)
    (src : Member) : Query MemberError (Option Member) :=
  if shared then pure (some (src.bind destination))
  else do
    let t ← c.catalog.templateOf? h present src.name true
    return t.map fun t => .ofTemplate t (some destination)

/-- The member to copy into, of the destination as it stands. -/
def findPartner? (c : Copier) (x : CopySetting σ) (shared : Bool) (destination : Value)
    (src : Member) : EditOf σ MemberError (Option Member) :=
  EditOf.look fun s => c.partnerAs? (x.heap s) shared (x.present s destination) destination src

/-- Copies one container into another in a setting. -/
def copyIn (c : Copier) (x : CopySetting σ) (source destination : Value) :
    EditOf σ MemberError Nat := do
  let members ← c.select x source
  let shared ← EditOf.look fun s =>
    pure (sharesTemplates (x.present s source) (x.present s destination))
  x.copyMembers (c.findPartner? x shared destination) source members 0

/-- The value to assign for a pair, none if the pair is not to be copied. -/
def offer? (c : Copier) (h : Heap) (pair : CopyCandidate) : Option Value :=
  if !c.options.filter.all (· pair) then none
  else if pair.value.isNull then
    if c.options.skipNulls then none else some .null
  else
    let value := c.options.transform.elim pair.value fun f => f h pair.value
    if pair.destination.declaredType.accepts value then some value else none

/-- The setting of the heap. -/
def setting (c : Copier) : CopySetting Heap where
  heap := id
  present _ v := v
  selects m := pure (c.options.selector.all (·.accepts m))
  read src source := Edit.look fun h => src.readIn h source
  offer pair := Edit.look fun h => pure (c.offer? h pair)
  assign dest value := dest.assign value

/-- Copies one container into another.  The result is the number of members assigned. -/
def copy (c : Copier) (source destination : Value) : Edit MemberError Nat :=
  c.copyIn c.setting source destination

end Copier

end Memberwise
