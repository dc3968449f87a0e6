import Memberwise.Member.Path

/-!
# Members

A member is one named or numbered place of a container, whatever its kind.  It
may be bound to the container whose place it is, and then be read and written
without naming one; unbound it serves any container that has such a place.
-/

namespace Memberwise

/-- The way to the place that a member stands for. -/
inductive Route where
  | direct (access : Access)
  | path (path : MemberPath)

structure Member extends Descriptor where
  route : Route
  target : Option Value

namespace Member

def ofTemplate (t : Template) (target : Option Value) : Member :=
  ⟨t.toDescriptor, .direct t.access, target⟩

def isBound (m : Member) : Bool :=
  m.target.isSome

def bind (m : Member) (target : Value) : Member :=
  { m with target := some target }

def unbound (m : Member) : Member :=
  { m with target := none }

def readRoute (h : Heap) (target : Value) : Route → Query Fault Value
  | .direct access => Query.ofExcept (access.read h target)
  | .path path => path.read h target

def writeRoute (h : Heap) (target value : Value) : Route → Query Fault Heap
  | .direct access => Query.ofExcept (access.write h target value)
  | .path path => path.write h target value

/-- Reads the member of a given container. -/
def readIn (h : Heap) (m : Member) (target : Value) : Query MemberError Value :=
  if m.readable then (readRoute h target m.route).mapError (.handling m.name)
  else throw (.unreadable m.name)

/-- Writes the member of a given container. -/
def writeIn (h : Heap) (m : Member) (target value : Value) : Query MemberError Heap :=
  if m.writable then (writeRoute h target value m.route).mapError (.handling m.name)
  else throw (.unwritable m.name)

/-- Reads the member of the container that it is bound to. -/
def read (h : Heap) (m : Member) : Query MemberError Value :=
  match m.target with
  | some target => m.readIn h target
  | none => throw (.nonSpecific m.name)

/-- Writes the member of the container that it is bound to. -/
def write (h : Heap) (m : Member) (value : Value) : Query MemberError Heap :=
  match m.target with
  | some target => m.writeIn h target value
  | none => throw (.nonSpecific m.name)

/-- Whether two bindings are to the same container, or both to none. -/
def sameTarget : Option Value → Option Value → Bool
  | none, none => true
  | some a, some b => a.same b
  | _, _ => false

/-- Members are the same if they have the same target, name and declaring type. -/
def same (m n : Member) : Bool :=
  sameTarget m.target n.target && m.name == n.name && m.declaringType == n.declaringType

/-- What the hash of a member is made from; the target itself does not enter. -/
def hashKey (m : Member) : String × ValueType × Bool :=
  (m.name, m.declaringType, m.isBound)

/-- The short text of a member. -/
def display (m : Member) : String :=
  m.declaringType.display ++ "." ++ m.name ++ ": " ++ m.declaredType.display

end Member

namespace CatalogRef

/-- The members of a container, bound to it. -/
def membersOf (d : CatalogRef) (h : Heap) (target : Value) (deep : Bool) :
    Query MemberError (List Member) :=
  return (← d.templatesOf h target deep).map fun t => .ofTemplate t (some target)

/-- One member of a container, bound to it. -/
def memberOf? (d : CatalogRef) (h : Heap) (target : Value) (name : String) (deep : Bool) :
    Query MemberError (Option Member) :=
  return (← d.templateOf? h target name deep).map fun t => .ofTemplate t (some target)

/-- The members of a type, unbound. -/
def membersOfType (d : CatalogRef) (type : ValueType) (deep : Bool) :
    Query MemberError (List Member) :=
  return (← d.templatesOfType type deep).map fun t => .ofTemplate t none

/-- One member of a type, unbound. -/
def memberOfType? (d : CatalogRef) (type : ValueType) (name : String) (deep : Bool) :
    Query MemberError (Option Member) :=
  return (← d.templateOfType? type name deep).map fun t => .ofTemplate t none

end CatalogRef

/-- Where the resolution of a path stands: at a value, or at a type where there
is no value to follow. -/
inductive Site where
  | value (v : Value)
  | type (t : ValueType)

namespace Site

/-- The member under a name at a site; none at a site without members. -/
def find? (d : CatalogRef) (h : Heap) (deep : Bool) (name : String) :
    Site → Query MemberError (Option Template)
  | value v => if v.isContainer then d.templateOf? h v name deep else pure none
  | type t => if t.isContainer then d.templateOfType? t name deep else pure none

/-- The site behind a member: its value, or its type where it has none. -/
def follow (h : Heap) (t : Template) : Site → Query MemberError Site
  | value v =>
    if t.readable then do
      let next ← Query.ofExcept (t.read h v)
      return if next.isNull then type t.declaredType else value next
    else pure (type t.declaredType)
  | type _ => pure (type t.declaredType)

/-- The last member on the way along segments, starting with one at a site. -/
def leaf? (d : CatalogRef) (h : Heap) (deep : Bool) :
    Template → Site → List String → Query MemberError (Option Template)
  | t, _, [] => pure (some t)
  | t, site, name :: rest => do
    let site ← site.follow h t
    match ← site.find? d h deep name with
    | some t => leaf? d h deep t site rest
    | none => pure none

end Site

/-- The member at the end of a dotted path.  It has the types, capabilities and
tags of the leaf and the declaring type of the first segment.  A path with a
missing segment is absent. -/
def CatalogRef.resolvePath? (d : CatalogRef) (h : Heap) (path : String) (target : Option Value)
    (type : ValueType) (deep : Bool) : Query MemberError (Option Member) :=
  match pathSegments path with
  | [] => pure none
  | name :: rest => do
    let start := target.elim (Site.type type) Site.value
    match ← start.find? d h deep name with
    | none => pure none
    | some first =>
      let some leaf ← Site.leaf? d h deep first start rest | pure none
      return some {
        name := path
        declaredType := leaf.declaredType
        declaringType := first.declaringType
        readable := leaf.readable
        writable := leaf.writable
        tags := leaf.tags
        route := .path ⟨d, name :: rest, deep⟩
        target := target }

end Memberwise
