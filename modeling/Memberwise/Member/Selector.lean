import Memberwise.Member.Predicate

/-!
# Selectors

A query for members: those for which every predicate holds, with the inherited
ones if it is deep.  A name with a dot in it is taken for a path.
-/

namespace Memberwise

structure Selector where
  catalog : CatalogRef
  predicates : List MemberPredicate
  deep : Bool

namespace Selector

def accepts (s : Selector) (m : Member) : Bool :=
  s.predicates.all fun p => p m

/-- The member of a container by name or path. -/
def find? (s : Selector) (h : Heap) (name : String) (target : Value) :
    Query MemberError (Option Member) := do
  let found ←
    if isPath name then s.catalog.resolvePath? h name (some target) target.type s.deep
    else s.catalog.memberOf? h target name s.deep
  return found.filter s.accepts

/-- The unbound member of a type by name or path. -/
def findInType? (s : Selector) (h : Heap) (name : String) (type : ValueType) :
    Query MemberError (Option Member) := do
  let found ←
    if isPath name then s.catalog.resolvePath? h name none type s.deep
    else s.catalog.memberOfType? type name s.deep
  return found.filter s.accepts

/-- All members of a container that are selected, in order. -/
def findAll (s : Selector) (h : Heap) (target : Value) : Query MemberError (List Member) :=
  return (← s.catalog.membersOf h target s.deep).filter s.accepts

/-- All members of a type that are selected, in order. -/
def findAllInType (s : Selector) (type : ValueType) : Query MemberError (List Member) :=
  return (← s.catalog.membersOfType type s.deep).filter s.accepts

/-- The only member of a container that is selected. -/
def findOne? (s : Selector) (h : Heap) (target : Value) : Query MemberError (Option Member) := do
  match ← s.findAll h target with
  | [] => return none
  | [m] => return some m
  | ms => throw (.ambiguous ms.length)

end Selector

end Memberwise
