import Memberwise.Member.Catalog

/-!
# Paths

A dotted path such as `customer.address` or `items.1` leads from a container
through its members to a member of another one, its leaf.  A path is walked
through the containers as they are, anew at every reading and writing.
-/

namespace Memberwise

/-- The segments of a dotted path; there is always at least one. -/
def splitDots : List Char → List (List Char)
  | [] => [[]]
  | c :: cs =>
    if c = '.' then [] :: splitDots cs
    else
      match splitDots cs with
      | [] => [[c]]
      | first :: rest => (c :: first) :: rest

def pathSegments (path : String) : List String :=
  (splitDots path.toList).map String.ofList

def isPath (name : String) : Bool :=
  name.toList.contains '.'

theorem splitDots_ne_nil (cs : List Char) : splitDots cs ≠ [] := by
  cases cs with
  | nil => simp [splitDots]
  | cons c cs =>
    simp only [splitDots]
    split
    · simp
    · split <;> simp

/-- A path to walk, with the catalog that finds the members on it. -/
structure MemberPath where
  catalog : CatalogRef
  segments : List String
  deep : Bool

namespace MemberPath

/-- The member for one segment of a path. -/
def segment (p : MemberPath) (h : Heap) (owner : Value) (name : String) :
    Query Fault Template := do
  match ← (p.catalog.templateOf? h owner name p.deep).mapError .member with
  | some t => return t
  | none =>
    throw (.access (.failed ("no member '" ++ name ++ "' on " ++ owner.type.display)))

/-- Walks along segments to the owner of the last one, and finds that there. -/
def walk (p : MemberPath) (h : Heap) : List String → Value → Query Fault (Value × Template)
  | [], _ => throw (.access (.failed "empty path"))
  | [last], owner => return (owner, ← p.segment h owner last)
  | name :: rest, owner => do
    let t ← p.segment h owner name
    let next ← (Query.ofExcept (t.read h owner)).mapError .member
    if next.isNull then throw (.access (.failed ("'" ++ name ++ "' is null")))
    p.walk h rest next

def read (p : MemberPath) (h : Heap) (target : Value) : Query Fault Value := do
  let (owner, leaf) ← p.walk h p.segments target
  (Query.ofExcept (leaf.read h owner)).mapError .member

def write (p : MemberPath) (h : Heap) (target value : Value) : Query Fault Heap := do
  let (owner, leaf) ← p.walk h p.segments target
  (Query.ofExcept (leaf.write h owner value)).mapError .member

end MemberPath

end Memberwise
