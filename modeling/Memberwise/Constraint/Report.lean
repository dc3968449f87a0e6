import Memberwise.Member.Basic

/-!
# Reports

What a validation found: for each path below the validated container the member
there, its value and the tags that the value violates.  Entries under one path
are merged.  The first one keeps its member and value, and of each tag name the
first tag stays, so merging loses no tag name (`violates_merge`).
-/

namespace Memberwise

/-- A member whose value violates tags, under its path from the validated container. -/
structure InvalidElement where
  member : Member
  path : String
  value : Value
  /-- The violated tags by name. -/
  violated : Dict Tag

namespace InvalidElement

/-- Adds a violated tag, unless one of its name is there. -/
def violate (e : InvalidElement) (t : Tag) : InvalidElement :=
  { e with violated := e.violated.insertNew t.name t }

/-- Adds violated tags in order. -/
def violateAll (e : InvalidElement) (ts : List Tag) : InvalidElement :=
  ts.foldl violate e

/-- The element of a member in its own container. -/
def ofMember (m : Member) (value : Value) (violated : List Tag) : InvalidElement :=
  violateAll ⟨m, m.name, value, .empty⟩ violated

/-- The element as seen from a container that leads to its own through a member. -/
def under (lead : String) (e : InvalidElement) : InvalidElement :=
  { e with path := lead ++ "." ++ e.path }

def tag? (e : InvalidElement) (name : String) : Option Tag :=
  e.violated.get? name

def violates (e : InvalidElement) (name : String) : Bool :=
  e.violated.contains name

/-- Adds the violated tags of another element. -/
def merge (e other : InvalidElement) : InvalidElement :=
  { e with violated := e.violated.merge other.violated }

def display (e : InvalidElement) : String :=
  e.path ++ ": violates @" ++ ", @".intercalate e.violated.keys

theorem path_violate (e : InvalidElement) (t : Tag) : (e.violate t).path = e.path := rfl

theorem violates_violate (e : InvalidElement) (t : Tag) (name : String) :
    (e.violate t).violates name = (name == t.name || e.violates name) :=
  Dict.contains_insertNew e.violated t.name name t

theorem path_violateAll (e : InvalidElement) (ts : List Tag) :
    (e.violateAll ts).path = e.path := by
  induction ts generalizing e with
  | nil => rfl
  | cons t ts ih => exact (ih (e.violate t)).trans (path_violate e t)

theorem violates_violateAll (e : InvalidElement) (ts : List Tag) (name : String) :
    (e.violateAll ts).violates name = (ts.any (name == ·.name) || e.violates name) := by
  induction ts generalizing e with
  | nil => rfl
  | cons t ts ih =>
    refine (ih (e.violate t)).trans ?_
    rw [violates_violate, List.any_cons]
    cases name == t.name <;> simp

theorem violates_ofMember (m : Member) (value : Value) (ts : List Tag) (name : String) :
    (ofMember m value ts).violates name = ts.any (name == ·.name) := by
  rw [ofMember, violates_violateAll]
  exact Bool.or_false _

theorem violates_merge (e other : InvalidElement) (name : String) :
    (e.merge other).violates name = (e.violates name || other.violates name) :=
  Dict.contains_merge e.violated other.violated name

theorem path_under (lead : String) (e : InvalidElement) :
    (e.under lead).path = lead ++ "." ++ e.path := rfl

theorem violates_under (lead : String) (e : InvalidElement) (name : String) :
    (e.under lead).violates name = e.violates name := rfl

end InvalidElement

/-- The outcome of a validation. -/
structure Report where
  target : Value
  /-- The invalid elements by path. -/
  invalid : Dict InvalidElement

namespace Report

def empty (target : Value) : Report := ⟨target, .empty⟩

/-- Adds an element, merging it into one that is there under its path. -/
def insert (r : Report) (e : InvalidElement) : Report :=
  match r.invalid.get? e.path with
  | some existing => { r with invalid := r.invalid.insert e.path (existing.merge e) }
  | none => { r with invalid := r.invalid.insert e.path e }

def ofElements (target : Value) (es : List InvalidElement) : Report :=
  es.foldl insert (empty target)

/-- The invalid elements in the order of their paths. -/
def elements (r : Report) : List InvalidElement :=
  r.invalid.values

def paths (r : Report) : List String :=
  r.invalid.keys

def element? (r : Report) (path : String) : Option InvalidElement :=
  r.invalid.get? path

def size (r : Report) : Nat :=
  r.invalid.size

def isValid (r : Report) : Bool :=
  r.invalid.pairs.isEmpty

/-- Whether a tag of some name is reported under a path. -/
def violates (r : Report) (path name : String) : Bool :=
  (r.element? path).any (·.violates name)

def display (r : Report) : String :=
  let subject := r.target.type.display
  if r.isValid then subject ++ " is valid"
  else
    subject ++ " has " ++ toString r.size ++ " invalid element(s):\n" ++
      String.join (r.elements.map fun e => "  " ++ e.display ++ "\n")

theorem elements_empty (target : Value) : (empty target).elements = [] := rfl

theorem violates_insert (r : Report) (e : InvalidElement) (path name : String) :
    (r.insert e).violates path name =
      (r.violates path name || path == e.path && e.violates name) := by
  by_cases h : path = e.path
  · subst h
    simp only [violates, element?, insert]
    split
    · rename_i existing found
      simp [found, Dict.get?_insert_self, InvalidElement.violates_merge]
    · rename_i missing
      simp [missing, Dict.get?_insert_self]
  · simp only [violates, element?, insert]
    split <;> simp [Dict.get?_insert_of_ne _ _ _ _ h, h]

theorem target_insert (r : Report) (e : InvalidElement) : (r.insert e).target = r.target := by
  simp only [insert]
  split <;> rfl

end Report

end Memberwise
