import Memberwise.Member.Basic

/-!
# The world

The heap and the catalogs, and the operations that change them.  An `Edit` sees
the heap, may change it step by step and may end with an error; what it has
changed until then stays.
-/

namespace Memberwise

/-- Everything that lasts between operations. -/
structure World where
  heap : Heap
  catalogs : Catalogs

def World.empty : World := ⟨.empty, .empty⟩

instance : Inhabited World := ⟨World.empty⟩

/-- An operation on a state, which it may change step by step. -/
abbrev EditOf (σ ε α : Type) := ExceptT ε (StateT σ Lookup) α

namespace EditOf

variable {σ ε α : Type}

/-- A question about the state as it is. -/
def look (f : σ → Query ε α) : EditOf σ ε α :=
  ExceptT.mk fun s => do return (← (f s).run, s)

/-- A change of the state, none if it fails. -/
def update (f : σ → Query ε σ) : EditOf σ ε Unit :=
  ExceptT.mk fun s => do
    match ← (f s).run with
    | .ok changed => return (.ok (), changed)
    | .error e => return (.error e, s)

end EditOf

/-- An operation that may change the heap. -/
abbrev Edit (ε α : Type) := EditOf Heap ε α

namespace Edit

variable {ε α : Type}

/-- A question about the heap as it is. -/
abbrev look (f : Heap → Query ε α) : Edit ε α := EditOf.look f

/-- A change of the heap, none if it fails. -/
abbrev update (f : Heap → Query ε Heap) : Edit ε Unit := EditOf.update f

def heap : Edit ε Heap := look pure

/-- Carries out an edit on a world. -/
def run (e : Edit ε α) (w : World) : Except ε α × World :=
  let ((result, heap), catalogs) := (StateT.run (ExceptT.run e) w.heap).run w.catalogs
  (result, ⟨heap, catalogs⟩)

end Edit

/-- Answers a query about the heap of a world. -/
def Query.run {ε α : Type} (w : World) (q : Heap → Query ε α) : Except ε α × World :=
  (Edit.look q).run w

namespace Member

/-- Writes a value through a bound member. -/
def assign (m : Member) (value : Value) : Edit MemberError Unit :=
  Edit.update fun h => m.write h value

/-- Writes a value through a member of a given container. -/
def assignIn (m : Member) (target value : Value) : Edit MemberError Unit :=
  Edit.update fun h => m.writeIn h target value

end Member

end Memberwise
