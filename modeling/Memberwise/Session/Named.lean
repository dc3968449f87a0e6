import Memberwise.Session.Basic

/-!
# Names in a session

Each sort of things has its own names, and giving a name again replaces what it
stood for.  Containers that are shown have numbers besides, in the order in which
they are shown first.
-/

namespace Memberwise.Action

def value (name : String) : Action Value := do
  require ((← get).values.get? name)

def member (name : String) : Action Member := do
  require ((← get).members.get? name)

def engine (name : String) : Action Engine := do
  require ((← get).engines.get? name)

def report (name : String) : Action Report := do
  require ((← get).reports.get? name)

def rows (name : String) : Action CursorRef := do
  require ((← get).rows.get? name)

def keepValue (name : String) (v : Value) : Action Unit :=
  modify fun s => { s with values := s.values.insert name v }

def keepMember (name : String) (m : Member) : Action Unit :=
  modify fun s => { s with members := s.members.insert name m }

def keepEngine (name : String) (e : Engine) : Action Unit :=
  modify fun s => { s with engines := s.engines.insert name e }

def keepReport (name : String) (r : Report) : Action Unit :=
  modify fun s => { s with reports := s.reports.insert name r }

/-- Keeps a cursor with rows in memory, also as a value. -/
def keepRows (name : String) (c : CursorRef) : Action Unit := do
  keepValue name (.cursor c)
  modify fun s => { s with rows := s.rows.insert name c }

/-- The number of a container that is shown. -/
def number (identity : Identity) : Action Nat := do
  let s ← get
  match s.shown.idxOf? identity with
  | some n => return n
  | none =>
    set { s with shown := s.shown ++ [identity] }
    return s.shown.length

end Memberwise.Action
