import Memberwise.Pattern.Basic

/-!
# How large a pattern is

Patterns are bounded twice: in how deep their parts are nested, and in the size
of the automaton that they describe.  A repetition stands for as many copies of
its part as it may take, so a short text can describe a large automaton.
-/

namespace Memberwise.Pattern

mutual

/-- How deep the parts of a pattern are nested. -/
def nesting : Pattern → Nat
  | repetition p _ _ => nesting p + 1
  | group _ _ p => nesting p + 1
  | sequence ps => nestingAll ps + 1
  | choice ps => nestingAll ps + 1
  | empty | char _ | set _ | anchor _ => 0
termination_by structural p => p

def nestingAll : List Pattern → Nat
  | [] => 0
  | p :: ps => max (nesting p) (nestingAll ps)
termination_by structural ps => ps

end

mutual

/-- Whether a pattern may take no character, conditions on places aside. -/
def mayBeEmpty : Pattern → Bool
  | empty | anchor _ => true
  | char _ | set _ => false
  | repetition p min _ => min == 0 || mayBeEmpty p
  | group _ _ p => mayBeEmpty p
  | sequence ps => allMayBeEmpty ps
  | choice ps => someMayBeEmpty ps
termination_by structural p => p

def allMayBeEmpty : List Pattern → Bool
  | [] => true
  | p :: ps => mayBeEmpty p && allMayBeEmpty ps
termination_by structural ps => ps

def someMayBeEmpty : List Pattern → Bool
  | [] => false
  | p :: ps => mayBeEmpty p || someMayBeEmpty ps
termination_by structural ps => ps

end

/-- The bytes of one state of an automaton. -/
def stateSize : Nat := 32

/-- The bytes of a state with branches, each of which has a number. -/
def branchSize (branches : Nat) : Nat :=
  stateSize + 4 * branches

/-- The bytes of a repeated part, given those of the part itself.  A bounded
repetition has a way out before each part that it may leave away; an unbounded
one ends in a loop, which takes two branches if the part may be empty. -/
def repetitionSize (part : Nat) (partMayBeEmpty : Bool) (min : Nat) : Option Nat → Nat
  | none =>
    if min = 0 then
      part + if partMayBeEmpty then 2 * branchSize 2 + stateSize else branchSize 2
    else min * part + branchSize 2
  | some max =>
    if min = max then min * part
    else if min = 0 ∧ max = 1 then part + branchSize 2 + stateSize
    else
      (if min = 0 then stateSize else min * part) + stateSize + (max - min) * (part + branchSize 2)

mutual

/-- The bytes of the states of a pattern. -/
def size : Pattern → Nat
  | empty | char _ | anchor _ => stateSize
  | set ranges => stateSize + 8 * ranges.length
  | group _ _ p => size p + 2 * stateSize
  | sequence ps => sizeAll ps
  | choice ps => sizeAll ps + branchSize ps.length + stateSize
  | repetition p min max => repetitionSize (size p) (mayBeEmpty p) min max
termination_by structural p => p

def sizeAll : List Pattern → Nat
  | [] => 0
  | p :: ps => size p + sizeAll ps
termination_by structural ps => ps

end

mutual

/-- The groups of a pattern, by number and name. -/
def groups : Pattern → List (Nat × Option String)
  | empty | char _ | set _ | anchor _ => []
  | group number name p => (number, name) :: groups p
  | repetition p _ _ => groups p
  | sequence ps => groupsAll ps
  | choice ps => groupsAll ps
termination_by structural p => p

def groupsAll : List Pattern → List (Nat × Option String)
  | [] => []
  | p :: ps => groups p ++ groupsAll ps
termination_by structural ps => ps

end

/-- The bytes of the name of a group and of its number beside it. -/
def nameSize : Option String → Nat
  | none => 0
  | some name => name.utf8ByteSize + 4

/-- The bytes that the names of groups take, and the list of all groups up to
the greatest number. -/
def groupTableSize (gs : List (Nat × Option String)) : Nat :=
  gs.foldl (fun bytes g => bytes + nameSize g.2)
    (16 * (gs.foldl (fun most g => Nat.max most g.1) 0 + 1))

/-- The bytes of the automaton of a pattern: its states between the two that
mark the whole match, one to stop in, and what is kept of its groups. -/
def automatonSize (p : Pattern) : Nat :=
  p.size + 3 * stateSize + groupTableSize p.groups

/-- The greatest nesting of parts in a pattern. -/
def maxNesting : Nat := 50

/-- The greatest size of an automaton. -/
def maxSize : Nat := 10 * Nat.pow 2 20

/-- Whether a pattern is within its bounds. -/
def isBounded (p : Pattern) : Bool :=
  p.nesting ≤ maxNesting && p.automatonSize ≤ maxSize

end Memberwise.Pattern
