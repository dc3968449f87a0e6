import Memberwise.Pattern.CharRange

/-!
# Text patterns

Regular expressions over characters.  Sets of characters are lists of ranges,
and conditions on a place between two characters know ASCII words and lines.
Groups are numbered and may have names, but nothing asks what they matched.
-/

namespace Memberwise

/-- A condition on a place in a text. -/
inductive Anchor where
  | textStart
  | textEnd
  | lineStart
  | lineEnd
  /-- Line ends that take a return before a newline as one with it. -/
  | returnLineStart
  | returnLineEnd
  | wordEdge
  | noWordEdge
  | wordStart
  | wordEnd
  | wordStartHalf
  | wordEndHalf
  deriving DecidableEq

inductive Pattern where
  | empty
  | char (c : Char)
  | set (ranges : List CharRange)
  | anchor (a : Anchor)
  /-- At least `min` times in a row, and at most `max` times if that is given. -/
  | repetition (p : Pattern) (min : Nat) (max : Option Nat)
  | group (number : Nat) (name : Option String) (p : Pattern)
  | sequence (ps : List Pattern)
  | choice (ps : List Pattern)

namespace Pattern

/-- Patterns in a row; one alone stands for itself. -/
def inSequence : List Pattern → Pattern
  | [] => empty
  | [p] => p
  | ps => sequence ps

/-- Alternatives; one alone stands for itself. -/
def oneOf : List Pattern → Pattern
  | [p] => p
  | ps => choice ps

/-- A pattern repeated; none for no repetition, itself for exactly one. -/
def repeated (p : Pattern) (min : Nat) (max : Option Nat) : Pattern :=
  if min = 0 ∧ max = some 0 then empty
  else if min = 1 ∧ max = some 1 then p
  else repetition p min max

end Pattern

end Memberwise
