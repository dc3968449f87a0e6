import Memberwise.Pattern.Size

/-!
# Finding patterns in texts

A text has a place before each of its characters and one at its end, and a
pattern leads from a place to those that a match from there can end at.  To find
a pattern in a text, all places are followed at once: sets of places are the bits
of a number, and a pattern is first laid over the text, which turns conditions
and sets of characters into the sets of places where they hold.

Loops are followed by sweeps over the whole overlay.  In each of them a loop goes
on from what comes in and from where its part ended in the sweep before.  What
comes in only grows from sweep to sweep, so sweeps are over when no loop has
learnt anything new.
-/

namespace Memberwise

/-- A set of places, as bits. -/
structure Places where
  bits : Nat
  deriving DecidableEq

namespace Places

def none : Places := ⟨0⟩

/-- The places at which a list has an element with a property. -/
def having {α : Type} (f : α → Bool) (xs : List α) : Places :=
  ⟨xs.foldr (fun x bits => 2 * bits + (f x).toNat) 0⟩

def has (s : Places) (place : Nat) : Bool :=
  s.bits.testBit place

def union (s t : Places) : Places := ⟨s.bits ||| t.bits⟩

def inter (s t : Places) : Places := ⟨s.bits &&& t.bits⟩

/-- The places one further. -/
def next (s : Places) : Places := ⟨s.bits <<< 1⟩

theorem has_none (place : Nat) : none.has place = false :=
  Nat.zero_testBit place

theorem has_union (s t : Places) (place : Nat) :
    (s.union t).has place = (s.has place || t.has place) :=
  Nat.testBit_or _ _ _

theorem has_inter (s t : Places) (place : Nat) :
    (s.inter t).has place = (s.has place && t.has place) :=
  Nat.testBit_and _ _ _

theorem has_next_zero (s : Places) : s.next.has 0 = false := by
  simp [has, next]

theorem has_next_succ (s : Places) (place : Nat) : s.next.has (place + 1) = s.has place := by
  simp [has, next]

theorem has_having {α : Type} (f : α → Bool) (xs : List α) (place : Nat) :
    (having f xs).has place = xs[place]?.any f := by
  induction xs generalizing place with
  | nil => exact Nat.zero_testBit place
  | cons x xs ih =>
    have bits : (having f (x :: xs)).bits = 2 * (having f xs).bits + (f x).toNat := rfl
    cases place with
    | zero => cases h : f x <;> simp [has, bits, h, Nat.testBit_zero]
    | succ place =>
      have half : (2 * (having f xs).bits + (f x).toNat) / 2 = (having f xs).bits := by
        cases f x with
        | false => simp
        | true => simp; omega
      simpa [has, bits, Nat.testBit_succ, half] using ih place

end Places

/-- ASCII letters, digits and the underscore. -/
def isWordChar (c : Char) : Bool :=
  c.isAlphanum || c = '_'

namespace Anchor

/-- Whether a condition holds between two neighbours, which are missing at the
ends of the text. -/
def holds (before after : Option Char) : Anchor → Bool
  | textStart => before.isNone
  | textEnd => after.isNone
  | lineStart => before.isNone || before == some '\n'
  | lineEnd => after.isNone || after == some '\n'
  | returnLineStart =>
    before.isNone || before == some '\n' || (before == some '\r' && after != some '\n')
  | returnLineEnd =>
    after.isNone || after == some '\r' || (after == some '\n' && before != some '\r')
  | wordEdge => before.any isWordChar != after.any isWordChar
  | noWordEdge => before.any isWordChar == after.any isWordChar
  | wordStart => !before.any isWordChar && after.any isWordChar
  | wordEnd => before.any isWordChar && !after.any isWordChar
  | wordStartHalf => !before.any isWordChar
  | wordEndHalf => !after.any isWordChar

end Anchor

/-- A pattern laid over a text. -/
inductive Overlay where
  /-- Stays where it is, at some places. -/
  | stay (places : Places)
  /-- Takes one character, at some places. -/
  | step (places : Places)
  /-- A part once or more in a row, which is known to end at some places. -/
  | loop (part : Overlay) (known : Places)
  | sequence (os : List Overlay)
  | choice (os : List Overlay)

/-- What a sweep from some places leaves: what was swept over, with what its
loops know now, the places it ends at, and whether no loop has learnt anything. -/
structure Sweep (α : Type) where
  swept : α
  ends : Places
  isSettled : Bool

namespace Overlay

mutual

/-- Goes through an overlay once, from some places. -/
def sweep : Overlay → Places → Sweep Overlay
  | stay places, s => ⟨stay places, s.inter places, true⟩
  | step places, s => ⟨step places, (s.inter places).next, true⟩
  | loop part known, s =>
    let r := sweep part (s.union known)
    ⟨loop r.swept r.ends, r.ends, r.isSettled && r.ends = known⟩
  | sequence os, s =>
    let r := sweepSequence os [] true s
    { r with swept := sequence r.swept }
  | choice os, s =>
    let r := sweepChoice os [] true .none s
    { r with swept := choice r.swept }
termination_by structural o => o

/-- Goes through overlays in a row, after some that are done.  Behind a place that
nothing comes to, nothing ever came. -/
def sweepSequence : List Overlay → (done : List Overlay) → (settled : Bool) → Places →
    Sweep (List Overlay)
  | [], done, settled, s => ⟨done.reverse, s, settled⟩
  | o :: os, done, settled, s =>
    if s = .none then ⟨done.reverseAux (o :: os), .none, settled⟩
    else
      let r := sweep o s
      sweepSequence os (r.swept :: done) (settled && r.isSettled) r.ends
termination_by structural os => os

/-- Goes through alternatives, after some that are done and end at some places. -/
def sweepChoice : List Overlay → (done : List Overlay) → (settled : Bool) → (ends : Places) →
    Places → Sweep (List Overlay)
  | [], done, settled, ends, _ => ⟨done.reverse, ends, settled⟩
  | o :: os, done, settled, ends, s =>
    let r := sweep o s
    sweepChoice os (r.swept :: done) (settled && r.isSettled) (ends.union r.ends) s
termination_by structural os => os

end

/-- Sweeps over an overlay until its loops know all, and at most so many times
more than once. -/
def reach : (more : Nat) → Overlay → Places → Places
  | 0, o, s => (o.sweep s).ends
  | more + 1, o, s =>
    let r := o.sweep s
    if r.isSettled then r.ends else reach more r.swept s

/-- Overlays for a part that is repeated, given the one that stays everywhere. -/
def repeated (part everywhere : Overlay) (min : Nat) : Option Nat → Overlay
  | none =>
    if min = 0 then choice [everywhere, loop part .none]
    else sequence (List.replicate (min - 1) part ++ [loop part .none])
  | some max =>
    sequence (List.replicate min part ++ List.replicate (max - min) (choice [everywhere, part]))

end Overlay

/-- The neighbours of every place of a text. -/
def neighbours (text : List Char) : List (Option Char × Option Char) :=
  (none :: text.map some).zip (text.map some ++ [none])

namespace Pattern

mutual

/-- Lays a pattern over a text. -/
def overlay (text : List Char) : Pattern → Overlay
  | empty => .stay (.having (fun _ => true) (neighbours text))
  | char c => .step (.having (· == c) text)
  | set ranges => .step (.having (CharRange.contains ranges) text)
  | anchor a => .stay (.having (fun n => a.holds n.1 n.2) (neighbours text))
  | repetition p min max =>
    (overlay text p).repeated (.stay (.having (fun _ => true) (neighbours text))) min max
  | group _ _ p => overlay text p
  | sequence ps => .sequence (overlayAll text ps)
  | choice ps => .choice (overlayAll text ps)
termination_by structural p => p

def overlayAll (text : List Char) : List Pattern → List Overlay
  | [] => []
  | p :: ps => overlay text p :: overlayAll text ps
termination_by structural ps => ps

end

/-- Whether a pattern matches somewhere in a text.  A sweep that settles nothing
adds a place to what a loop knows, and no automaton has more loops than bytes. -/
def occursIn (p : Pattern) (text : String) : Bool :=
  let cs := text.toList
  (p.overlay cs).reach (p.size * (cs.length + 1)) (.having (fun _ => true) (neighbours cs)) != .none

end Pattern

end Memberwise
