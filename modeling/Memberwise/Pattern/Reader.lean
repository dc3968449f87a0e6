import Memberwise.Pattern.Size
import Memberwise.Text.Alphanumeric
import Memberwise.Text.Blank

/-!
# Reading patterns

The written form of text patterns: `.`, classes in brackets with POSIX names,
`\d \w \s` and their negations, escapes by number, anchors, groups with names
or flags, and repetitions.  Classes are ASCII only, and `(?i)` folds ASCII
letters alone; the names of groups take letters and numbers of all scripts.
Neither look-around nor back-references exist.

The reader goes through the text once, with a stack for the open groups.  Each
step takes at least one character, so the length of the text bounds the number
of steps.
-/

namespace Memberwise.PatternReader

/-- What `(?…)` can switch on and off. -/
structure Flags where
  caseless : Bool
  multiLine : Bool
  dotAll : Bool
  returns : Bool
  verbose : Bool

def Flags.off : Flags := ⟨false, false, false, false, false⟩

/-! Blanks and comments, which count for nothing while the verbose flag is on. -/

mutual

def skipBlanks : List Char → List Char
  | [] => []
  | c :: cs => if Text.isBlank c then skipBlanks cs else if c = '#' then skipComment cs else c :: cs

def skipComment : List Char → List Char
  | [] => []
  | c :: cs => if c = '\n' then skipBlanks cs else skipComment cs

end

def Flags.space (f : Flags) (cs : List Char) : List Char :=
  if f.verbose then skipBlanks cs else cs

/-- Looks for the first character that is no blank and does not open a comment. -/
def peekBlank (commented : Bool) : List Char → Option Char
  | [] => none
  | c :: cs =>
    if Text.isBlank c then peekBlank commented cs
    else if !commented && c = '#' then peekBlank true cs
    else some c

/-- The next character that counts. -/
def Flags.peek (f : Flags) (cs : List Char) : Option Char :=
  if f.verbose then (peekBlank false cs).or cs.head? else cs.head?

/-! Classes. -/

open CharRange in
/-- The characters of a POSIX class. -/
def posixClass? (name : String) : Option (List CharRange) :=
  match name with
  | "alnum" => some [between '0' '9', between 'A' 'Z', between 'a' 'z']
  | "alpha" => some [between 'A' 'Z', between 'a' 'z']
  | "ascii" => some [⟨0, 0x7f⟩]
  | "blank" => some [single '\t', single ' ']
  | "cntrl" => some [⟨0, 0x1f⟩, ⟨0x7f, 0x7f⟩]
  | "digit" => some [between '0' '9']
  | "graph" => some [between '!' '~']
  | "lower" => some [between 'a' 'z']
  | "print" => some [between ' ' '~']
  | "punct" => some [between '!' '/', between ':' '@', ⟨0x5b, 0x60⟩, ⟨0x7b, 0x7e⟩]
  | "space" => some [⟨0x9, 0xd⟩, single ' ']
  | "upper" => some [between 'A' 'Z']
  | "word" => some [between '0' '9', between 'A' 'Z', single '_', between 'a' 'z']
  | "xdigit" => some [between '0' '9', between 'A' 'F', between 'a' 'f']
  | _ => none

/-- The class behind a backslash, if the letter stands for one. -/
def letterClass? (c : Char) : Option (List CharRange) :=
  let named (name : String) := (posixClass? name).getD []
  match c with
  | 'd' => some (named "digit")
  | 's' => some (named "space")
  | 'w' => some (named "word")
  | 'D' => some (CharRange.complement (named "digit"))
  | 'S' => some (CharRange.complement (named "space"))
  | 'W' => some (CharRange.complement (named "word"))
  | _ => none

/-- One character as a pattern, in both cases where case does not count. -/
def Flags.char (f : Flags) (c : Char) : Pattern :=
  match (CharRange.single c).otherCase? with
  | some other => if f.caseless then .set [.single c, other] else .char c
  | none => .char c

def Flags.dot (f : Flags) : Pattern :=
  let excluded : List CharRange :=
    if f.dotAll then []
    else if f.returns then [.single '\n', .single '\r']
    else [.single '\n']
  .set (CharRange.complement excluded)

def Flags.lineStart (f : Flags) : Pattern :=
  .anchor (if f.multiLine then (if f.returns then .returnLineStart else .lineStart) else .textStart)

def Flags.lineEnd (f : Flags) : Pattern :=
  .anchor (if f.multiLine then (if f.returns then .returnLineEnd else .lineEnd) else .textEnd)

/-! Escapes. -/

def isHexDigit (c : Char) : Bool :=
  c.isDigit || ('a' ≤ c && c ≤ 'f') || ('A' ≤ c && c ≤ 'F')

def hexDigitValue (c : Char) : Nat :=
  if c.isDigit then c.toNat - '0'.toNat
  else if 'a' ≤ c then c.toNat - 'a'.toNat + 10
  else c.toNat - 'A'.toNat + 10

/-- The character of a hexadecimal number. -/
def hexChar? (digits : List Char) : Option Char :=
  let n := digits.foldl (fun n c => 16 * n + hexDigitValue c) 0
  if h : n.isValidChar then some (Char.ofNatAux n h) else none

/-- A number of hexadecimal digits. -/
def fixedHex? (f : Flags) : Nat → List Char → List Char → Option (List Char × List Char)
  | 0, cs, digits => some (digits.reverse, cs)
  | n + 1, c :: cs, digits =>
    if isHexDigit c then fixedHex? f n (f.space cs) (c :: digits) else none
  | _ + 1, [], _ => none

/-- Hexadecimal digits up to a closing brace. -/
def bracedHex? (f : Flags) : (fuel : Nat) → List Char → List Char →
    Option (List Char × List Char)
  | fuel + 1, c :: cs, digits =>
    if c = '\x7d' then some (digits.reverse, f.space cs)
    else if isHexDigit c then bracedHex? f fuel (f.space cs) (c :: digits)
    else none
  | _, _, _ => none

/-- A character by its number, after the letter that says how it is written. -/
def numberedChar? (f : Flags) (places : Nat) (cs : List Char) : Option (Char × List Char) := do
  let cs := f.space cs
  let (digits, rest) ←
    match cs with
    | '\x7b' :: inner => bracedHex? f (cs.length + 1) (f.space inner) []
    | _ => fixedHex? f places cs []
  guard !digits.isEmpty
  return (← hexChar? digits, rest)

/-- Characters that have a meaning of their own in patterns. -/
def isMeta (c : Char) : Bool :=
  ['\\', '.', '+', '*', '?', '(', ')', '|', '[', ']', '\x7b', '\x7d', '^', '$', '#', '&', '-',
    '~'].contains c

/-- Characters that a backslash may stand before without changing them. -/
def isEscapable (c : Char) : Bool :=
  isMeta c || (c.toNat < 0x80 && !c.isAlphanum && c != '<' && c != '>')

/-- The control characters that letters stand for behind a backslash. -/
def control? (c : Char) : Option Char :=
  match c with
  | 'a' => some '\x07'
  | 'f' => some '\x0c'
  | 't' => some '\t'
  | 'n' => some '\n'
  | 'r' => some '\r'
  | 'v' => some '\x0b'
  | _ => none

def isEdgeNameChar (c : Char) : Bool :=
  c.isAlpha || c = '-'

/-- The name of an edge of words, up to a closing brace. -/
def edgeName? (f : Flags) : (fuel : Nat) → List Char → List Char →
    Option (List Char × List Char)
  | fuel + 1, c :: cs, name =>
    if c = '\x7d' then some (name.reverse, cs)
    else if isEdgeNameChar c then edgeName? f fuel (f.space cs) (c :: name)
    else none
  | _, _, _ => none

def edgeByName? (name : String) : Option Anchor :=
  match name with
  | "start" => some .wordStart
  | "end" => some .wordEnd
  | "start-half" => some .wordStartHalf
  | "end-half" => some .wordEndHalf
  | _ => none

/-- The anchor `\b`, or a special edge of words in braces behind it.  Braces
that do not start with a name are left for a repetition. -/
def wordEdge? (f : Flags) (cs : List Char) : Option (Pattern × List Char) :=
  match cs with
  | '\x7b' :: inner =>
    match f.space inner with
    | [] => none
    | c :: rest =>
      if isEdgeNameChar c then do
        let (name, rest) ← edgeName? f (cs.length + 1) (c :: rest) []
        return (.anchor (← edgeByName? (String.ofList name)), rest)
      else some (.anchor .wordEdge, cs)
  | _ => some (.anchor .wordEdge, cs)

/-- What a backslash and the characters behind it stand for. -/
def escape? (f : Flags) : List Char → Option (Pattern × List Char)
  | [] => none
  | c :: cs =>
    if c = 'x' then (numberedChar? f 2 cs).map fun p => (f.char p.1, p.2)
    else if c = 'u' then (numberedChar? f 4 cs).map fun p => (f.char p.1, p.2)
    else if c = 'U' then (numberedChar? f 8 cs).map fun p => (f.char p.1, p.2)
    else if isEscapable c then some (f.char c, cs)
    else if c = 'A' then some (.anchor .textStart, cs)
    else if c = 'z' then some (.anchor .textEnd, cs)
    else if c = 'b' then wordEdge? f cs
    else if c = 'B' then some (.anchor .noWordEdge, cs)
    else if c = '<' then some (.anchor .wordStart, cs)
    else if c = '>' then some (.anchor .wordEnd, cs)
    else
      match letterClass? c, control? c with
      | some ranges, _ => some (.set ranges, cs)
      | none, some d => some (.char d, cs)
      | none, none => none

/-! Bracketed classes. -/

/-- The name of a POSIX class and what follows it, from behind the first colon. -/
def posixName? : List Char → List Char → Option (List Char × List Char)
  | ':' :: ']' :: rest, name => some (name.reverse, rest)
  | ':' :: _, _ => none
  | c :: cs, name => posixName? cs (c :: name)
  | [], _ => none

/-- A POSIX class inside brackets, from behind its opening bracket. -/
def posixItem? (cs : List Char) : Option (List CharRange × List Char) :=
  match cs with
  | ':' :: '^' :: cs => do
    let (name, rest) ← posixName? cs []
    return (CharRange.complement (← posixClass? (String.ofList name)), rest)
  | ':' :: cs => do
    let (name, rest) ← posixName? cs []
    return (← posixClass? (String.ofList name), rest)
  | _ => none

/-- One item of a class: a character or an escape. -/
def classItem? (f : Flags) : List Char → Option (Pattern × List Char)
  | '\\' :: cs => escape? f cs
  | c :: cs => some (.char c, cs)
  | [] => none

/-- The characters of an item that is not the start of a range. -/
def itemRanges? : Pattern → Option (List CharRange)
  | .char c => some [.single c]
  | .set ranges => some ranges
  | _ => none

def itemChar? : Pattern → Option Char
  | .char c => some c
  | _ => none

/-- An item of a class or a range between two. -/
def classRange? (f : Flags) (cs : List Char) : Option (List CharRange × List Char) := do
  let (item, cs) ← classItem? f cs
  match f.space cs with
  | [] => none
  | '-' :: rest =>
    let next := f.peek rest
    if next = some ']' || next = some '-' then return (← itemRanges? item, '-' :: rest)
    let (upper, rest) ← classItem? f (f.space rest)
    let low ← itemChar? item
    let high ← itemChar? upper
    guard (low ≤ high)
    return ([.between low high], rest)
  | cs => return (← itemRanges? item, cs)

/-- The items of a class up to its closing bracket. -/
def classItems? (f : Flags) : (fuel : Nat) → List Char → List CharRange →
    Option (List CharRange × List Char)
  | 0, _, _ => none
  | fuel + 1, cs, found =>
    match f.space cs with
    | [] => none
    | ']' :: rest => some (found, rest)
    | '[' :: rest => do
      let (ranges, rest) ← posixItem? rest
      classItems? f fuel rest (found ++ ranges)
    | '&' :: '&' :: _ => none
    | '-' :: '-' :: _ => none
    | '~' :: '~' :: _ => none
    | cs => do
      let (ranges, rest) ← classRange? f cs
      classItems? f fuel rest (found ++ ranges)

/-- Dashes at the start of a class, which stand for themselves. -/
def leadingDashes (f : Flags) : (fuel : Nat) → List Char → List CharRange →
    List CharRange × List Char
  | fuel + 1, '-' :: cs, found => leadingDashes f fuel (f.space cs) (found ++ [.single '-'])
  | _, cs, found => (found, cs)

/-- A class, from behind its opening bracket. -/
def class? (f : Flags) (cs : List Char) : Option (Pattern × List Char) := do
  let fuel := cs.length + 1
  let cs := f.space cs
  let (negated, cs) :=
    match cs with
    | '^' :: rest => (true, f.space rest)
    | _ => (false, cs)
  let (dashes, cs) := leadingDashes f fuel cs []
  let (start, cs) :=
    match dashes, cs with
    | [], ']' :: rest => ([.single ']'], f.space rest)
    | _, _ => (dashes, cs)
  let (ranges, rest) ← classItems? f fuel cs start
  let ranges := CharRange.normalize ranges
  let ranges := if f.caseless then CharRange.normalize (CharRange.foldCase ranges) else ranges
  return (.set (if negated then CharRange.complement ranges else ranges), rest)

/-! Repetitions. -/

/-- Decimal digits, and the blanks between them where those do not count. -/
def decimalDigits (f : Flags) : (fuel : Nat) → List Char → List Char → List Char × List Char
  | fuel + 1, c :: cs, digits =>
    if c.isDigit then decimalDigits f fuel (f.space cs) (c :: digits)
    else (digits.reverse, c :: cs)
  | _, cs, digits => (digits.reverse, cs)

/-- A number below `2^32` with blanks around it. -/
def decimal? (f : Flags) (cs : List Char) : Option (Nat × List Char) := do
  let (digits, rest) := decimalDigits f (cs.length + 1) (cs.dropWhile Text.isBlank) []
  guard !digits.isEmpty
  let n := digits.foldl (fun n c => 10 * n + (c.toNat - '0'.toNat)) 0
  guard (n < Nat.pow 2 32)
  return (n, f.space (rest.dropWhile Text.isBlank))

/-- The bounds of a counted repetition, from behind its opening brace. -/
def counts? (f : Flags) (cs : List Char) : Option (Nat × Option Nat × List Char) := do
  let (min, cs) ← decimal? f (f.space cs)
  match cs with
  | '\x7d' :: rest => return (min, some min, rest)
  | ',' :: rest =>
    match f.space rest with
    | '\x7d' :: rest => return (min, none, rest)
    | rest =>
      let (max, rest) ← decimal? f rest
      match rest with
      | '\x7d' :: rest =>
        guard (min ≤ max)
        return (min, some max, rest)
      | _ => none
  | _ => none

/-- What follows a repetition, without the mark that makes it lazy. -/
def skipLazy : List Char → List Char
  | '?' :: cs => cs
  | cs => cs

/-! Groups. -/

/-- Flags up to the colon or the parenthesis that ends them.  None may occur
twice, and one dash may stand among them but not at their end. -/
def flags? (negated : Bool) (seen : List Char) (f : Flags) : List Char → Option (Flags × List Char)
  | [] => none
  | c :: cs =>
    if c = ':' || c = ')' then
      if seen.head? = some '-' then none else some (f, c :: cs)
    else if seen.contains c then none
    else if c = '-' then flags? true (c :: seen) f cs
    else
      let on := !negated
      match c with
      | 'i' => flags? negated (c :: seen) { f with caseless := on } cs
      | 'm' => flags? negated (c :: seen) { f with multiLine := on } cs
      | 's' => flags? negated (c :: seen) { f with dotAll := on } cs
      | 'R' => flags? negated (c :: seen) { f with returns := on } cs
      | 'x' => flags? negated (c :: seen) { f with verbose := on } cs
      | 'U' => flags? negated (c :: seen) f cs
      | 'u' => flags? negated (c :: seen) f cs
      | _ => none

/-- What the name of a group starts with: a letter or the underscore. -/
def isNameStart (c : Char) : Bool :=
  c = '_' || Text.isAlphabetic c

/-- What the name of a group goes on with. -/
def isNameChar (c : Char) : Bool :=
  ['_', '.', '[', ']'].contains c || Text.isAlphanumeric c

/-- The name of a group, up to the angle that ends it. -/
def groupName? : List Char → List Char → Option (String × List Char)
  | '>' :: rest, name => if name.isEmpty then none else some (String.ofList name.reverse, rest)
  | c :: cs, name =>
    if if name.isEmpty then isNameStart c else isNameChar c then groupName? cs (c :: name) else none
  | [], _ => none

/-- How a group starts. -/
inductive Opening where
  | captured (name : Option String)
  | plain (f : Flags)
  /-- No group, but new flags for what follows in the current one. -/
  | flags (f : Flags)

/-- The start of a group, from behind its parenthesis. -/
def opening? (f : Flags) (cs : List Char) : Option (Opening × List Char) :=
  match f.space cs with
  | '?' :: '=' :: _ => none
  | '?' :: '!' :: _ => none
  | '?' :: '<' :: '=' :: _ => none
  | '?' :: '<' :: '!' :: _ => none
  | '?' :: 'P' :: '<' :: cs => (groupName? cs []).map fun p => (.captured (some p.1), p.2)
  | '?' :: '<' :: cs => (groupName? cs []).map fun p => (.captured (some p.1), p.2)
  | '?' :: ')' :: _ => none
  | '?' :: cs =>
    match flags? false [] f cs with
    | some (f, ')' :: rest) => some (.flags f, rest)
    | some (f, ':' :: rest) => some (.plain f, rest)
    | _ => none
  | cs => some (.captured none, cs)

/-- What was read of a group before another one was opened in it; lists are
latest first. -/
structure Frame where
  alternatives : List Pattern
  sequence : List Pattern
  flags : Flags
  /-- What the group that was opened makes of its inner pattern. -/
  wrap : Pattern → Pattern

/-- What has been read so far: the open groups, the innermost first, the parts of
the current one, and how many groups were numbered and which names they took. -/
structure State where
  frames : List Frame
  alternatives : List Pattern
  sequence : List Pattern
  flags : Flags
  numbered : Nat
  names : List String

def State.start : State := ⟨[], [], [], .off, 0, []⟩

namespace State

/-- The current group as a pattern. -/
def close (s : State) : Pattern :=
  .oneOf ((Pattern.inSequence s.sequence.reverse :: s.alternatives).reverse)

def push (s : State) (p : Pattern) : State :=
  { s with sequence := p :: s.sequence }

/-- Opens a group; at most fifty may be open. -/
def enter? (s : State) (f : Flags) (wrap : Pattern → Pattern) : Option State :=
  if s.frames.length < 50 then
    some { s with
      frames := ⟨s.alternatives, s.sequence, s.flags, wrap⟩ :: s.frames
      alternatives := []
      sequence := []
      flags := f }
  else none

/-- Closes the innermost group. -/
def leave? (s : State) : Option State :=
  match s.frames with
  | [] => none
  | frame :: frames =>
    some { s with
      frames := frames
      alternatives := frame.alternatives
      sequence := frame.wrap s.close :: frame.sequence
      flags := frame.flags }

/-- Replaces the last part of the current sequence by its repetition. -/
def repeatLast? (s : State) (min : Nat) (max : Option Nat) : Option State :=
  match s.sequence with
  | [] => none
  | p :: ps => some { s with sequence := p.repeated min max :: ps }

/-- Takes up the start of a group.  Groups have numbers from one on, in the order
in which they start, and no two have the same name. -/
def open? (s : State) (o : Opening) : Option State :=
  match o with
  | .flags f => some { s with flags := f }
  | .plain f => s.enter? f id
  | .captured name =>
    if name.any s.names.contains then none
    else
      let number := s.numbered + 1
      ({ s with numbered := number, names := name.toList ++ s.names } : State).enter? s.flags
        (.group number name)

/-- Takes one part of a pattern from a non-empty rest. -/
def step? (s : State) (c : Char) (cs : List Char) : Option (State × List Char) :=
  match c with
  | '(' => do
    let (o, rest) ← opening? s.flags cs
    return (← s.open? o, rest)
  | ')' => s.leave?.map (·, cs)
  | '|' =>
    some ({ s with
      alternatives := Pattern.inSequence s.sequence.reverse :: s.alternatives, sequence := [] }, cs)
  | '[' => (class? s.flags cs).map fun p => (s.push p.1, p.2)
  | '?' => (s.repeatLast? 0 (some 1)).map (·, skipLazy cs)
  | '*' => (s.repeatLast? 0 none).map (·, skipLazy cs)
  | '+' => (s.repeatLast? 1 none).map (·, skipLazy cs)
  | '\x7b' => do
    let (min, max, rest) ← counts? s.flags cs
    return (← s.repeatLast? min max, skipLazy (s.flags.space rest))
  | '\\' => (escape? s.flags cs).map fun p => (s.push p.1, p.2)
  | '.' => some (s.push s.flags.dot, cs)
  | '^' => some (s.push s.flags.lineStart, cs)
  | '$' => some (s.push s.flags.lineEnd, cs)
  | c => some (s.push (s.flags.char c), cs)

end State

/-- Reads the rest of a pattern. -/
def readRest? : (fuel : Nat) → State → List Char → Option Pattern
  | 0, _, _ => none
  | fuel + 1, s, cs =>
    match s.flags.space cs with
    | [] => if s.frames.isEmpty then some s.close else none
    | c :: cs => do
      let (s, rest) ← s.step? c cs
      readRest? fuel s rest

end Memberwise.PatternReader

namespace Memberwise.Pattern

/-- Reads a pattern; none if it is not written correctly or too large. -/
def read? (text : String) : Option Pattern := do
  let cs := text.toList
  let p ← PatternReader.readRest? (cs.length + 1) .start cs
  guard p.isBounded
  return p

end Memberwise.Pattern
