import Memberwise.Text.Numeral

/-!
# The shortest decimal of a binary64 number

A finite non-zero number `m · 2^q` stands for every real that rounds to it, an
interval whose ends belong to it when `m` is even.  `shortest` looks on the
decimal grids with one, two, … up to seventeen digits for a point of that
interval, and of two points on the first grid that has any it takes the nearer,
of two equally near ones the upper.  All arithmetic is exact, on fractions with
a common denominator.

On top of it stand the two ways of writing a number: `display` writes it out in
full, `inspect` keeps a decimal point and turns to an exponent for very large
and very small numbers.
-/

namespace Memberwise.Text

/-- A positive decimal `digits · 10^exponent`. -/
structure Decimal where
  digits : Nat
  exponent : Int
  deriving DecidableEq

namespace Decimal

/-- Without trailing zeros in the digits. -/
def strip : (fuel : Nat) → Decimal → Decimal
  | 0, d => d
  | fuel + 1, d =>
    if d.digits ≠ 0 ∧ d.digits % 10 = 0 then strip fuel ⟨d.digits / 10, d.exponent + 1⟩ else d

/-- How many digits stand before the decimal point; none or less for a number below one. -/
def point (d : Decimal) : Int :=
  (Numeral.digits d.digits).length + d.exponent

end Decimal

/-- The magnitude `m · 2^q` of a finite number, and whether the number below it
is only half as far away as the one above, as at a power of two. -/
structure Magnitude where
  m : Nat
  q : Int
  narrowBelow : Bool

/-- The magnitude of a finite number, from its bits. -/
def Magnitude.ofFloat (f : Float) : Magnitude :=
  let bits := f.toBits.toNat
  let fraction := bits % Nat.pow 2 52
  let biased := bits / Nat.pow 2 52 % Nat.pow 2 11
  if biased = 0 then ⟨fraction, -1074, false⟩
  else ⟨fraction + Nat.pow 2 52, Int.ofNat biased - 1075, fraction = 0 && biased > 1⟩

/-- An interval of reals around a value, over a common denominator. -/
structure Bracket where
  low : Nat
  value : Nat
  high : Nat
  denominator : Nat
  closed : Bool

/-- The reals that round to a magnitude. -/
def Magnitude.bracket (x : Magnitude) : Bracket :=
  let up := Nat.pow 2 (x.q - 2).toNat
  { low := (4 * x.m - if x.narrowBelow then 1 else 2) * up
    value := 4 * x.m * up
    high := (4 * x.m + 2) * up
    denominator := Nat.pow 2 (2 - x.q).toNat
    closed := x.m % 2 = 0 }

namespace Bracket

/-- The bracket in units of `10^k`. -/
def scale (b : Bracket) (k : Int) : Bracket :=
  let up := Nat.pow 10 (-k).toNat
  { b with low := b.low * up, value := b.value * up, high := b.high * up,
           denominator := b.denominator * Nat.pow 10 k.toNat }

def holds (b : Bracket) (n : Nat) : Bool :=
  let p := n * b.denominator
  if b.closed then b.low ≤ p && p ≤ b.high else b.low < p && p < b.high

/-- How far a grid point is from the value, in units of the denominator. -/
def distance (b : Bracket) (n : Nat) : Nat :=
  let p := n * b.denominator
  if p ≤ b.value then b.value - p else p - b.value

/-- The better of the two grid points next to the value, if the bracket holds one. -/
def nearest? (b : Bracket) : Option Nat :=
  let below := b.value / b.denominator
  let above := below + 1
  match b.holds below, b.holds above with
  | true, true => some (if b.distance below < b.distance above then below else above)
  | true, false => some below
  | false, true => some above
  | false, false => none

/-- The number of digits before the point of the value, or, for a value below
one, less the zeros that follow its point. -/
def point (b : Bracket) : Int :=
  if b.denominator ≤ b.value then Int.ofNat (Numeral.digits (b.value / b.denominator)).length
  else
    let ones := (List.range 400).find? (fun j => b.denominator ≤ b.value * Nat.pow 10 (j + 1))
    Int.negOfNat (ones.getD 0)

end Bracket

/-- The shortest decimal that rounds to a finite non-zero number's magnitude. -/
def shortest (f : Float) : Decimal :=
  let b := (Magnitude.ofFloat f).bracket
  let point := b.point
  let found := (List.range 17).findSome? (fun n =>
    let k := point - Int.ofNat (n + 1)
    ((b.scale k).nearest?).map (fun d => Decimal.strip 20 ⟨d, k⟩))
  found.getD ⟨0, 0⟩

def zeros (n : Nat) : List Char :=
  List.replicate n '0'

/-- A decimal written out, with its point only where digits follow it. -/
def positional (d : Decimal) : List Char :=
  let ds := Numeral.digits d.digits
  if 0 ≤ d.exponent then ds ++ zeros d.exponent.toNat
  else if 0 < d.point then ds.take d.point.toNat ++ '.' :: ds.drop d.point.toNat
  else '0' :: '.' :: zeros (-d.point).toNat ++ ds

/-- One digit, the others after a point, and the power of ten that the first stands for. -/
def scientific (d : Decimal) : List Char :=
  let ds := Numeral.digits d.digits
  let rest := ds.drop 1
  ds.take 1 ++ (if rest.isEmpty then [] else '.' :: rest) ++ 'e' :: (toString (d.point - 1)).toList

/-- A number with sign, by a way to write its magnitude and a text for zero. -/
def written (f : Float) (zero : String) (magnitude : Decimal → List Char) : String :=
  if f.isNaN then "NaN"
  else
    let sign := if f.toBits.toNat ≥ Nat.pow 2 63 then "-" else ""
    if f.isInf then sign ++ "inf"
    else if f == 0 then sign ++ zero
    else sign ++ String.ofList (magnitude (shortest f))

/-- A number in full, never with an exponent and never ending in `.0`. -/
def displayFloat (f : Float) : String :=
  written f "0" positional

/-- A number with a decimal point, or with an exponent outside `10^-4 ≤ |f| < 10^16`. -/
def inspectFloat (f : Float) : String :=
  written f "0.0" fun d =>
    if d.point < -3 || 16 < d.point then scientific d
    else if 0 ≤ d.exponent then positional d ++ ['.', '0']
    else positional d

end Memberwise.Text
