/-!
# Decimal numerals

Plain numerals, as they name the positions of a list: non-empty strings of the
ten ASCII digits, read in base ten.  Leading zeros are allowed when reading and
never written.  The main statement is `value_digits`: a written number reads
back.
-/

namespace Memberwise.Text.Numeral

/-- The value of one ASCII digit. -/
def digitValue (c : Char) : Nat :=
  c.toNat - '0'.toNat

/-- The value of a string of digits, most significant first. -/
def value (cs : List Char) : Nat :=
  cs.foldl (fun n c => 10 * n + digitValue c) 0

/-- The digits of a number, most significant first and without leading zeros. -/
def digits (n : Nat) : List Char :=
  Nat.toDigits 10 n

/-- Non-empty, and of ASCII digits only. -/
def isNumeral (s : String) : Bool :=
  !s.toList.isEmpty && s.toList.all Char.isDigit

/-- The number that a plain numeral names, if it is below the limit. -/
def read? (limit : Nat) (s : String) : Option Nat :=
  if isNumeral s && value s.toList < limit then some (value s.toList) else none

def write (n : Nat) : String :=
  String.ofList (digits n)

theorem value_nil : value [] = 0 := rfl

theorem value_append_singleton (cs : List Char) (c : Char) :
    value (cs ++ [c]) = 10 * value cs + digitValue c := by
  simp [value]

theorem digitValue_digitChar (n : Nat) (h : n < 10) : digitValue n.digitChar = n := by
  have all : ∀ m ∈ List.range 10, digitValue m.digitChar = m := by decide
  exact all n (List.mem_range.mpr h)

theorem value_digits (n : Nat) : value (digits n) = n := by
  induction n using Nat.strongRecOn with
  | ind n ih =>
    rw [digits, Nat.toDigits_eq_if (by decide)]
    split
    · rename_i h
      simp [value, digitValue_digitChar n h]
    · rename_i h
      rw [value_append_singleton, digitValue_digitChar _ (Nat.mod_lt n (by decide))]
      have := ih (n / 10) (by omega)
      rw [digits] at this
      omega

/-- An integer in at least `width` places, zeros standing between sign and digits. -/
def writePadded (width : Nat) (i : Int) : String :=
  let sign := if i < 0 then "-" else ""
  let body := digits i.natAbs
  sign ++ String.ofList (List.replicate (width - sign.length - body.length) '0' ++ body)

end Memberwise.Text.Numeral
