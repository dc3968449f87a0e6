import Mathlib.Algebra.Order.Ring.Nat
import Mathlib.Data.Nat.Log

/-!
# Whole numbers to 53 binary digits

A double has 53 binary digits, so whole numbers of more digits are rounded: to the nearest
number that has no others, and from halfway to the even one (`nearest`).  Numbers of up to 53
digits stay as they are, and a power of two may be taken out (`nearest_mul_two_pow`).
Rounding keeps the order, so it may make numbers equal and does not interchange them
(`nearest_mono`).  Integers are rounded alike on both sides of zero (`rounded`); those of 64
bits move by 512 at most.
-/

namespace Memberwise

/-- How often the power of two is in the number, to the nearest and from halfway to the even. -/
def roundedQuotient (n k : Nat) : Nat :=
  n / 2 ^ k +
    if 2 ^ k < 2 * (n % 2 ^ k) then 1
    else if 2 * (n % 2 ^ k) = 2 ^ k then n / 2 ^ k % 2
    else 0

/-- The number to 53 binary digits. -/
def nearest (n : Nat) : Nat :=
  roundedQuotient n (n.log2 - 52) * 2 ^ (n.log2 - 52)

variable {m n k : Nat}

/-! ### Quotients -/

theorem le_roundedQuotient : n / 2 ^ k ≤ roundedQuotient n k :=
  Nat.le_add_right _ _

theorem roundedQuotient_le : roundedQuotient n k ≤ n / 2 ^ k + 1 := by
  rw [roundedQuotient]
  split_ifs <;> omega

theorem roundedQuotient_zero_right : roundedQuotient n 0 = n := by
  simp [roundedQuotient, Nat.mod_one]

/-- Rounding is off by half of the power at most. -/
theorem two_mul_roundedQuotient_mul : 2 * (roundedQuotient n k * 2 ^ k) ≤ 2 * n + 2 ^ k ∧
    2 * n ≤ 2 * (roundedQuotient n k * 2 ^ k) + 2 ^ k := by
  have parts := Nat.div_add_mod n (2 ^ k)
  have rest := Nat.mod_lt n (Nat.two_pow_pos k)
  rw [Nat.mul_comm] at parts
  rw [roundedQuotient, Nat.add_mul]
  split_ifs
  · omega
  · rcases Nat.mod_two_eq_zero_or_one (n / 2 ^ k) with even | odd
    · rw [even]
      omega
    · rw [odd]
      omega
  · omega

theorem roundedQuotient_mono (le : m ≤ n) : roundedQuotient m k ≤ roundedQuotient n k := by
  have quotients : m / 2 ^ k ≤ n / 2 ^ k := Nat.div_le_div_right le
  rcases Nat.lt_or_eq_of_le quotients with less | same
  · exact le_trans roundedQuotient_le (le_trans less le_roundedQuotient)
  · have parts := Nat.div_add_mod m (2 ^ k)
    have parts' := Nat.div_add_mod n (2 ^ k)
    rw [same] at parts
    have rests : m % 2 ^ k ≤ n % 2 ^ k := by omega
    rw [roundedQuotient, roundedQuotient, same]
    split_ifs <;> omega

/-- Powers of two count alike in the number and in what it is divided by. -/
theorem roundedQuotient_mul_two_pow (j : Nat) :
    roundedQuotient (n * 2 ^ j) (k + j) = roundedQuotient n k := by
  have pos := Nat.two_pow_pos j
  have rest : 2 * (n * 2 ^ j % 2 ^ (k + j)) = 2 * (n % 2 ^ k) * 2 ^ j := by
    rw [Nat.pow_add, Nat.mul_mod_mul_right, Nat.mul_assoc]
  rw [roundedQuotient, roundedQuotient, rest, Nat.pow_add, Nat.mul_div_mul_right _ _ pos]
  simp only [Nat.mul_lt_mul_right pos, Nat.mul_left_inj pos.ne']

theorem roundedQuotient_mul_self (q k : Nat) : roundedQuotient (q * 2 ^ k) k = q := by
  have whole := roundedQuotient_mul_two_pow (n := q) (k := 0) k
  rwa [Nat.zero_add, roundedQuotient_zero_right] at whole

/-! ### Digits -/

theorem log2_mul_two_pow (pos : 0 < n) (j : Nat) : (n * 2 ^ j).log2 = n.log2 + j := by
  have some := Nat.two_pow_pos j
  rw [Nat.log2_eq_iff (Nat.mul_pos pos some).ne']
  constructor
  · rw [Nat.pow_add]
    exact Nat.mul_le_mul_right _ (Nat.log2_self_le pos.ne')
  · rw [Nat.add_right_comm, Nat.pow_add _ _ j]
    exact Nat.mul_lt_mul_of_pos_right Nat.lt_log2_self some

/-- A quotient of the first digits has 53 of them, -/
theorem two_pow_le_roundedQuotient (many : 52 ≤ n.log2) :
    2 ^ 52 ≤ roundedQuotient n (n.log2 - 52) := by
  have pos : n ≠ 0 := by
    rintro rfl
    exact absurd many (by decide)
  refine le_trans ((Nat.le_div_iff_mul_le (Nat.two_pow_pos _)).2 ?_) le_roundedQuotient
  rw [← Nat.pow_add, Nat.add_sub_cancel' many]
  exact Nat.log2_self_le pos

/-- or is the least of 54, where all digits are carried over. -/
theorem roundedQuotient_le_two_pow (n : Nat) : roundedQuotient n (n.log2 - 52) ≤ 2 ^ 53 := by
  have digits : n / 2 ^ (n.log2 - 52) < 2 ^ 53 := by
    rw [Nat.div_lt_iff_lt_mul (Nat.two_pow_pos _), ← Nat.pow_add]
    exact lt_of_lt_of_le Nat.lt_log2_self (Nat.pow_le_pow_right (by decide) (by omega))
  exact le_trans roundedQuotient_le digits

theorem nearest_of_lt (few : n < 2 ^ 53) : nearest n = n := by
  have digits : n.log2 - 52 = 0 := by
    rcases Nat.eq_zero_or_pos n with rfl | pos
    · rfl
    · have := (Nat.log2_lt pos.ne').2 few
      omega
  rw [nearest, digits, roundedQuotient_zero_right, Nat.pow_zero, Nat.mul_one]

theorem nearest_mul_two_pow (n j : Nat) : nearest (n * 2 ^ j) = nearest n * 2 ^ j := by
  rcases Nat.eq_zero_or_pos n with rfl | pos
  · rw [Nat.zero_mul, nearest_of_lt (by decide), Nat.zero_mul]
  rw [nearest, log2_mul_two_pow pos]
  rcases Nat.lt_or_ge n.log2 52 with few | many
  · -- All digits are kept, and the power that is divided by is one of those taken out.
    have short : n < 2 ^ 53 := lt_trans ((Nat.log2_lt pos.ne').1 few) (by decide)
    obtain ⟨i, powers⟩ := Nat.exists_eq_add_of_le (show n.log2 + j - 52 ≤ j by omega)
    have taken : n * 2 ^ j = n * 2 ^ i * 2 ^ (n.log2 + j - 52) := by
      rw [Nat.mul_assoc, ← Nat.pow_add, Nat.add_comm i, ← powers]
    rw [nearest_of_lt short]
    generalize n.log2 + j - 52 = k at taken
    rw [taken, roundedQuotient_mul_self]
  · have power : n.log2 + j - 52 = n.log2 - 52 + j := by omega
    rw [power, roundedQuotient_mul_two_pow, Nat.pow_add, ← Nat.mul_assoc, nearest]

theorem nearest_two_pow (j : Nat) : nearest (2 ^ j) = 2 ^ j := by
  have power := nearest_mul_two_pow 1 j
  rwa [nearest_of_lt (show 1 < 2 ^ 53 by decide), Nat.one_mul] at power

theorem nearest_mono_of_log2_eq (same : m.log2 = n.log2) (le : m ≤ n) :
    nearest m ≤ nearest n := by
  rw [nearest, nearest, same]
  exact Nat.mul_le_mul_right _ (roundedQuotient_mono le)

theorem nearest_le_two_pow (n : Nat) : nearest n ≤ 2 ^ (n.log2 + 1) := by
  rcases Nat.lt_or_ge n.log2 52 with few | many
  · have short : n < 2 ^ 53 :=
      lt_of_lt_of_le Nat.lt_log2_self (Nat.pow_le_pow_right (by decide) (by omega))
    rw [nearest_of_lt short]
    exact Nat.lt_log2_self.le
  · have power : n.log2 + 1 = 53 + (n.log2 - 52) := by omega
    rw [nearest, power, Nat.pow_add]
    exact Nat.mul_le_mul_right _ (roundedQuotient_le_two_pow n)

/-- Rounding keeps the order. -/
theorem nearest_mono (le : m ≤ n) : nearest m ≤ nearest n := by
  rcases Nat.eq_zero_or_pos m with rfl | pos
  · rw [nearest_of_lt (by decide)]
    exact Nat.zero_le _
  have pos' : n ≠ 0 := (lt_of_lt_of_le pos le).ne'
  have digits : m.log2 ≤ n.log2 := (Nat.le_log2 pos').2 (le_trans (Nat.log2_self_le pos.ne') le)
  rcases Nat.lt_or_eq_of_le digits with fewer | same
  · -- Between the two there is a power of two, which is not rounded.
    calc nearest m ≤ 2 ^ (m.log2 + 1) := nearest_le_two_pow m
      _ ≤ 2 ^ n.log2 := Nat.pow_le_pow_right (by decide) fewer
      _ = nearest (2 ^ n.log2) := (nearest_two_pow _).symm
      _ ≤ nearest n := nearest_mono_of_log2_eq Nat.log2_two_pow (Nat.log2_self_le pos')
  · exact nearest_mono_of_log2_eq same le

theorem nearest_pos (pos : 0 < n) : 0 < nearest n := by
  have least := nearest_mono (Nat.succ_le_of_lt pos)
  rwa [nearest_of_lt (show 1 < 2 ^ 53 by decide)] at least

/-! ### Integers -/

/-- Rounded to 53 binary digits, whatever the sign. -/
def rounded (i : Int) : Int := i.sign * nearest i.natAbs

variable {i j : Int}

theorem rounded_natCast (n : Nat) : rounded n = nearest n := by
  cases n with
  | zero => rfl
  | succ n => exact Int.one_mul _

theorem rounded_neg (i : Int) : rounded (-i) = -rounded i := by
  rw [rounded, Int.sign_neg, Int.natAbs_neg, Int.neg_mul, rounded]

theorem natAbs_rounded (i : Int) : (rounded i).natAbs = nearest i.natAbs := by
  obtain ⟨n, rfl | rfl⟩ := Int.eq_nat_or_neg i
  · rw [rounded_natCast, Int.natAbs_natCast, Int.natAbs_natCast]
  · rw [rounded_neg, rounded_natCast, Int.natAbs_neg, Int.natAbs_neg, Int.natAbs_natCast,
      Int.natAbs_natCast]

theorem rounded_eq_zero_iff : rounded i = 0 ↔ i = 0 := by
  constructor
  · intro zero
    by_contra some
    have pos := nearest_pos (Int.natAbs_pos.2 some)
    rw [← natAbs_rounded, zero] at pos
    exact Nat.lt_irrefl 0 pos
  · rintro rfl
    rfl

/-- Integers of up to 53 digits are kept, and so is the next power of two. -/
theorem rounded_of_natAbs_le (few : i.natAbs ≤ 2 ^ 53) : rounded i = i := by
  have kept : nearest i.natAbs = i.natAbs := by
    rcases Nat.lt_or_eq_of_le few with less | same
    · exact nearest_of_lt less
    · rw [same, nearest_two_pow]
  rw [rounded, kept, Int.sign_mul_natAbs]

theorem rounded_mono (le : i ≤ j) : rounded i ≤ rounded j := by
  obtain ⟨m, rfl | rfl⟩ := Int.eq_nat_or_neg i
  · obtain ⟨n, rfl⟩ := Int.eq_ofNat_of_zero_le (le_trans (Int.natCast_nonneg m) le)
    rw [rounded_natCast, rounded_natCast]
    exact Int.ofNat_le.2 (nearest_mono (Int.ofNat_le.1 le))
  · rw [rounded_neg, rounded_natCast]
    obtain ⟨n, rfl | rfl⟩ := Int.eq_nat_or_neg j
    · rw [rounded_natCast]
      omega
    · rw [rounded_neg, rounded_natCast]
      exact Int.neg_le_neg (Int.ofNat_le.2 (nearest_mono (by omega)))

/-- Integers that are not made equal keep their order. -/
theorem rounded_lt_iff (apart : rounded i ≠ rounded j) : rounded i < rounded j ↔ i < j :=
  ⟨fun less => lt_of_not_ge fun le => not_le_of_gt less (rounded_mono le),
    fun less => lt_of_le_of_ne (rounded_mono less.le) apart⟩

/-- An integer of 64 bits is rounded by 512 at most. -/
theorem natAbs_sub_rounded_le (bounded : i.natAbs ≤ 2 ^ 63) : (i - rounded i).natAbs ≤ 512 := by
  have whole : ∀ n : Nat, n ≤ 2 ^ 63 → n ≤ nearest n + 512 ∧ nearest n ≤ n + 512 := by
    intro n bounded
    rcases Nat.lt_or_eq_of_le bounded with less | rfl
    · have digits : n.log2 - 52 ≤ 10 := by
        rcases Nat.eq_zero_or_pos n with rfl | pos
        · decide
        · have := (Nat.log2_lt pos.ne').2 less
          omega
      have power : 2 ^ (n.log2 - 52) ≤ 2 ^ 10 := Nat.pow_le_pow_right (by decide) digits
      obtain ⟨high, low⟩ := two_mul_roundedQuotient_mul (n := n) (k := n.log2 - 52)
      rw [← nearest] at high low
      omega
    · rw [nearest_two_pow]
      omega
  obtain ⟨n, rfl | rfl⟩ := Int.eq_nat_or_neg i
  · rw [Int.natAbs_natCast] at bounded
    rw [rounded_natCast]
    have := whole n bounded
    omega
  · rw [Int.natAbs_neg, Int.natAbs_natCast] at bounded
    rw [rounded_neg, rounded_natCast]
    have := whole n bounded
    omega

end Memberwise
