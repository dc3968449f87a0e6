import Mathlib
import Memberwise.Proofs.Rounding
import Memberwise.Value

/-!
# Doubles in units

All finite doubles are multiples of the least one above zero, which is the unit here.
`Stands a u` says that a double is so many units; it has 53 digits, unless its exponent is the
least, and then is determined by them.  Doubles compare like their units
(`Stands.compare_eq`), are the same after they are packed in 64 bits (`Stands.unpack_pack`),
and their differences are the differences of units, rounded (`Stands.sub`).

Numbers come to be doubles in one place, where so many bits are shifted out that 53 remain;
that is the rounding of whole numbers (`roundWithAccuracy_eq`).  So an integer of 64 bits
stands for itself, rounded (`stands_float_ofInt`).
-/

namespace Memberwise

open Float.Model (UnpackedFloat Format totalExponent)
open Float.Model.UnpackedFloat (Sign ExtendedMantissa packComponents)

/-! ### Rounding by bits -/

/-- What is left of a number that is shifted to the right: the last bit that has gone, and
whether there was one before. -/
theorem shiftRight_succ (n k : Nat) : (⟨n, false, false⟩ : ExtendedMantissa) >>> (k + 1) =
    ⟨n / 2 ^ (k + 1), n / 2 ^ k % 2 != 0, n % 2 ^ k != 0⟩ := by
  induction k with
  | zero =>
      show ExtendedMantissa.shiftRightOne _ = _
      simp [ExtendedMantissa.shiftRightOne, Nat.repeat, Nat.mod_one]
  | succ k ih =>
      show ((⟨n, false, false⟩ : ExtendedMantissa) >>> (k + 1)).shiftRightOne = _
      rw [ih, ExtendedMantissa.shiftRightOne, Nat.div_div_eq_div_mul, ← Nat.pow_succ]
      have rest : n % 2 ^ (k + 1) = n % 2 ^ k + 2 ^ k * (n / 2 ^ k % 2) := by
        rw [Nat.pow_succ, Nat.mod_mul]
      have some := Nat.two_pow_pos k
      have sticky : (n / 2 ^ k % 2 != 0 || n % 2 ^ k != 0) = (n % 2 ^ (k + 1) != 0) := by
        rw [rest]
        rcases Nat.mod_two_eq_zero_or_one (n / 2 ^ k) with even | odd
        · simp [even]
        · simp [odd]
      rw [sticky]

theorem roundedMantissa_eq (q : Nat) (r s : Bool) :
    (⟨q, r, s⟩ : ExtendedMantissa).roundedMantissa =
      q + if r then if s then 1 else q % 2 else 0 := by
  cases r <;> cases s <;> rfl

theorem roundedMantissa_shiftRight (n k : Nat) :
    ((⟨n, false, false⟩ : ExtendedMantissa) >>> k).roundedMantissa = roundedQuotient n k := by
  cases k with
  | zero =>
      rw [roundedQuotient_zero_right]
      rfl
  | succ k =>
      have rest : n % 2 ^ (k + 1) = n % 2 ^ k + 2 ^ k * (n / 2 ^ k % 2) := by
        rw [Nat.pow_succ, Nat.mod_mul]
      have small := Nat.mod_lt n (Nat.two_pow_pos k)
      rw [shiftRight_succ, roundedMantissa_eq, roundedQuotient, rest, Nat.pow_succ]
      rcases Nat.mod_two_eq_zero_or_one (n / 2 ^ k) with even | odd
      · have below : 2 * (n % 2 ^ k + 2 ^ k * 0) < 2 ^ k * 2 := by omega
        rw [even, if_neg (by decide), if_neg (Nat.lt_asymm below), if_neg below.ne]
      · have half : 2 * (n % 2 ^ k + 2 ^ k * 1) = 2 ^ k * 2 + 2 * (n % 2 ^ k) := by omega
        rw [odd, if_pos (by decide), half]
        rcases Nat.eq_zero_or_pos (n % 2 ^ k) with none | some
        · simp [none]
        · rw [if_pos (bne_iff_ne.2 some.ne'), if_pos (by omega)]

/-! ### Rounding -/

/-- A number of units, which are the least doubles above zero, to 53 binary digits. -/
def ofUnits (s : Sign) (n : Nat) : UnpackedFloat :=
  let k := n.log2 - 52
  let r := roundedQuotient n k
  if h : r = 0 then .zero s
  else if r < 2 ^ 53 then .finite s r (k - 1074) (Nat.pos_of_ne_zero h)
  else .finite s (2 ^ 52) ((k + 1 : Nat) - 1074) (by decide)

theorem targetExponent_eq (m j : Nat) :
    Format.binary64.targetExponent (totalExponent m (j - 1074)) =
      (m.log2 + j - 52 : Nat) - 1074 := by
  show max ((m.log2 : Int) + 1 + (j - 1074) - 53) (-1074) = _
  omega

theorem shiftToTargetExponent_eq (m j : Nat) :
    UnpackedFloat.shiftToTargetExponent Format.binary64 m (j - 1074) .exact =
      ((⟨m, false, false⟩ : ExtendedMantissa) >>> (m.log2 + j - 52 - j),
        ((j + (m.log2 + j - 52 - j) : Nat) : Int) - 1074) := by
  rw [UnpackedFloat.shiftToTargetExponent, targetExponent_eq, UnpackedFloat.shiftToExponent]
  have shift : (((m.log2 + j - 52 : Nat) : Int) - 1074 - (j - 1074)).toNat =
      m.log2 + j - 52 - j := by omega
  rw [shift]
  refine Prod.ext rfl ?_
  show (j : Int) - 1074 + (m.log2 + j - 52 - j : Nat) = _
  omega

/-- Only the digits count, if none of them is missing, and not the power of two that is
taken out. -/
theorem roundWithAccuracy_eq (s : Sign) {m j : Nat} (pos : 0 < m) (short : j ≤ m.log2 + j - 52) :
    UnpackedFloat.roundWithAccuracy Format.binary64 s m (j - 1074) .exact =
      ofUnits s (m * 2 ^ j) := by
  have digits := log2_mul_two_pow pos j
  have first : UnpackedFloat.shiftToTargetExponent Format.binary64 m (j - 1074) .exact =
      ((⟨m, false, false⟩ : ExtendedMantissa) >>> (m.log2 + j - 52 - j),
        (((m * 2 ^ j).log2 - 52 : Nat) : Int) - 1074) := by
    rw [shiftToTargetExponent_eq, Nat.add_sub_cancel' short, digits]
  have quotient : roundedQuotient m (m.log2 + j - 52 - j) =
      roundedQuotient (m * 2 ^ j) ((m * 2 ^ j).log2 - 52) := by
    rw [digits, ← roundedQuotient_mul_two_pow j, Nat.sub_add_cancel short]
  have most := roundedQuotient_le_two_pow (m * 2 ^ j)
  rw [UnpackedFloat.roundWithAccuracy, first, ofUnits]
  dsimp only
  rw [roundedMantissa_shiftRight, quotient]
  generalize roundedQuotient (m * 2 ^ j) ((m * 2 ^ j).log2 - 52) = r at most
  generalize (m * 2 ^ j).log2 - 52 = k
  -- There is nothing to shift for a second time, unless all digits were carried over.
  rcases Nat.lt_or_eq_of_le most with less | rfl
  · have still : r.log2 + k - 52 - k = 0 := by
      rcases Nat.eq_zero_or_pos r with rfl | some
      · simp
      · have := (Nat.log2_lt some.ne').2 less
        omega
    rw [shiftToTargetExponent_eq, still]
    by_cases zero : r = 0
    · subst zero
      rfl
    · rw [dif_neg zero, if_pos less]
      exact dif_neg zero
  · have carried : (2 ^ 53).log2 + k - 52 - k = 1 := by
      rw [Nat.log2_two_pow]
      omega
    rw [shiftToTargetExponent_eq, carried]
    rfl

theorem decreaseExponent_eq (m j i : Nat) :
    UnpackedFloat.decreaseExponent m (j - 1074) (i - 1074) =
      (m * 2 ^ (j - i), ((j - (j - i) : Nat) : Int) - 1074) := by
  have shift : ((j : Int) - 1074 - (i - 1074)).toNat = j - i := by omega
  rw [UnpackedFloat.decreaseExponent, shift, Nat.shiftLeft_eq]
  refine Prod.ext rfl ?_
  show (j : Int) - 1074 - (j - i : Nat) = _
  omega

theorem round_eq (s : Sign) {m : Nat} (j : Nat) (pos : 0 < m) :
    UnpackedFloat.round Format.binary64 s m (j - 1074) = ofUnits s (m * 2 ^ j) := by
  have digits := log2_mul_two_pow pos (j - (m.log2 + j - 52))
  rw [UnpackedFloat.round, targetExponent_eq, decreaseExponent_eq]
  dsimp only
  rw [roundWithAccuracy_eq s (Nat.mul_pos pos (Nat.two_pow_pos _)) (by omega), Nat.mul_assoc,
    ← Nat.pow_add, Nat.add_sub_cancel' (Nat.sub_le _ _)]

/-! ### Packing -/

theorem unpack_packComponents_normal (s : Sign) {m i : Nat} (least : 2 ^ 52 ≤ m)
    (most : m < 2 ^ 53) (some : 0 < i) (bounded : i < 2047) (pos : 0 < m) :
    UnpackedFloat.unpack Format.binary64
        (packComponents Format.binary64 s (.ofNat 11 i) (.ofNat 52 m)) =
      .finite s m (i - 1075) pos := by
  have exponent : (BitVec.ofNat 11 i).toNat = i := by
    rw [BitVec.toNat_ofNat, Nat.mod_eq_of_lt (by omega)]
  have notAll : BitVec.ofNat 11 i ≠ -1#11 := by
    intro all
    have number := congrArg BitVec.toNat all
    rw [exponent] at number
    exact absurd number (show i ≠ 2047 by omega)
  have notZero : BitVec.ofNat 11 i ≠ 0#11 := by
    intro zero
    have number := congrArg BitVec.toNat zero
    rw [exponent] at number
    exact absurd number some.ne'
  have digits : (1#1 ++ BitVec.ofNat 52 m).toNat = m := by
    rw [BitVec.toNat_append, ← Nat.shiftLeft_add_eq_or_of_lt (BitVec.isLt _), BitVec.toNat_ofNat,
      Nat.shiftLeft_eq]
    show 1 * 2 ^ 52 + m % 2 ^ 52 = m
    omega
  simp only [UnpackedFloat.unpack, UnpackedFloat.unpackMantissa_packComponents,
    UnpackedFloat.unpackExponent_packComponents, UnpackedFloat.unpackSign_packComponents,
    Sign.ofBitVec_toBitVec, notAll, notZero, if_false, exponent, digits]
  rfl

theorem unpack_packComponents_subnormal (s : Sign) {m : Nat} (pos : 0 < m) (most : m < 2 ^ 52) :
    UnpackedFloat.unpack Format.binary64 (packComponents Format.binary64 s 0#11 (.ofNat 52 m)) =
      .finite s m (-1074) pos := by
  have digits : (BitVec.ofNat 52 m).toNat = m := by
    rw [BitVec.toNat_ofNat, Nat.mod_eq_of_lt most]
  have some : BitVec.ofNat 52 m ≠ 0#52 := by
    intro zero
    have number := congrArg BitVec.toNat zero
    rw [digits] at number
    exact absurd number pos.ne'
  have notAll : 0#11 ≠ -1#11 := by decide
  simp only [UnpackedFloat.unpack, UnpackedFloat.unpackMantissa_packComponents,
    UnpackedFloat.unpackExponent_packComponents, UnpackedFloat.unpackSign_packComponents,
    Sign.ofBitVec_toBitVec, notAll, some, if_false, if_true, dif_neg, not_false_eq_true, digits]
  rfl

/-! ### Doubles in units -/

/-- Finite doubles, and how many units they are.  There are 53 digits unless the exponent is
the least. -/
inductive Stands : UnpackedFloat → Int → Prop
  | zero (s : Sign) : Stands (.zero s) 0
  | finite (s : Sign) {m j : Nat} (pos : 0 < m) (most : m < 2 ^ 53) (full : j = 0 ∨ 2 ^ 52 ≤ m)
    (bounded : j ≤ 2045) : Stands (.finite s m (j - 1074) pos) (s.apply (m * 2 ^ j : Nat))

theorem apply_zero (s : Sign) : s.apply 0 = 0 := by
  cases s <;> rfl

theorem stands_ofUnits (s : Sign) {n : Nat} (bounded : n ≤ 2 ^ 2000) :
    Stands (ofUnits s n) (s.apply (nearest n)) := by
  have exponent : n.log2 - 52 ≤ 2000 := by
    rcases Nat.eq_zero_or_pos n with rfl | pos
    · decide
    · have := (Nat.pow_le_pow_iff_right (a := 2) (by decide)).1
        (le_trans (Nat.log2_self_le pos.ne') bounded)
      omega
  have full : n.log2 - 52 = 0 ∨ 2 ^ 52 ≤ roundedQuotient n (n.log2 - 52) := by
    rcases Nat.lt_or_ge n.log2 52 with few | many
    · exact Or.inl (by omega)
    · exact Or.inr (two_pow_le_roundedQuotient many)
  have most := roundedQuotient_le_two_pow n
  rw [ofUnits, nearest]
  generalize roundedQuotient n (n.log2 - 52) = r at most full
  generalize n.log2 - 52 = k at exponent full
  by_cases zero : r = 0
  · rw [dif_pos zero, zero, Nat.zero_mul]
    exact apply_zero s ▸ .zero s
  rw [dif_neg zero]
  rcases Nat.lt_or_eq_of_le most with less | rfl
  · rw [if_pos less]
    exact .finite s _ less full (by omega)
  · have carried : 2 ^ 53 * 2 ^ k = 2 ^ 52 * 2 ^ (k + 1) := by
      rw [Nat.pow_succ 2 k]
      omega
    rw [if_neg (Nat.lt_irrefl _), carried]
    exact .finite s _ (by decide) (Or.inr (Nat.le_refl _)) (by omega)

/-- Of two numbers of 53 digits the one with the greater exponent is greater. -/
theorem compare_digits {m j m' j' : Nat} (most : m < 2 ^ 53) (most' : m' < 2 ^ 53)
    (full : j = 0 ∨ 2 ^ 52 ≤ m) (full' : j' = 0 ∨ 2 ^ 52 ≤ m') :
    (compare j j').then (compare m m') = compare (m * 2 ^ j) (m' * 2 ^ j') := by
  have exceeds : ∀ {m j m' j' : Nat}, m < 2 ^ 53 → (j' = 0 ∨ 2 ^ 52 ≤ m') → j < j' →
      m * 2 ^ j < m' * 2 ^ j' := by
    intro m j m' j' most full less
    have full : 2 ^ 52 ≤ m' := full.resolve_left (by omega)
    calc m * 2 ^ j < 2 ^ 53 * 2 ^ j := Nat.mul_lt_mul_of_pos_right most (Nat.two_pow_pos j)
      _ = 2 ^ 52 * 2 ^ (j + 1) := by rw [Nat.pow_succ 2 j]; omega
      _ ≤ m' * 2 ^ j' := Nat.mul_le_mul full (Nat.pow_le_pow_right (by decide) less)
  rcases lt_trichotomy j j' with less | rfl | greater
  · rw [compare_lt_iff_lt.2 less, compare_lt_iff_lt.2 (exceeds most full' less)]
    rfl
  · rw [compare_eq_iff_eq.2 rfl, Ordering.then]
    rcases lt_trichotomy m m' with less | rfl | greater
    · rw [compare_lt_iff_lt.2 less,
        compare_lt_iff_lt.2 (Nat.mul_lt_mul_of_pos_right less (Nat.two_pow_pos j))]
    · rw [compare_eq_iff_eq.2 rfl, compare_eq_iff_eq.2 rfl]
    · rw [compare_gt_iff_gt.2 greater,
        compare_gt_iff_gt.2 (Nat.mul_lt_mul_of_pos_right greater (Nat.two_pow_pos j))]
  · rw [compare_gt_iff_gt.2 greater, compare_gt_iff_gt.2 (exceeds most' full greater)]
    rfl

theorem compare_of_increasing {f : Nat → Int} (increasing : ∀ i j, i < j → f i < f j) (m n : Nat) :
    compare (f m) (f n) = compare m n := by
  rcases lt_trichotomy m n with less | rfl | greater
  · rw [compare_lt_iff_lt.2 less, compare_lt_iff_lt.2 (increasing m n less)]
  · rw [compare_eq_iff_eq.2 rfl, compare_eq_iff_eq.2 rfl]
  · rw [compare_gt_iff_gt.2 greater, compare_gt_iff_gt.2 (increasing n m greater)]

theorem compare_neg_neg (u v : Int) : compare (-u) (-v) = (compare u v).swap := by
  have anti : StrictAnti fun u : Int => -u := fun _ _ => neg_lt_neg
  rw [← cmp_eq_compare, ← cmp_eq_compare, cmp_swap]
  exact anti.cmp_map_eq u v

theorem negative_apply_lt {n : Nat} (pos : 0 < n) : Sign.negative.apply n < 0 := by
  show -(n : Int) < 0
  omega

theorem lt_positive_apply {n : Nat} (pos : 0 < n) : 0 < Sign.positive.apply n := by
  show 0 < (n : Int)
  omega

namespace Stands

variable {a b : UnpackedFloat} {u v : Int}

/-- Comparison is by units. -/
theorem compare_eq (stands : Stands a u) (stands' : Stands b v) :
    a.compare b = some (compare u v) := by
  cases stands with
  | zero s =>
      cases stands' with
      | zero s' => rfl
      | @finite s' m j pos most full bounded =>
          have some := Nat.mul_pos pos (Nat.two_pow_pos j)
          cases s' with
          | negative => rw [compare_gt_iff_gt.2 (negative_apply_lt some)]; rfl
          | positive => rw [compare_lt_iff_lt.2 (lt_positive_apply some)]; rfl
  | @finite s m j pos most full bounded =>
      have some := Nat.mul_pos pos (Nat.two_pow_pos j)
      cases stands' with
      | zero s' =>
          cases s with
          | negative => rw [compare_lt_iff_lt.2 (negative_apply_lt some)]; rfl
          | positive => rw [compare_gt_iff_gt.2 (lt_positive_apply some)]; rfl
      | @finite s' m' j' pos' most' full' bounded' =>
          have some' := Nat.mul_pos pos' (Nat.two_pow_pos j')
          have digits : (compare ((j : Int) - 1074) (j' - 1074)).then (compare m m') =
              compare ((m * 2 ^ j : Nat) : Int) (m' * 2 ^ j' : Nat) := by
            have shifted : ∀ i i' : Nat, i < i' → (i : Int) - 1074 < (i' : Int) - 1074 := by
              intro i i' less
              omega
            have embedded : ∀ i i' : Nat, i < i' → (i : Int) < i' := by
              intro i i' less
              omega
            rw [compare_of_increasing shifted, compare_of_increasing embedded,
              compare_digits most most' full full']
          cases s with
          | negative =>
              cases s' with
              | negative =>
                  show Option.some (Ordering.swap _) = _
                  rw [digits, Sign.apply, Sign.apply, compare_neg_neg]
              | positive =>
                  rw [compare_lt_iff_lt.2
                    ((negative_apply_lt some).trans (lt_positive_apply some'))]
                  rfl
          | positive =>
              cases s' with
              | negative =>
                  rw [compare_gt_iff_gt.2
                    ((negative_apply_lt some').trans (lt_positive_apply some))]
                  rfl
              | positive => exact congrArg Option.some digits

/-- A finite double is kept as it is. -/
theorem unpack_pack (stands : Stands a u) :
    UnpackedFloat.unpack Format.binary64 (UnpackedFloat.pack Format.binary64 a) = a := by
  cases stands with
  | zero s => exact UnpackedFloat.unpack_packedZero
  | @finite s m j pos most full bounded =>
      have biased : ((j : Int) - 1074 + 1023 + 52).toNat = j + 1 := by omega
      have packed : UnpackedFloat.pack Format.binary64 (.finite s m (j - 1074) pos) =
          if 2 ^ 11 ≤ j + 1 + 1 then UnpackedFloat.packedInfinity Format.binary64 s
          else if m.log2 + 1 = 53 then
            packComponents Format.binary64 s (.ofNat 11 (j + 1)) (.ofNat 52 m)
          else packComponents Format.binary64 s 0#11 (.ofNat 52 m) := by
        rw [← biased]
        rfl
      rw [packed, if_neg (by omega)]
      rcases Nat.lt_or_ge m (2 ^ 52) with few | many
      · cases full.resolve_right (Nat.not_le.2 few)
        have digits := (Nat.log2_lt pos.ne').2 few
        rw [if_neg (by omega), unpack_packComponents_subnormal s pos few]
        rfl
      · have digits : m.log2 = 52 := (Nat.log2_eq_iff pos.ne').2 ⟨many, most⟩
        rw [if_pos (by omega), unpack_packComponents_normal s many most (by omega) (by omega) pos]
        refine congrArg (fun e => UnpackedFloat.finite s m e pos) ?_
        omega

end Stands

theorem rounded_apply (s : Sign) (n : Nat) : rounded (s.apply n) = s.apply (nearest n) := by
  cases s with
  | negative =>
      show rounded (-n) = -nearest n
      rw [rounded_neg, rounded_natCast]
  | positive => exact rounded_natCast n

theorem natAbs_apply (s : Sign) (n : Nat) : (s.apply n).natAbs = n := by
  cases s with
  | negative => exact (Int.natAbs_neg _).trans (Int.natAbs_natCast _)
  | positive => exact Int.natAbs_natCast _

theorem apply_mul (s : Sign) (n c : Nat) : s.apply (n * c : Nat) = s.apply n * c := by
  cases s with
  | negative =>
      show -((n * c : Nat) : Int) = -n * c
      rw [Int.natCast_mul, Int.neg_mul]
  | positive => exact Int.natCast_mul n c

namespace Stands

variable {a b : UnpackedFloat} {u v : Int}

theorem neg (stands : Stands a u) : Stands a.neg (-u) := by
  cases stands with
  | zero s => exact .zero _
  | @finite s m j pos most full bounded =>
      cases s with
      | negative =>
          have back := Stands.finite .positive pos most full bounded
          rwa [Sign.apply, ← Int.neg_neg ((m * 2 ^ j : Nat) : Int)] at back
      | positive => exact .finite .negative pos most full bounded

theorem abs (stands : Stands a u) : Stands a.abs u.natAbs := by
  cases stands with
  | zero s => exact .zero _
  | @finite s m j pos most full bounded =>
      rw [natAbs_apply]
      exact .finite .positive pos most full bounded

/-- A double is rounded already. -/
theorem rounded_eq (stands : Stands a u) : rounded u = u := by
  cases stands with
  | zero s => rfl
  | @finite s m j pos most full bounded =>
      rw [rounded_apply, nearest_mul_two_pow, nearest_of_lt most]

theorem normalize (i : Int) (j : Nat) (bounded : i.natAbs * 2 ^ j ≤ 2 ^ 2000) :
    Stands (UnpackedFloat.normalize Format.binary64 i (j - 1074) .positive)
      (rounded (i * (2 ^ j : Nat))) := by
  have signed : ∀ s {n : Nat}, 0 < n → n * 2 ^ j ≤ 2 ^ 2000 →
      Stands (UnpackedFloat.round Format.binary64 s n (j - 1074))
        (rounded (s.apply n * (2 ^ j : Nat))) := by
    intro s n pos bounded
    rw [round_eq s j pos, ← apply_mul, rounded_apply]
    exact stands_ofUnits s bounded
  rcases lt_trichotomy i 0 with less | rfl | greater
  · obtain ⟨n, rfl⟩ := Int.exists_eq_neg_ofNat less.le
    rw [UnpackedFloat.normalize, compare_lt_iff_lt.2 less, Int.neg_neg, Int.toNat_natCast]
    rw [Int.natAbs_neg, Int.natAbs_natCast] at bounded
    exact signed .negative (by omega) bounded
  · rw [Int.zero_mul]
    exact .zero _
  · obtain ⟨n, rfl⟩ := Int.eq_ofNat_of_zero_le greater.le
    rw [UnpackedFloat.normalize, compare_gt_iff_gt.2 greater, Int.toNat_natCast]
    rw [Int.natAbs_natCast] at bounded
    exact signed .positive (by omega) bounded

/-- Numbers are subtracted with the lesser of their exponents. -/
theorem sub_finite_eq (s s' : Sign) {m m' i j j' : Nat} (pos : 0 < m) (pos' : 0 < m')
    (least : i = min j j') :
    UnpackedFloat.sub Format.binary64 (.finite s m (j - 1074) pos)
        (.finite s' m' (j' - 1074) pos') =
      UnpackedFloat.normalize Format.binary64
        (s.apply (m * 2 ^ (j - i) : Nat) - s'.apply (m' * 2 ^ (j' - i) : Nat)) (i - 1074)
        .positive := by
  have exponent : min ((j : Int) - 1074) (j' - 1074) = i - 1074 := by omega
  rw [UnpackedFloat.sub, exponent, decreaseExponent_eq, decreaseExponent_eq]

/-- Differences are rounded. -/
theorem sub (stands : Stands a u) (stands' : Stands b v) (limited : (u - v).natAbs ≤ 2 ^ 2000) :
    Stands (UnpackedFloat.sub Format.binary64 a b) (rounded (u - v)) := by
  cases stands with
  | zero s =>
      cases stands' with
      | zero s' => cases s <;> cases s' <;> exact .zero _
      | @finite s' m j pos most full bounded =>
          have negated := (Stands.finite s' pos most full bounded).neg
          rw [Int.zero_sub, negated.rounded_eq]
          exact negated
  | @finite s m j pos most full bounded =>
      cases stands' with
      | zero s' =>
          have kept := Stands.finite s pos most full bounded
          rw [Int.sub_zero, kept.rounded_eq]
          exact kept
      | @finite s' m' j' pos' most' full' bounded' =>
          obtain ⟨i, least⟩ : ∃ i, i = min j j' := ⟨_, rfl⟩
          have left : i ≤ j := by omega
          have right : i ≤ j' := by omega
          have scaled : s.apply (m * 2 ^ j : Nat) - s'.apply (m' * 2 ^ j' : Nat) =
              (s.apply (m * 2 ^ (j - i) : Nat) - s'.apply (m' * 2 ^ (j' - i) : Nat)) *
                (2 ^ i : Nat) := by
            rw [Int.sub_mul, ← apply_mul, ← apply_mul, Nat.mul_assoc, Nat.mul_assoc, ← Nat.pow_add,
              ← Nat.pow_add, Nat.sub_add_cancel left, Nat.sub_add_cancel right]
          rw [scaled, Int.natAbs_mul, Int.natAbs_natCast] at limited
          rw [sub_finite_eq s s' pos pos' least, scaled]
          exact normalize _ i limited

/-! Doubles as they are packed. -/

variable {x y : Float}

theorem pack (stands : Stands a u) : Stands (Float.Model.pack a).unpack u := by
  show Stands (UnpackedFloat.unpack _ (UnpackedFloat.pack _ a)) u
  rwa [stands.unpack_pack]

theorem lt_iff (stands : Stands x.toModel.unpack u) (stands' : Stands y.toModel.unpack v) :
    x < y ↔ u < v := by
  show decide ((x.toModel.unpack.compare y.toModel.unpack == some .lt) = true) = true ↔ _
  rw [decide_eq_true_eq, stands.compare_eq stands', beq_iff_eq, Option.some_inj,
    compare_lt_iff_lt]

theorem le_iff (stands : Stands x.toModel.unpack u) (stands' : Stands y.toModel.unpack v) :
    x ≤ y ↔ u ≤ v := by
  show decide ((x.toModel.unpack.compare y.toModel.unpack).any (·.isLE) = true) = true ↔ _
  rw [decide_eq_true_eq, stands.compare_eq stands', Option.any_some, Int.isLE_compare]

theorem float_neg (stands : Stands x.toModel.unpack u) : Stands x.neg.toModel.unpack (-u) :=
  stands.neg.pack

theorem float_abs (stands : Stands x.toModel.unpack u) : Stands x.abs.toModel.unpack u.natAbs :=
  stands.abs.pack

theorem float_sub (stands : Stands x.toModel.unpack u) (stands' : Stands y.toModel.unpack v)
    (limited : (u - v).natAbs ≤ 2 ^ 2000) : Stands (x - y).toModel.unpack (rounded (u - v)) :=
  (stands.sub stands' limited).pack

end Stands

/-! ### Integers as doubles -/

/-- One as a double, with all of its digits. -/
def one : UnpackedFloat :=
  .finite .positive (2 ^ 52) (-52) (by decide)

/-- Doubles are not rounded again when they are multiplied by one. -/
theorem Stands.mul_one {a : UnpackedFloat} {u : Int} (stands : Stands a u)
    (whole : 2 ^ 105 ∣ u.natAbs) (limited : u.natAbs ≤ 2 ^ 2000) :
    Stands (UnpackedFloat.mul Format.binary64 a one) u := by
  cases stands with
  | zero s => exact .zero _
  | @finite s m j pos most full bounded =>
      rw [natAbs_apply] at whole limited
      have distance : 52 ≤ j := by
        by_contra near
        have small : m * 2 ^ j < 2 ^ 105 := by
          calc m * 2 ^ j < 2 ^ 53 * 2 ^ j := Nat.mul_lt_mul_of_pos_right most (Nat.two_pow_pos j)
            _ ≤ 2 ^ 53 * 2 ^ 52 :=
              Nat.mul_le_mul_left _ (Nat.pow_le_pow_right (by decide) (by omega))
        exact absurd (Nat.le_of_dvd (Nat.mul_pos pos (Nat.two_pow_pos j)) whole)
          (Nat.not_le.2 small)
      have exponent : (j : Int) - 1074 + -52 = (j - 52 : Nat) - 1074 := by omega
      have sign : s * .positive = s := by
        cases s <;> rfl
      have digits : m * 2 ^ 52 * 2 ^ (j - 52) = m * 2 ^ j := by
        rw [Nat.mul_assoc, ← Nat.pow_add, Nat.add_sub_cancel' distance]
      have short : j - 52 ≤ (m * 2 ^ 52).log2 + (j - 52) - 52 := by
        rw [log2_mul_two_pow pos]
        omega
      have rounds := stands_ofUnits s limited
      rw [nearest_mul_two_pow, nearest_of_lt most] at rounds
      rw [one, UnpackedFloat.mul, exponent, sign,
        roundWithAccuracy_eq s (Nat.mul_pos pos (by decide)) short, digits]
      exact rounds

/-- One is so many units. -/
def units : Nat := 2 ^ 1074

/-- The exponent is given by name, for the power itself is not to be computed. -/
theorem exists_units_eq : ∃ k : Nat, k = 1074 ∧ units = 2 ^ k :=
  ⟨_, rfl, rfl⟩

theorem units_pos : 0 < units := by
  obtain ⟨k, -, power⟩ := exists_units_eq
  rw [power]
  exact Nat.two_pow_pos k

theorem nearest_mul_units (n : Nat) : nearest (n * units) = nearest n * units := by
  obtain ⟨k, -, power⟩ := exists_units_eq
  rw [power, nearest_mul_two_pow]

theorem mul_units_le {n : Nat} (bounded : n ≤ 2 ^ 64) : n * units ≤ 2 ^ 2000 := by
  obtain ⟨k, exponent, power⟩ := exists_units_eq
  have most : n * 2 ^ k ≤ 2 ^ (64 + k) := by
    rw [Nat.pow_add]
    exact Nat.mul_le_mul_right _ bounded
  rw [power]
  refine le_trans most ?_
  rw [Nat.pow_le_pow_iff_right (by decide)]
  omega

/-- Few digits are converted as they are, and then multiplied by the power of ten, one. -/
theorem stands_float_ofNat_of_lt {n : Nat} (few : n < 2 ^ 53) :
    Stands (Float.ofNat n).toModel.unpack (n * units : Nat) := by
  have limited := mul_units_le (le_trans few.le (by decide))
  have once := nearest_mul_units n
  obtain ⟨k, exponent, power⟩ := exists_units_eq
  rw [power] at limited once
  rw [power]
  have whole : n.toUInt64.toNat = n := by
    rw [UInt64.toNat_ofNat', Nat.mod_eq_of_lt (by omega)]
  have converted : Stands n.toUInt64.toFloat.toModel.unpack (n * 2 ^ k : Nat) := by
    have normalized := Stands.normalize n k (by rwa [Int.natAbs_natCast])
    have scale : (k : Int) - 1074 = 0 := by omega
    rw [scale, ← Int.natCast_mul, rounded_natCast, once, nearest_of_lt few] at normalized
    show Stands (Float.Model.pack (UnpackedFloat.normalize Format.binary64
      (n.toUInt64.toNat : Int) 0 .positive)).unpack _
    rw [whole]
    exact normalized.pack
  have product : Float.ofNat n = n.toUInt64.toFloat * Float.ofBits 0x3FF0000000000000 :=
    dif_pos ⟨few, by decide⟩
  have powers : 2 ^ 105 ∣ n * 2 ^ k := Dvd.dvd.mul_left (pow_dvd_pow 2 (by omega)) n
  rw [product]
  exact (converted.mul_one powers limited).pack

/-- Other numbers are multiplied by the power of ten first, and then rounded. -/
theorem ofScientific_eq {n : Nat} (pos : 0 < n) :
    UnpackedFloat.ofScientific Format.binary64 n 0 = ofUnits .positive (n * units) := by
  obtain ⟨k, exponent, power⟩ := exists_units_eq
  have product : UnpackedFloat.ofScientific Format.binary64 n 0 =
      UnpackedFloat.roundWithAccuracy Format.binary64 .positive (n <<< 53 * 10 ^ 0) (-53 + 0)
        .exact := by
    have least : ¬ (0 : Int) < -(2 ^ 11 + n.log2) := by omega
    rw [UnpackedFloat.ofScientific, dif_neg pos.ne', if_neg (by decide), if_neg least,
      if_pos (by decide)]
    rfl
  have scale : (-53 + 0 : Int) = (k - 53 : Nat) - 1074 := by omega
  have short : k - 53 ≤ (n * 2 ^ 53).log2 + (k - 53) - 52 := by
    rw [log2_mul_two_pow pos]
    omega
  have digits : n * 2 ^ 53 * 2 ^ (k - 53) = n * 2 ^ k := by
    rw [Nat.mul_assoc, ← Nat.pow_add, Nat.add_sub_cancel' (by omega)]
  rw [product, Nat.shiftLeft_eq, Nat.pow_zero, Nat.mul_one, scale,
    roundWithAccuracy_eq .positive (Nat.mul_pos pos (Nat.two_pow_pos 53)) short, digits, power]

theorem stands_float_ofNat {n : Nat} (bounded : n ≤ 2 ^ 63) :
    Stands (Float.ofNat n).toModel.unpack (nearest n * units : Nat) := by
  rcases Nat.lt_or_ge n (2 ^ 53) with few | many
  · rw [nearest_of_lt few]
    exact stands_float_ofNat_of_lt few
  · have read : Float.ofNat n = .ofModel (Float.Model.ofScientific n 0) :=
      dif_neg (by omega)
    have rounds := stands_ofUnits .positive (mul_units_le (le_trans bounded (by decide)))
    rw [nearest_mul_units, ← ofScientific_eq (by omega)] at rounds
    rw [read]
    exact rounds.pack

/-- An integer of 64 bits as a double is the integer, rounded. -/
theorem stands_float_ofInt {i : Int} (bounded : i.natAbs ≤ 2 ^ 63) :
    Stands (Float.ofInt i).toModel.unpack (rounded i * units) := by
  cases i with
  | ofNat n =>
      show Stands _ (rounded (n : Int) * _)
      rw [rounded_natCast, ← Int.natCast_mul]
      exact stands_float_ofNat bounded
  | negSucc n =>
      rw [Int.negSucc_eq, rounded_neg, ← Int.natCast_succ, rounded_natCast, Int.neg_mul,
        ← Int.natCast_mul]
      exact (stands_float_ofNat bounded).float_neg

end Memberwise
