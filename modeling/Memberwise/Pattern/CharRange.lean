/-!
# Ranges of characters

Sets of characters are lists of ranges, which may overlap and come in any order.
`normalize` brings them into ascending order and joins those that meet, and
`complement` turns the gaps between them into ranges.  `covers_normalize` and
`contains_complement` say that the one keeps the set and the other gives all
other characters.
-/

namespace Memberwise

/-- Characters from one number to another, both included. -/
structure CharRange where
  low : Nat
  high : Nat
  deriving DecidableEq

namespace CharRange

def single (c : Char) : CharRange := ⟨c.toNat, c.toNat⟩

def between (a b : Char) : CharRange := ⟨a.toNat, b.toNat⟩

/-- Whether a number is in one of the ranges. -/
def covers (rs : List CharRange) (n : Nat) : Bool :=
  rs.any fun r => r.low ≤ n && n ≤ r.high

/-- Whether a character is in one of the ranges. -/
def contains (rs : List CharRange) (c : Char) : Bool :=
  covers rs c.toNat

/-- The common part of a range and the range between two characters, if there is one. -/
def meet? (r : CharRange) (a b : Char) : Option CharRange :=
  let low := max r.low a.toNat
  let high := min r.high b.toNat
  if low ≤ high then some ⟨low, high⟩ else none

/-- The letters of the other case: capitals for the small letters in a range,
else small letters for the capitals in it. -/
def otherCase? (r : CharRange) : Option CharRange :=
  match r.meet? 'a' 'z', r.meet? 'A' 'Z' with
  | some s, _ => some ⟨s.low - 32, s.high - 32⟩
  | none, some s => some ⟨s.low + 32, s.high + 32⟩
  | none, none => none

/-- Joins a range with those of an ascending list that meet it. -/
def joinInto (r : CharRange) : List CharRange → List CharRange
  | [] => [r]
  | s :: rest =>
    if s.low ≤ r.high + 1 then joinInto ⟨r.low, max r.high s.high⟩ rest else r :: joinInto s rest

/-- Joins the ranges of an ascending list that meet. -/
def joined : List CharRange → List CharRange
  | [] => []
  | r :: rest => joinInto r rest

/-- The ranges by their lower ends. -/
def sorted (rs : List CharRange) : List CharRange :=
  rs.mergeSort fun r s => r.low ≤ s.low

def normalize (rs : List CharRange) : List CharRange :=
  joined (sorted rs)

/-- The greatest number of a character. -/
def maxChar : Nat := 0x10ffff

/-- The gaps from a number on between ranges in ascending order. -/
def gaps (start : Nat) : List CharRange → List CharRange
  | [] => if start ≤ maxChar then [⟨start, maxChar⟩] else []
  | r :: rest =>
    let after := gaps (max start (r.high + 1)) rest
    if start < r.low then ⟨start, r.low - 1⟩ :: after else after

/-- All other characters. -/
def complement (rs : List CharRange) : List CharRange :=
  gaps 0 (normalize rs)

/-- Both cases of the letters in ranges. -/
def foldCase (rs : List CharRange) : List CharRange :=
  rs ++ rs.filterMap otherCase?

/-- In the order of the lower ends. -/
def Ascending (rs : List CharRange) : Prop :=
  rs.Pairwise fun r s => r.low ≤ s.low

theorem covers_nil (n : Nat) : covers [] n = false := rfl

theorem covers_cons (r : CharRange) (rs : List CharRange) (n : Nat) :
    covers (r :: rs) n = ((decide (r.low ≤ n) && decide (n ≤ r.high)) || covers rs n) := rfl

theorem ascending_sorted (rs : List CharRange) : Ascending (sorted rs) := by
  have trans : ∀ a b c : CharRange, decide (a.low ≤ b.low) = true →
      decide (b.low ≤ c.low) = true → decide (a.low ≤ c.low) = true := by
    intro a b c hab hbc
    simp only [decide_eq_true_eq] at *
    exact Nat.le_trans hab hbc
  have total : ∀ a b : CharRange, (decide (a.low ≤ b.low) || decide (b.low ≤ a.low)) = true := by
    intro a b
    simpa using Nat.le_total a.low b.low
  exact (List.pairwise_mergeSort trans total rs).imp fun h => by simpa using h

theorem covers_sorted (rs : List CharRange) (n : Nat) : covers (sorted rs) n = covers rs n :=
  (List.mergeSort_perm rs _).any_eq

/-- No range of an ascending list begins below a number. -/
theorem covers_eq_false {rs : List CharRange} {n : Nat} (h : ∀ s ∈ rs, n < s.low) :
    covers rs n = false := by
  rw [covers, List.any_eq_false]
  intro s hs inside
  have := h s hs
  simp only [Bool.and_eq_true, decide_eq_true_eq] at inside
  omega

theorem covers_joinInto (r : CharRange) (rs : List CharRange) (n : Nat)
    (h : Ascending (r :: rs)) : covers (joinInto r rs) n = covers (r :: rs) n := by
  induction rs generalizing r with
  | nil => rfl
  | cons s rest ih =>
    obtain ⟨first, tail⟩ := List.pairwise_cons.1 h
    have rs_le : r.low ≤ s.low := first s List.mem_cons_self
    unfold joinInto
    split
    · rename_i meets
      have joinedAscending : Ascending (⟨r.low, max r.high s.high⟩ :: rest) :=
        List.pairwise_cons.2
          ⟨fun t ht => first t (List.mem_cons_of_mem _ ht), (List.pairwise_cons.1 tail).2⟩
      rw [ih _ joinedAscending, covers_cons, covers_cons, covers_cons, ← Bool.or_assoc]
      congr 1
      rw [Bool.eq_iff_iff]
      simp only [Bool.and_eq_true, Bool.or_eq_true, decide_eq_true_eq]
      omega
    · rw [covers_cons, ih s tail, covers_cons r]

theorem le_low_of_mem_joinInto {r s : CharRange} {rs : List CharRange} {n : Nat}
    (h : ∀ t ∈ r :: rs, n ≤ t.low) (hs : s ∈ joinInto r rs) : n ≤ s.low := by
  induction rs generalizing r with
  | nil => exact h s hs
  | cons t rest ih =>
    have hr := h r List.mem_cons_self
    unfold joinInto at hs
    split at hs
    · refine ih (fun u hu => ?_) hs
      rcases List.mem_cons.1 hu with e | hu
      · exact e ▸ hr
      · exact h u (List.mem_cons_of_mem _ (List.mem_cons_of_mem _ hu))
    · rcases List.mem_cons.1 hs with e | hs
      · exact e ▸ hr
      · exact ih (fun u hu => h u (List.mem_cons_of_mem _ hu)) hs

theorem ascending_joinInto (r : CharRange) (rs : List CharRange) (h : Ascending (r :: rs)) :
    Ascending (joinInto r rs) := by
  induction rs generalizing r with
  | nil => exact List.pairwise_singleton _ _
  | cons s rest ih =>
    obtain ⟨first, tail⟩ := List.pairwise_cons.1 h
    unfold joinInto
    split
    · exact ih _ (List.pairwise_cons.2
        ⟨fun t ht => first t (List.mem_cons_of_mem _ ht), (List.pairwise_cons.1 tail).2⟩)
    · exact List.pairwise_cons.2 ⟨fun t ht => le_low_of_mem_joinInto first ht, ih s tail⟩

theorem ascending_normalize (rs : List CharRange) : Ascending (normalize rs) := by
  unfold normalize joined
  have h := ascending_sorted rs
  split
  · exact List.Pairwise.nil
  · rename_i r rest e
    exact ascending_joinInto r rest (e ▸ h)

/-- Joining ranges keeps the set. -/
theorem covers_normalize (rs : List CharRange) (n : Nat) :
    covers (normalize rs) n = covers rs n := by
  rw [← covers_sorted rs n]
  unfold normalize joined
  have h := ascending_sorted rs
  split
  · rename_i e
    rw [e]
  · rename_i r rest e
    rw [e] at h ⊢
    exact covers_joinInto r rest n h

/-- Gaps hold what no range holds. -/
theorem covers_gaps (start : Nat) (rs : List CharRange) (n : Nat) (h : Ascending rs)
    (bound : n ≤ maxChar) :
    covers (gaps start rs) n = (decide (start ≤ n) && !covers rs n) := by
  induction rs generalizing start with
  | nil =>
    unfold gaps
    split <;> simp [covers] <;> omega
  | cons r rest ih =>
    obtain ⟨first, tail⟩ := List.pairwise_cons.1 h
    have below : n < r.low → covers rest n = false := fun lt =>
      covers_eq_false fun s hs => Nat.lt_of_lt_of_le lt (first s hs)
    have clear : covers rest n = true → r.low ≤ n := fun inside =>
      Nat.not_lt.1 fun lt => by simp [below lt] at inside
    simp only [gaps]
    split <;> rw [Bool.eq_iff_iff] <;>
      simp only [covers_cons, ih _ tail, Bool.or_eq_true, Bool.and_eq_true, Bool.not_eq_true',
        Bool.or_eq_false_iff, Bool.and_eq_false_iff, decide_eq_true_eq, decide_eq_false_iff_not] <;>
      cases inside : covers rest n <;> simp only [inside, true_implies] at clear <;> simp <;> omega

theorem contains_complement (rs : List CharRange) (c : Char) :
    contains (complement rs) c = !contains rs c := by
  have bound : c.toNat ≤ maxChar := by
    have valid := c.valid
    simp only [UInt32.isValidChar, Nat.isValidChar] at valid
    simp only [Char.toNat, maxChar]
    omega
  rw [contains, contains, complement, covers_gaps 0 _ _ (ascending_normalize rs) bound,
    covers_normalize]
  simp

end CharRange

end Memberwise
