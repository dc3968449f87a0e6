import Mathlib.Data.List.Induction
import Memberwise.Member.Discovery.Object

/-!
# Lists without repeats

`distinct` keeps each name at its first place.  So its members are those of the
list, none stands twice, and they come in the order of their first places.
Cutting the parts of a list before the whole changes nothing.  Where names do not repeat,
each thing is found by its own (`find?_name_of_nodup`).
-/

namespace Memberwise

/-- A name behind those that are kept so far. -/
def keepNew (kept : List String) (name : String) : List String :=
  if kept.contains name then kept else kept ++ [name]

theorem distinct_eq_foldl (names : List String) : distinct names = names.foldl keepNew [] := rfl

theorem keepNew_of_mem {kept : List String} {name : String} (h : name ∈ kept) :
    keepNew kept name = kept := by
  simp [keepNew, h]

theorem keepNew_of_not_mem {kept : List String} {name : String} (h : name ∉ kept) :
    keepNew kept name = kept ++ [name] := by
  simp [keepNew, h]

theorem mem_keepNew {kept : List String} {name n : String} :
    n ∈ keepNew kept name ↔ n ∈ kept ∨ n = name := by
  by_cases h : name ∈ kept
  · rw [keepNew_of_mem h]
    constructor
    · exact Or.inl
    · rintro (hn | rfl)
      · exact hn
      · exact h
  · simp [keepNew_of_not_mem h]

theorem mem_foldl_keepNew {kept names : List String} {n : String} :
    n ∈ names.foldl keepNew kept ↔ n ∈ kept ∨ n ∈ names := by
  induction names generalizing kept with
  | nil => simp
  | cons name names ih =>
      rw [List.foldl_cons, ih, mem_keepNew, List.mem_cons, or_assoc]

theorem distinct_concat (names : List String) (name : String) :
    distinct (names ++ [name]) = keepNew (distinct names) name := by
  rw [distinct_eq_foldl, List.foldl_append]
  rfl

theorem mem_distinct {names : List String} {n : String} : n ∈ distinct names ↔ n ∈ names := by
  rw [distinct_eq_foldl, mem_foldl_keepNew]
  simp

theorem nodup_distinct (names : List String) : (distinct names).Nodup := by
  induction names using List.reverseRecOn with
  | nil => exact List.nodup_nil
  | append_singleton names name ih =>
      rw [distinct_concat]
      by_cases h : name ∈ distinct names
      · rw [keepNew_of_mem h]
        exact ih
      · rw [keepNew_of_not_mem h, List.nodup_append]
        refine ⟨ih, List.pairwise_singleton _ _, ?_⟩
        intro a ha b hb
        rw [List.mem_singleton.1 hb]
        exact fun e => h (e ▸ ha)

/-- Names come in the order of their first places. -/
theorem distinct_pairwise_idxOf (names : List String) :
    (distinct names).Pairwise fun a b => names.idxOf a < names.idxOf b := by
  induction names using List.reverseRecOn with
  | nil => exact List.Pairwise.nil
  | append_singleton names name ih =>
      have old : (distinct names).Pairwise fun a b =>
          (names ++ [name]).idxOf a < (names ++ [name]).idxOf b := by
        refine ih.imp_of_mem ?_
        intro a b ha hb hab
        rw [List.idxOf_append, List.idxOf_append, if_pos (mem_distinct.1 ha),
          if_pos (mem_distinct.1 hb)]
        exact hab
      rw [distinct_concat]
      by_cases h : name ∈ distinct names
      · rw [keepNew_of_mem h]
        exact old
      · rw [keepNew_of_not_mem h, List.pairwise_append]
        refine ⟨old, List.pairwise_singleton _ _, ?_⟩
        intro a ha b hb
        have hname : name ∉ names := fun e => h (mem_distinct.2 e)
        rw [List.mem_singleton.1 hb, List.idxOf_append, List.idxOf_append,
          if_pos (mem_distinct.1 ha), if_neg hname]
        exact Nat.lt_of_lt_of_le (List.idxOf_lt_length_of_mem (mem_distinct.1 ha))
          (Nat.le_add_left _ _)

/-- Adding the distinct names of a list adds as much as adding them all. -/
theorem foldl_keepNew_distinct (kept names : List String) :
    (distinct names).foldl keepNew kept = names.foldl keepNew kept := by
  induction names using List.reverseRecOn with
  | nil => rfl
  | append_singleton names name ih =>
      rw [distinct_concat, List.foldl_append, List.foldl_cons, List.foldl_nil]
      by_cases h : name ∈ distinct names
      · have present : name ∈ names.foldl keepNew kept :=
          mem_foldl_keepNew.2 (Or.inr (mem_distinct.1 h))
        rw [keepNew_of_mem h, keepNew_of_mem present, ih]
      · rw [keepNew_of_not_mem h, List.foldl_append, ih]
        rfl

theorem distinct_flatMap_distinct {α : Type} (f : α → List String) (xs : List α) :
    distinct (xs.flatMap fun x => distinct (f x)) = distinct (xs.flatMap f) := by
  have parts : ∀ kept, (xs.flatMap fun x => distinct (f x)).foldl keepNew kept =
      (xs.flatMap f).foldl keepNew kept := by
    induction xs with
    | nil => exact fun _ => rfl
    | cons x xs ih =>
        intro kept
        rw [List.flatMap_cons, List.flatMap_cons, List.foldl_append, List.foldl_append,
          foldl_keepNew_distinct, ih]
  exact parts []

/-- Of each name the first tag is kept. -/
theorem distinctTags_eq_eraseDupsBy (tags : List Tag) :
    distinctTags tags = tags.eraseDupsBy fun later earlier => earlier.name == later.name := by
  have loop : ∀ kept : List Tag,
      tags.foldl (fun acc t => if acc.any (·.name == t.name) then acc else acc ++ [t]) kept =
        List.eraseDupsBy.loop (fun later earlier => earlier.name == later.name) tags
          kept.reverse := by
    induction tags with
    | nil => simp [List.eraseDupsBy.loop]
    | cons t tags ih =>
        intro kept
        rw [List.foldl_cons, ih]
        conv => rhs; unfold List.eraseDupsBy.loop
        rw [List.any_reverse]
        cases h : kept.any (·.name == t.name) with
        | true => simp
        | false => simp
  exact loop []

/-- Among things of different names each is found by its name. -/
theorem find?_name_of_nodup {α : Type} {name : α → String} {xs : List α}
    (distinct : (xs.map name).Nodup) {x : α} (hx : x ∈ xs) :
    xs.find? (name · == name x) = some x := by
  induction xs with
  | nil => cases hx
  | cons first rest ih =>
      obtain ⟨fresh, distinct⟩ := List.nodup_cons.1 distinct
      rw [List.find?_cons]
      rcases List.mem_cons.1 hx with rfl | hx
      · simp
      · have other : (name first == name x) = false := by
          rw [beq_eq_false_iff_ne]
          intro same
          exact fresh (List.mem_map.2 ⟨x, hx, same.symm⟩)
        rw [other]
        exact ih distinct hx

end Memberwise
