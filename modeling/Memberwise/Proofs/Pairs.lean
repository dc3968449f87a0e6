import Mathlib.Data.List.Induction
import Memberwise.Dict

/-!
# Pairs in order

What is looked up in a list of pairs is one of them, and in ascending order each of
them is looked up.  Pairs that are put in order one after another are the same pairs
in the end, if their keys are different (`perm_ofList`).
-/

namespace Memberwise.Pairs

variable {α : Type} {key : String} {value : α} {ps : List (String × α)}

theorem mem_of_get? (h : get? key ps = some value) : (key, value) ∈ ps := by
  induction ps with
  | nil => cases h
  | cons p ps ih =>
      obtain ⟨k, v⟩ := p
      simp only [get?] at h
      split at h
      · rename_i same
        cases h
        exact same ▸ List.mem_cons_self
      · exact List.mem_cons_of_mem _ (ih h)

theorem get?_of_mem (ascending : Ascending ps) (h : (key, value) ∈ ps) :
    get? key ps = some value := by
  induction ps with
  | nil => cases h
  | cons p ps ih =>
      obtain ⟨k, v⟩ := p
      obtain ⟨least, rest⟩ := List.pairwise_cons.1 ascending
      rcases List.mem_cons.1 h with same | h
      · cases same
        simp [get?]
      · have other : k ≠ key := fun e => String.lt_irrefl k (e ▸ least _ h)
        simp [get?, other, ih rest h]

theorem mem_of_mem_ofList {p : String × α} (h : p ∈ ofList ps) : p ∈ ps := by
  have from_acc : ∀ ps acc : List (String × α),
      p ∈ ps.foldl (fun acc q => insert q.1 q.2 acc) acc → p ∈ acc ∨ p ∈ ps := by
    intro ps
    induction ps with
    | nil => exact fun acc h => Or.inl h
    | cons q ps ih =>
        intro acc h
        rcases ih _ h with h | h
        · rcases mem_of_mem_insert q.1 q.2 acc p h with rfl | h
          · exact Or.inr List.mem_cons_self
          · exact Or.inl h
        · exact Or.inr (List.mem_cons_of_mem _ h)
  exact (from_acc ps [] h).resolve_left List.not_mem_nil

theorem perm_insert (value : α) (new : key ∉ ps.map (·.1)) :
    (insert key value ps).Perm ((key, value) :: ps) := by
  induction ps with
  | nil => exact List.Perm.refl _
  | cons p ps ih =>
      obtain ⟨k, v⟩ := p
      obtain ⟨other, new⟩ := not_or.1 (fun h => new (List.mem_cons.2 h))
      rw [insert, if_neg (Ne.symm other)]
      split
      · exact List.Perm.refl _
      · exact ((ih new).cons (k, v)).trans (List.Perm.swap _ _ _)

/-- Pairs of different keys are only put in order. -/
theorem perm_ofList (distinct : (ps.map (·.1)).Nodup) : (ofList ps).Perm ps := by
  induction ps using List.reverseRecOn with
  | nil => exact List.Perm.refl _
  | append_singleton ps p ih =>
      rw [List.map_append, List.nodup_append] at distinct
      obtain ⟨distinct, -, apart⟩ := distinct
      have same := ih distinct
      have new : p.1 ∉ (ofList ps).map (·.1) := by
        intro again
        exact apart p.1 ((same.map _).mem_iff.1 again) p.1 (List.mem_singleton_self _) rfl
      have last : ofList (ps ++ [p]) = insert p.1 p.2 (ofList ps) := by
        rw [ofList, List.foldl_append]
        rfl
      rw [last]
      exact (perm_insert p.2 new).trans ((same.cons p).trans (List.perm_append_singleton p ps).symm)

theorem get?_ofList_of_mem (distinct : (ps.map (·.1)).Nodup) (h : (key, value) ∈ ps) :
    get? key (ofList ps) = some value :=
  get?_of_mem (ascending_ofList ps) ((perm_ofList distinct).mem_iff.2 h)

end Memberwise.Pairs

namespace Memberwise.Dict

variable {α : Type} {d : Dict α} {key other : String} {value found : α}

theorem mem_keys_iff : key ∈ d.keys ↔ ∃ v, d.get? key = some v := by
  constructor
  · intro listed
    obtain ⟨⟨k, v⟩, stored, rfl⟩ := List.mem_map.1 listed
    exact ⟨v, Pairs.get?_of_mem d.ascending stored⟩
  · rintro ⟨v, found⟩
    exact List.mem_map.2 ⟨(key, v), Pairs.mem_of_get? found, rfl⟩

/-- What stands in a dictionary after an entry was added was there, or is the entry. -/
theorem get?_insertNew_eq_some (h : (d.insertNew key value).get? other = some found) :
    d.get? other = some found ∨ other = key ∧ found = value := by
  rw [insertNew] at h
  split at h
  · exact Or.inl h
  · by_cases same : other = key
    · subst same
      rw [get?_insert_self] at h
      exact Or.inr ⟨rfl, (Option.some.inj h).symm⟩
    · rw [get?_insert_of_ne _ _ _ _ same] at h
      exact Or.inl h

/-- What stands in two dictionaries together stands in one of them. -/
theorem get?_merge_eq_some {e : Dict α} (h : (d.merge e).get? key = some found) :
    d.get? key = some found ∨ e.get? key = some found := by
  have from_any : ∀ ps : List (String × α), ∀ d : Dict α,
      (ps.foldl (fun d p => d.insertNew p.1 p.2) d).get? key = some found →
        d.get? key = some found ∨ (key, found) ∈ ps := by
    intro ps
    induction ps with
    | nil => exact fun d h => Or.inl h
    | cons p ps ih =>
        intro d h
        rcases ih _ h with h | h
        · rcases get?_insertNew_eq_some h with h | ⟨rfl, rfl⟩
          · exact Or.inl h
          · exact Or.inr List.mem_cons_self
        · exact Or.inr (List.mem_cons_of_mem _ h)
  exact (from_any e.pairs d h).imp_right (Pairs.get?_of_mem e.ascending)

end Memberwise.Dict
