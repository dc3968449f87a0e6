import Mathlib.Data.Set.Defs
import Memberwise.Constraint.Report
import Memberwise.Proofs.Pairs

/-!
# What a report says

A report is a set of findings, each a path with the name of a violated tag.
Elements are put in one after another and merged under equal paths; whatever the
order and the merging, the findings are those of all elements put in
(`mem_findings_ofElements`).
-/

namespace Memberwise

theorem InvalidElement.value_violateAll (e : InvalidElement) (ts : List Tag) :
    (e.violateAll ts).value = e.value := by
  induction ts generalizing e with
  | nil => rfl
  | cons t ts ih => exact ih (e.violate t)

namespace Report

variable {r : Report} {target : Value} {es : List InvalidElement} {path name : String}

/-- The paths of a report with the names of the tags violated there. -/
def findings (r : Report) : Set (String × String) :=
  {q | ∃ e ∈ r.elements, e.path = q.1 ∧ e.violates q.2 = true}

/-- Elements stand under their own paths. -/
def Keyed (r : Report) : Prop :=
  ∀ p e, r.invalid.get? p = some e → e.path = p

theorem keyed_empty (target : Value) : (empty target).Keyed := by
  intro p e h
  cases h

theorem Keyed.insert (h : r.Keyed) (e : InvalidElement) : (r.insert e).Keyed := by
  intro p f found
  rw [Report.insert] at found
  by_cases same : p = e.path
  · subst same
    cases there : r.invalid.get? e.path with
    | none =>
        simp only [there, Dict.get?_insert_self, Option.some.injEq] at found
        rw [← found]
    | some existing =>
        simp only [there, Dict.get?_insert_self, Option.some.injEq] at found
        rw [← found]
        show existing.path = e.path
        exact h _ _ there
  · cases there : r.invalid.get? e.path with
    | none =>
        simp only [there, Dict.get?_insert_of_ne _ _ _ _ same] at found
        exact h _ _ found
    | some existing =>
        simp only [there, Dict.get?_insert_of_ne _ _ _ _ same] at found
        exact h _ _ found

theorem keyed_ofElements (target : Value) (es : List InvalidElement) :
    (ofElements target es).Keyed := by
  have from_any : ∀ r : Report, r.Keyed → (es.foldl Report.insert r).Keyed := by
    induction es with
    | nil => exact fun _ h => h
    | cons e es ih => exact fun r h => ih _ (h.insert e)
  exact from_any _ (keyed_empty target)

theorem violates_ofElements (target : Value) (es : List InvalidElement) (path name : String) :
    (ofElements target es).violates path name = true ↔
      ∃ e ∈ es, e.path = path ∧ e.violates name = true := by
  have from_any : ∀ r : Report, (es.foldl Report.insert r).violates path name = true ↔
      r.violates path name = true ∨ ∃ e ∈ es, e.path = path ∧ e.violates name = true := by
    induction es with
    | nil => simp
    | cons e es ih =>
        intro r
        rw [List.foldl_cons, ih, violates_insert]
        simp only [Bool.or_eq_true, Bool.and_eq_true, beq_iff_eq, List.mem_cons,
          exists_eq_or_imp, or_assoc, eq_comm (a := path)]
  rw [ofElements, from_any]
  refine or_iff_right ?_
  intro h
  cases h

theorem mem_elements {e : InvalidElement} :
    e ∈ r.elements ↔ ∃ p, r.invalid.get? p = some e := by
  rw [elements, Dict.values, List.mem_map]
  constructor
  · rintro ⟨⟨p, f⟩, hp, rfl⟩
    exact ⟨p, Pairs.get?_of_mem r.invalid.ascending hp⟩
  · rintro ⟨p, found⟩
    exact ⟨(p, e), Pairs.mem_of_get? found, rfl⟩

/-- The findings of a report are those of the elements that were put in. -/
theorem mem_findings_ofElements : (path, name) ∈ (ofElements target es).findings ↔
    ∃ e ∈ es, e.path = path ∧ e.violates name = true := by
  rw [← violates_ofElements target es path name, violates, element?, Option.any_eq_true]
  constructor
  · rintro ⟨e, he, same, violated⟩
    obtain ⟨p, found⟩ := mem_elements.1 he
    have own : e.path = p := keyed_ofElements target es p e found
    have there : e.path = path := same
    exact ⟨e, by rw [← there, own]; exact found, violated⟩
  · rintro ⟨e, found, violated⟩
    exact ⟨e, mem_elements.2 ⟨path, found⟩, keyed_ofElements target es path e found, violated⟩

/-! What is kept of the elements that are put in. -/

section Kept

variable {P : InvalidElement → Prop}

theorem forall_get?_insert {r : Report} {f : InvalidElement} (keyed : r.Keyed)
    (merges : ∀ a b, P a → P b → a.path = b.path → P (a.merge b))
    (before : ∀ p e, r.invalid.get? p = some e → P e) (new : P f) :
    ∀ p e, (r.insert f).invalid.get? p = some e → P e := by
  intro p e found
  rw [insert] at found
  cases there : r.invalid.get? f.path with
  | none =>
      rw [there] at found
      by_cases same : p = f.path
      · subst same
        simp only [Dict.get?_insert_self, Option.some.injEq] at found
        exact found ▸ new
      · simp only [Dict.get?_insert_of_ne _ _ _ _ same] at found
        exact before p e found
  | some existing =>
      rw [there] at found
      by_cases same : p = f.path
      · subst same
        simp only [Dict.get?_insert_self, Option.some.injEq] at found
        rw [← found]
        exact merges existing f (before _ _ there) new (keyed _ _ there)
      · simp only [Dict.get?_insert_of_ne _ _ _ _ same] at found
        exact before p e found

/-- What holds of all elements that are put in, and of merged ones if it holds of
the two under one path, holds of all elements of a report. -/
theorem forall_elements_ofElements {target : Value} {es : List InvalidElement}
    (merges : ∀ a b, P a → P b → a.path = b.path → P (a.merge b)) (all : ∀ e ∈ es, P e) :
    ∀ e ∈ (ofElements target es).elements, P e := by
  have put : (ofElements target es).Keyed ∧
      ∀ p e, (ofElements target es).invalid.get? p = some e → P e := by
    refine List.foldlRecOn (motive := fun r : Report => r.Keyed ∧
      ∀ p e, r.invalid.get? p = some e → P e) es insert ⟨keyed_empty target, ?_⟩ ?_
    · intro p e found
      cases found
    · rintro r ⟨keyed, before⟩ f hf
      exact ⟨keyed.insert f, forall_get?_insert keyed merges before (all f hf)⟩
  intro e he
  obtain ⟨p, found⟩ := mem_elements.1 he
  exact put.2 p e found

end Kept

end Report

end Memberwise
