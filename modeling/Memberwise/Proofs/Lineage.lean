import Mathlib.Logic.Relation
import Memberwise.Proofs.Building
import Memberwise.Proofs.Distinct

/-!
# Types and their parents

`Lineal` says how a list of types, the latest first, comes about: every type
has a new name and a greater number than those before it, and its parents are
among them.  Builders only ever hold such lists.

On them the answers about subtypes are recursive along the parents, and a
relation that is so is reachability through parents (`reaches_iff_of_recursive`).
So two answers agree as soon as both are recursive in this way.
-/

namespace Memberwise

/-- Lists of types in which every type was made from older ones. -/
inductive Lineal : List TypeDefinition → Prop
  | nil : Lineal []
  | cons {d : TypeDefinition} {older : List TypeDefinition} (parents : List TypeDefinition)
      (rest : Lineal older) (fresh : ∀ t ∈ older, t.name ≠ d.name)
      (latest : ∀ t ∈ older, t.id < d.id) (known : ∀ p ∈ parents, p ∈ older)
      (ids : d.parentIds = parents.map (·.id))
      (supers : d.supertypes = distinct (parents.flatMap fun p => p.name :: p.supertypes)) :
      Lineal (d :: older)

/-- The second type is a parent of the first. -/
def Parent (types : List TypeDefinition) (s p : TypeDefinition) : Prop :=
  s ∈ types ∧ p ∈ types ∧ p.id ∈ s.parentIds

/-- Reachability through any number of parents. -/
abbrev Reaches (types : List TypeDefinition) : TypeDefinition → TypeDefinition → Prop :=
  Relation.ReflTransGen (Parent types)

namespace Lineal

variable {types : List TypeDefinition} {s t p : TypeDefinition}

theorem eq_of_name (h : Lineal types) (hs : s ∈ types) (ht : t ∈ types)
    (e : s.name = t.name) : s = t := by
  induction h with
  | nil => cases hs
  | cons parents rest fresh latest known ids supers ih =>
      rcases List.mem_cons.1 hs with rfl | hs'
      · rcases List.mem_cons.1 ht with rfl | ht'
        · rfl
        · exact absurd e.symm (fresh t ht')
      · rcases List.mem_cons.1 ht with rfl | ht'
        · exact absurd e (fresh s hs')
        · exact ih hs' ht'

theorem eq_of_id (h : Lineal types) (hs : s ∈ types) (ht : t ∈ types) (e : s.id = t.id) :
    s = t := by
  induction h with
  | nil => cases hs
  | cons parents rest fresh latest known ids supers ih =>
      rcases List.mem_cons.1 hs with rfl | hs'
      · rcases List.mem_cons.1 ht with rfl | ht'
        · rfl
        · exact absurd e.symm (Nat.ne_of_lt (latest t ht'))
      · rcases List.mem_cons.1 ht with rfl | ht'
        · exact absurd e (Nat.ne_of_lt (latest s hs'))
        · exact ih hs' ht'

/-- The parents from which a type was made are in the list and older. -/
theorem exists_parents (h : Lineal types) (hs : s ∈ types) :
    ∃ parents : List TypeDefinition, (∀ p ∈ parents, p ∈ types ∧ p.id < s.id) ∧
      s.parentIds = parents.map (·.id) ∧
      s.supertypes = distinct (parents.flatMap fun p => p.name :: p.supertypes) := by
  induction h with
  | nil => cases hs
  | @cons d older parents rest fresh latest known ids supers ih =>
      rcases List.mem_cons.1 hs with rfl | hs
      · refine ⟨parents, ?_, ids, supers⟩
        intro p hp
        exact ⟨List.mem_cons_of_mem _ (known p hp), latest p (known p hp)⟩
      · obtain ⟨parents, older, ids, supers⟩ := ih hs
        refine ⟨parents, ?_, ids, supers⟩
        intro p hp
        exact ⟨List.mem_cons_of_mem _ (older p hp).1, (older p hp).2⟩

theorem lt_of_mem_parentIds (h : Lineal types) (hs : s ∈ types) {id : TypeId}
    (hid : id ∈ s.parentIds) : id < s.id := by
  obtain ⟨parents, older, ids, -⟩ := h.exists_parents hs
  rw [ids] at hid
  obtain ⟨p, hp, rfl⟩ := List.mem_map.1 hid
  exact (older p hp).2

/-- The names above a type are those of its parents and the names above these. -/
theorem mem_supertypes (h : Lineal types) (hs : s ∈ types) {n : String} :
    n ∈ s.supertypes ↔ ∃ p, Parent types s p ∧ (n = p.name ∨ n ∈ p.supertypes) := by
  obtain ⟨parents, older, ids, supers⟩ := h.exists_parents hs
  rw [supers, mem_distinct, List.mem_flatMap]
  constructor
  · rintro ⟨p, hp, hn⟩
    refine ⟨p, ⟨hs, (older p hp).1, ?_⟩, List.mem_cons.1 hn⟩
    rw [ids]
    exact List.mem_map_of_mem hp
  · rintro ⟨p, ⟨-, hp, hid⟩, hn⟩
    rw [ids] at hid
    obtain ⟨q, hq, e⟩ := List.mem_map.1 hid
    have same : q = p := h.eq_of_id (older q hq).1 hp e
    exact ⟨p, same ▸ hq, List.mem_cons.2 hn⟩

theorem mem_supertypes_exists (h : Lineal types) (hs : s ∈ types) {n : String}
    (hn : n ∈ s.supertypes) : ∃ p ∈ types, p.name = n ∧ p.id < s.id := by
  induction hid : s.id using Nat.strongRecOn generalizing s with
  | _ id ih =>
      obtain ⟨p, parent, hp⟩ := (h.mem_supertypes hs).1 hn
      have lt : p.id < s.id := h.lt_of_mem_parentIds hs parent.2.2
      rcases hp with rfl | hp
      · exact ⟨p, parent.2.1, rfl, hid ▸ lt⟩
      · obtain ⟨q, hq, hqn, hlt⟩ := ih p.id (hid ▸ lt) parent.2.1 hp rfl
        exact ⟨q, hq, hqn, Nat.lt_trans hlt (hid ▸ lt)⟩

theorem find?_name (h : Lineal types) (hs : s ∈ types) :
    types.find? (·.name == s.name) = some s := by
  cases found : types.find? (·.name == s.name) with
  | none =>
      have none := List.find?_eq_none.1 found s hs
      simp at none
  | some t =>
      have e : t.name = s.name := by simpa using List.find?_some found
      rw [h.eq_of_name (List.mem_of_find?_eq_some found) hs e]

/-- Going up through parents never leads to a type that is not older. -/
theorem eq_or_lt_of_reaches (h : Lineal types) (path : Reaches types s t) :
    s = t ∨ t.id < s.id := by
  induction path with
  | refl => exact Or.inl rfl
  | tail _ parent ih =>
      have lt := h.lt_of_mem_parentIds parent.1 parent.2.2
      rcases ih with rfl | ih
      · exact Or.inr lt
      · exact Or.inr (Nat.lt_trans lt ih)

/-- Types that reach each other are the same. -/
theorem eq_of_reaches (h : Lineal types) (up : Reaches types s t) (down : Reaches types t s) :
    s = t := by
  rcases h.eq_or_lt_of_reaches up with same | older
  · exact same
  · rcases h.eq_or_lt_of_reaches down with same | younger
    · exact same.symm
    · exact absurd (Nat.lt_trans older younger) (Nat.lt_irrefl _)

/-- A relation between types that is recursive along parents is reachability. -/
theorem reaches_iff_of_recursive (h : Lineal types) {A : TypeDefinition → TypeDefinition → Prop}
    (recursive : ∀ s ∈ types, ∀ t ∈ types, A s t ↔ s = t ∨ ∃ p, Parent types s p ∧ A p t)
    (hs : s ∈ types) (ht : t ∈ types) : A s t ↔ Reaches types s t := by
  induction hid : s.id using Nat.strongRecOn generalizing s with
  | _ id ih =>
      rw [recursive s hs t ht, Reaches, Relation.ReflTransGen.cases_head_iff]
      refine or_congr_right (exists_congr fun p => and_congr_right fun parent => ?_)
      exact ih p.id (hid ▸ h.lt_of_mem_parentIds hs parent.2.2) parent.2.1 rfl

/-- Being of a type by name is reachability. -/
theorem isA_iff_reaches (h : Lineal types) (hs : s ∈ types) (ht : t ∈ types) :
    s.isA t.name = true ↔ Reaches types s t := by
  refine h.reaches_iff_of_recursive (A := fun s t => s.isA t.name = true) ?_ hs ht
  intro s hs t ht
  have name : s.name = t.name ↔ s = t := ⟨h.eq_of_name hs ht, fun e => e ▸ rfl⟩
  simp only [TypeDefinition.isA, Bool.or_eq_true, beq_iff_eq, List.any_eq_true,
    exists_eq_right, h.mem_supertypes hs, name]
  refine or_congr_right (exists_congr fun p => and_congr_right fun _ => ?_)
  rw [eq_comm]

end Lineal

namespace SubtypeIndex

variable {types : List TypeDefinition} {s t : TypeDefinition}

theorem mem_closure {index : SubtypeIndex} {parents : List TypeId} {id : TypeId} :
    id ∈ index.closure parents ↔ ∃ p ∈ parents, id = p ∨ id ∈ index.above p := by
  simp [closure]

theorem above_cons_of_ne (d : TypeDefinition) (older : List TypeDefinition) {id : TypeId}
    (h : id ≠ d.id) : (ofTypes (d :: older)).above id = (ofTypes older).above id := by
  have skip : (id == d.id) = false := beq_eq_false_iff_ne.2 h
  simp [ofTypes, above, List.lookup_cons, skip]

theorem above_cons_self (d : TypeDefinition) (older : List TypeDefinition) :
    (ofTypes (d :: older)).above d.id = (ofTypes older).closure d.parentIds := by
  simp [ofTypes, above]

/-- The numbers above a type are those of its parents and the numbers above these. -/
theorem mem_above (h : Lineal types) (hs : s ∈ types) {id : TypeId} :
    id ∈ (ofTypes types).above s.id ↔
      ∃ p ∈ s.parentIds, id = p ∨ id ∈ (ofTypes types).above p := by
  induction h with
  | nil => cases hs
  | @cons d older parents rest fresh latest known ids supers ih =>
      have all : Lineal (d :: older) := .cons parents rest fresh latest known ids supers
      -- parents are older than the first type, so its row is not asked for
      have below : ∀ p ∈ s.parentIds, (ofTypes (d :: older)).above p = (ofTypes older).above p := by
        intro p hp
        refine above_cons_of_ne d older (Nat.ne_of_lt ?_)
        rcases List.mem_cons.1 hs with rfl | hs'
        · exact all.lt_of_mem_parentIds hs hp
        · exact Nat.lt_trans (all.lt_of_mem_parentIds hs hp) (latest s hs')
      have rows : (∃ p ∈ s.parentIds, id = p ∨ id ∈ (ofTypes (d :: older)).above p) ↔
          ∃ p ∈ s.parentIds, id = p ∨ id ∈ (ofTypes older).above p := by
        refine exists_congr fun p => and_congr_right fun hp => ?_
        rw [below p hp]
      rw [rows]
      rcases List.mem_cons.1 hs with rfl | hs'
      · rw [above_cons_self, mem_closure]
      · rw [above_cons_of_ne d older (Nat.ne_of_lt (latest s hs')), ih hs']

theorem rows_ofTypes (h : Lineal types) :
    (ofTypes types).rows = types.map fun d => (d.id, (ofTypes types).above d.id) := by
  induction h with
  | nil => rfl
  | @cons d older parents rest fresh latest known ids supers ih =>
      have tail : older.map (fun t => (t.id, (ofTypes (d :: older)).above t.id)) =
          older.map fun t => (t.id, (ofTypes older).above t.id) := by
        refine List.map_congr_left fun t ht => ?_
        rw [above_cons_of_ne d older (Nat.ne_of_lt (latest t ht))]
      rw [List.map_cons, above_cons_self, tail, ← ih]
      rfl

/-- The types below a type are those that have it above them. -/
theorem mem_below (h : Lineal types) (hs : s ∈ types) {id : TypeId} :
    s.id ∈ (ofTypes types).below id ↔ id ∈ (ofTypes types).above s.id := by
  simp only [below, rows_ofTypes h, List.mem_map, List.mem_filter, List.contains_iff_mem]
  constructor
  · rintro ⟨row, ⟨⟨d, hd, rfl⟩, hid⟩, e⟩
    rw [h.eq_of_id hd hs e] at hid
    exact hid
  · intro hid
    exact ⟨_, ⟨⟨s, hs, rfl⟩, hid⟩, rfl⟩

/-- Being a subtype by number is reachability. -/
theorem isSubtype_iff_reaches (h : Lineal types) (hs : s ∈ types) (ht : t ∈ types) :
    (ofTypes types).isSubtype s.id t.id = true ↔ Reaches types s t := by
  refine h.reaches_iff_of_recursive
    (A := fun s t => (ofTypes types).isSubtype s.id t.id = true) ?_ hs ht
  intro s hs t ht
  have number : ∀ {u}, u ∈ types → (u.id = t.id ↔ u = t) := fun hu =>
    ⟨h.eq_of_id hu ht, fun e => e ▸ rfl⟩
  simp only [isSubtype, Bool.or_eq_true, beq_iff_eq, List.contains_iff_mem, number hs,
    mem_above h hs]
  refine or_congr_right ?_
  constructor
  · rintro ⟨id, hid, hp⟩
    obtain ⟨parents, older, ids, -⟩ := h.exists_parents hs
    obtain ⟨p, hp', rfl⟩ := List.mem_map.1 (ids ▸ hid)
    refine ⟨p, ⟨hs, (older p hp').1, hid⟩, ?_⟩
    exact hp.imp_left Eq.symm
  · rintro ⟨p, parent, hp⟩
    exact ⟨p.id, parent.2.2, hp.imp_left Eq.symm⟩

end SubtypeIndex

namespace Builder

/-- What holds of the types of every builder. -/
structure Grown (b : Builder) : Prop where
  lineal : Lineal b.types
  numbered : ∀ t ∈ b.types, t.id < b.nextTypeId

theorem mem_of_type?_eq_some {b : Builder} {name : String} {d : TypeDefinition}
    (h : b.type? name = some d) : d ∈ b.types ∧ d.name = name := by
  refine ⟨List.mem_of_find?_eq_some h, ?_⟩
  simpa using List.find?_some h

theorem ne_of_type?_eq_none {b : Builder} {name : String} (h : b.type? name = none) :
    ∀ t ∈ b.types, t.name ≠ name := by
  intro t ht
  simpa using List.find?_eq_none.1 h t ht

theorem grown_empty : empty.Grown where
  lineal := Lineal.nil
  numbered := by simp [empty]

/-- The types after a draft was accepted. -/
theorem Grown.lineal_withType {b : Builder} (h : b.Grown) {draft : TypeDraft}
    {d : TypeDefinition} (made : b.ResolvesType b.nextTypeId draft d) :
    Lineal (b.withType d).types := by
  obtain ⟨parents, named, ids, supers⟩ := made.parents
  refine .cons parents h.lineal ?_ ?_ ?_ ids supers
  · intro t ht
    rw [made.name_eq]
    exact ne_of_type?_eq_none made.fresh t ht
  · intro t ht
    rw [made.id_eq]
    exact h.numbered t ht
  · intro p hp
    obtain ⟨n, -, hn⟩ := exists_of_forall₂ named hp
    exact (mem_of_type?_eq_some hn).1

theorem Grown.declare {b : Builder} (h : b.Grown) (step : Definition) :
    (b.declare step).2.Grown := by
  rcases b.declare_cases step with ⟨draft, d, -, made, e⟩ | ⟨draft, d, -, -, e⟩ | e | e
  · rw [e]
    refine ⟨h.lineal_withType made, ?_⟩
    intro t ht
    rcases List.mem_cons.1 ht with rfl | ht
    · exact made.id_eq ▸ Nat.lt_succ_self _
    · exact Nat.lt_succ_of_lt (h.numbered t ht)
  · rw [e]
    exact ⟨h.lineal, h.numbered⟩
  · rw [e]
    exact ⟨h.lineal, fun t ht => Nat.lt_succ_of_lt (h.numbered t ht)⟩
  · rw [e]
    exact ⟨h.lineal, h.numbered⟩

theorem grown_declareAll (ds : List Definition) : (empty.declareAll ds).Grown :=
  declareAll_induction grown_empty (fun _ step h => h.declare step) ds

end Builder

end Memberwise
