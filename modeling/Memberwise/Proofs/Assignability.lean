import Memberwise.Proofs.Subtyping

/-!
# Types of slots and types of values

Whether a slot takes a value is answered twice.  A running program asks the value
itself (`ValueType.accepts`): an object brings along the names of the types that
its own type descends from.  Declarations are compared by a registry
(`Registry.isAssignable`), which looks such names up in its index of subtypes.  For
the objects that the registry makes the two answers are the same
(`accepts_iff_isAssignable`).

The ways in which one type fits another (`ValueType.Fits`) are few and compose.  Two
types that fit each other are the same, for objects because lineages have no cycle,
so assignability is a partial order (`isPartialOrder_isAssignable`).
-/

namespace Memberwise

namespace Registry

variable {r : Registry} {s : TypeDefinition} {a b c : String}

/-- A value that is no object, or one that was made from the registry. -/
def Made (r : Registry) (v : Value) : Prop :=
  ∀ o, v = .object o → ∃ name before after, r.instantiate before name = .ok (o, after)

/-- A new object carries the name of a registered type and the names above it. -/
theorem exists_type_of_instantiate {name : String} {before after : Heap} {o : ObjectRef}
    (made : r.instantiate before name = .ok (o, after)) :
    ∃ s ∈ r.types, o.typeName = s.name ∧ o.supertypes = s.supertypes := by
  rw [instantiate] at made
  cases registered : r.type? name with
  | none =>
      rw [registered] at made
      cases made
  | some s =>
      simp only [registered] at made
      split at made
      · cases made
      · cases made
        exact ⟨s, (mem_and_name_of_type? registered).1, rfl, rfl⟩

/-- Subtyping by name holds of registered types only, and is reachability there. -/
theorem Built.isSubtypeByName_iff (h : r.Built) : r.isSubtypeByName a b = true ↔
    ∃ s ∈ r.types, ∃ t ∈ r.types, s.name = a ∧ t.name = b ∧ Reaches r.types s t := by
  constructor
  · intro sub
    cases ha : r.type? a with
    | none => simp [isSubtypeByName, typeId?, ha] at sub
    | some s =>
        cases hb : r.type? b with
        | none => simp [isSubtypeByName, typeId?, hb] at sub
        | some t =>
            obtain ⟨hs, rfl⟩ := mem_and_name_of_type? ha
            obtain ⟨ht, rfl⟩ := mem_and_name_of_type? hb
            rw [h.isSubtypeByName_eq hs ht, h.isSubtype_iff_reaches hs ht] at sub
            exact ⟨s, hs, t, ht, rfl, rfl, sub⟩
  · rintro ⟨s, hs, t, ht, rfl, rfl, path⟩
    rw [h.isSubtypeByName_eq hs ht, h.isSubtype_iff_reaches hs ht]
    exact path

/-- Names that are compared with success are registered. -/
theorem Built.type?_ne_none_of_isSubtypeByName (h : r.Built)
    (sub : r.isSubtypeByName a b = true) : r.type? a ≠ none ∧ r.type? b ≠ none := by
  obtain ⟨s, hs, t, ht, rfl, rfl, -⟩ := h.isSubtypeByName_iff.1 sub
  simp [h.type?_name hs, h.type?_name ht]

theorem Built.isSubtypeByName_antisymm (h : r.Built) (hab : r.isSubtypeByName a b = true)
    (hba : r.isSubtypeByName b a = true) : a = b := by
  obtain ⟨s, hs, t, ht, rfl, rfl, lower⟩ := h.isSubtypeByName_iff.1 hab
  obtain ⟨t', ht', s', hs', named, named', upper⟩ := h.isSubtypeByName_iff.1 hba
  obtain rfl : t' = t := h.lineal.eq_of_name ht' ht named
  obtain rfl : s' = s := h.lineal.eq_of_name hs' hs named'
  exact congrArg TypeDefinition.name (h.lineal.eq_of_reaches lower upper)

theorem Built.isSubtypeByName_trans (h : r.Built) (hab : r.isSubtypeByName a b = true)
    (hbc : r.isSubtypeByName b c = true) : r.isSubtypeByName a c = true := by
  rw [h.isSubtypeByName_iff] at hab hbc ⊢
  obtain ⟨s, hs, t, ht, hsa, htb, lower⟩ := hab
  obtain ⟨t', ht', u, hu, htb', huc, upper⟩ := hbc
  obtain rfl : t = t' := h.lineal.eq_of_name ht ht' (htb.trans htb'.symm)
  exact ⟨s, hs, u, hu, hsa, huc, lower.trans upper⟩

/-- The names that a type is of are its own and those of registered types above it. -/
theorem Built.isA_iff_isSubtypeByName (h : r.Built) (hs : s ∈ r.types) {n : String} :
    s.isA n = true ↔ n = s.name ∨ r.isSubtypeByName s.name n = true := by
  constructor
  · intro inst
    simp only [TypeDefinition.isA, Bool.or_eq_true, beq_iff_eq, List.any_eq_true,
      exists_eq_right] at inst
    rcases inst with rfl | above
    · exact Or.inl rfl
    · obtain ⟨p, hp, rfl, -⟩ := h.lineal.mem_supertypes_exists hs above
      refine Or.inr ?_
      rw [h.isSubtypeByName_eq hs hp, ← h.isA_iff_isSubtype hs hp]
      simp [TypeDefinition.isA, above]
  · rintro (rfl | sub)
    · simp [TypeDefinition.isA]
    · obtain ⟨s', hs', t, ht, same, rfl, path⟩ := h.isSubtypeByName_iff.1 sub
      obtain rfl : s' = s := h.lineal.eq_of_name hs' hs same
      exact (h.lineal.isA_iff_reaches hs ht).2 path

/-- An object that the registry made is of the names that its type is assignable to. -/
theorem Built.isA_of_made (h : r.Built) {o : ObjectRef} (made : r.Made (.object o)) (n : String) :
    o.isA n = (n == o.typeName || r.isSubtypeByName o.typeName n) := by
  obtain ⟨name, before, after, instantiated⟩ := made o rfl
  obtain ⟨s, hs, type, supers⟩ := exists_type_of_instantiate instantiated
  have same : o.isA n = s.isA n := by
    rw [ObjectRef.isA, TypeDefinition.isA, type, supers]
  rw [same, type, Bool.eq_iff_iff, Bool.or_eq_true, beq_iff_eq]
  exact h.isA_iff_isSubtypeByName hs

end Registry

namespace ValueType

variable {isSubtype : String → String → Bool} {t s u : ValueType}

/-- Off objects the two tables are the same, and null is in neither. -/
theorem accepts_eq_isAssignableFrom {v : Value} (present : v ≠ .null)
    (object : ∀ name o, t = .object name → v = .object o →
      o.isA name = (name == o.typeName || isSubtype o.typeName name)) :
    t.accepts v = t.isAssignableFrom isSubtype v.type := by
  cases t with
  | any => rw [any_accepts, isAssignableFrom_any]
  | object name =>
      cases v with
      | null => exact absurd rfl present
      | object o => exact object name o rfl rfl
      | _ => rfl
  | tag name =>
      cases v with
      | null => exact absurd rfl present
      | tag t =>
          rw [Bool.eq_iff_iff]
          simp only [accepts, isAssignableFrom, Value.type, beq_iff_eq, tag.injEq]
          exact eq_comm
      | _ => rfl
  | _ =>
      cases v with
      | null => exact absurd rfl present
      | _ => rfl

/-- The ways in which a slot of the first type can hold what is declared as the second. -/
inductive Fits (isSubtype : String → String → Bool) : ValueType → ValueType → Prop
  | any (s : ValueType) : Fits isSubtype any s
  | same (t : ValueType) : Fits isSubtype t t
  | widened : Fits isSubtype float int
  | items (e : ValueType) : Fits isSubtype (list any) (list e)
  | values (e : ValueType) : Fits isSubtype (map any) (map e)
  | below {a b : String} (sub : isSubtype b a = true) : Fits isSubtype (object a) (object b)

theorem fits_of_isAssignableFrom (h : t.isAssignableFrom isSubtype s = true) :
    Fits isSubtype t s := by
  cases t with
  | any => exact .any s
  | float =>
      cases s with
      | float => exact .same _
      | int => exact .widened
      | _ => cases h
  | list e =>
      cases s with
      | list e' =>
          simp only [isAssignableFrom, Bool.or_eq_true, beq_iff_eq] at h
          rcases h with rfl | rfl
          · exact .items e'
          · exact .same _
      | _ => cases h
  | map e =>
      cases s with
      | map e' =>
          simp only [isAssignableFrom, Bool.or_eq_true, beq_iff_eq] at h
          rcases h with rfl | rfl
          · exact .values e'
          · exact .same _
      | _ => cases h
  | object a =>
      cases s with
      | object b =>
          simp only [isAssignableFrom, Bool.or_eq_true, beq_iff_eq] at h
          rcases h with rfl | sub
          · exact .same _
          · exact .below sub
      | _ => cases h
  | _ =>
      have same : _ = s := beq_iff_eq.1 h
      exact same ▸ .same _

theorem isAssignableFrom_of_fits (h : Fits isSubtype t s) :
    t.isAssignableFrom isSubtype s = true := by
  cases h with
  | any => exact isAssignableFrom_any isSubtype s
  | same => cases t <;> simp [isAssignableFrom]
  | widened => rfl
  | items e => rfl
  | values e => rfl
  | below sub => simp [isAssignableFrom, sub]

theorem Fits.trans
    (chain : ∀ a b c, isSubtype a b = true → isSubtype b c = true → isSubtype a c = true)
    (hts : Fits isSubtype t s) (hsu : Fits isSubtype s u) : Fits isSubtype t u := by
  cases hts with
  | any => exact .any u
  | same => exact hsu
  | widened =>
      cases hsu with
      | same => exact .widened
  | items e =>
      cases hsu with
      | same => exact .items e
      | items e => exact .items e
  | values e =>
      cases hsu with
      | same => exact .values e
      | values e => exact .values e
  | below lower =>
      cases hsu with
      | same => exact .below lower
      | below upper => exact .below (chain _ _ _ upper lower)

theorem Fits.antisymm (acyclic : ∀ a b, isSubtype a b = true → isSubtype b a = true → a = b)
    (hts : Fits isSubtype t s) (hst : Fits isSubtype s t) : t = s := by
  cases hts with
  | any =>
      cases hst with
      | any => rfl
      | same => rfl
  | same => rfl
  | widened => cases hst
  | items e =>
      cases hst with
      | same => rfl
      | items => rfl
  | values e =>
      cases hst with
      | same => rfl
      | values => rfl
  | below lower =>
      cases hst with
      | same => rfl
      | below upper => exact congrArg object (acyclic _ _ upper lower)

end ValueType

theorem Registry.Built.isAssignable_trans {r : Registry} (h : r.Built) {t s u : ValueType}
    (hts : r.isAssignable t s = true) (hsu : r.isAssignable s u = true) :
    r.isAssignable t u = true := by
  have lower := ValueType.fits_of_isAssignableFrom hts
  have upper := ValueType.fits_of_isAssignableFrom hsu
  exact ValueType.isAssignableFrom_of_fits
    (lower.trans (fun _ _ _ => h.isSubtypeByName_trans) upper)

theorem Registry.Built.isPartialOrder_assignable {r : Registry} (h : r.Built) :
    IsPartialOrder ValueType fun s t => r.isAssignable t s = true where
  refl t := ValueType.isAssignableFrom_of_fits (.same t)
  trans _ _ _ hts hut := h.isAssignable_trans hut hts
  antisymm _ _ hts hst :=
    (ValueType.fits_of_isAssignableFrom hst).antisymm
      (fun _ _ => h.isSubtypeByName_antisymm) (ValueType.fits_of_isAssignableFrom hts)

/-- Assignability is a partial order on all types, however nested they are and
whatever objects they name.  An unregistered name fits itself and `any`, and nothing
else fits it. -/
theorem isPartialOrder_isAssignable (ds : List Definition) :
    let r := (Builder.empty.declareAll ds).build
    IsPartialOrder ValueType (fun s t => r.isAssignable t s = true) ∧
      ∀ name, r.type? name = none → ∀ t,
        (r.isAssignable (.object name) t = true ↔ t = .object name) ∧
        (r.isAssignable t (.object name) = true ↔ t = .any ∨ t = .object name) := by
  intro r
  have built : r.Built := Registry.built_build ds
  refine ⟨built.isPartialOrder_assignable, ?_⟩
  intro name unknown t
  constructor
  · constructor
    · intro fits
      cases ValueType.fits_of_isAssignableFrom fits with
      | same => rfl
      | below sub => exact absurd unknown (built.type?_ne_none_of_isSubtypeByName sub).2
    · rintro rfl
      exact ValueType.isAssignableFrom_of_fits (.same _)
  · constructor
    · intro fits
      cases ValueType.fits_of_isAssignableFrom fits with
      | any => exact Or.inl rfl
      | same => exact Or.inr rfl
      | below sub => exact absurd unknown (built.type?_ne_none_of_isSubtypeByName sub).1
    · rintro (rfl | rfl)
      · exact ValueType.isAssignableFrom_of_fits (.any _)
      · exact ValueType.isAssignableFrom_of_fits (.same _)

/-- No cat is there, since there are no felines; a slot for felines takes no dogs. -/
theorem dog_fits_among_no_felines :
    let r := (Builder.empty.declareAll kennel).build
    r.type? "Feline" = none ∧
      r.isAssignable (.object "Feline") (.object "Feline") = true ∧
      r.isAssignable (.object "Feline") (.object "Dog") = false := by
  intro r
  obtain ⟨-, unknown⟩ := isPartialOrder_isAssignable kennel
  have missing : r.type? "Feline" = none := rfl
  refine ⟨missing, (unknown "Feline" missing _).1.2 rfl, ?_⟩
  rw [Bool.eq_false_iff]
  intro fits
  exact absurd ((unknown "Feline" missing _).1.1 fits) (by decide)

/-- A slot takes null and the values whose type is assignable to its own, no more
and no less.  So what a type takes, all types take that it is assignable to. -/
theorem accepts_iff_isAssignable {r : Registry} (h : r.Built) {v : Value} (made : r.Made v) :
    (∀ t : ValueType, t.accepts v = true ↔ v = .null ∨ r.isAssignable t v.type = true) ∧
      ∀ t s : ValueType, r.isAssignable t s = true → s.accepts v = true →
        t.accepts v = true := by
  have agree : ∀ t : ValueType,
      t.accepts v = true ↔ v = .null ∨ r.isAssignable t v.type = true := by
    intro t
    by_cases null : v = .null
    · subst null
      simp [ValueType.accepts_null]
    · have object : ∀ name o, t = .object name → v = .object o →
          o.isA name = (name == o.typeName || r.isSubtypeByName o.typeName name) := by
        rintro name o - rfl
        exact h.isA_of_made made name
      rw [ValueType.accepts_eq_isAssignableFrom null object, Registry.isAssignable]
      simp [null]
  refine ⟨agree, ?_⟩
  intro t s hts taken
  rcases (agree s).1 taken with null | hsv
  · exact (agree t).2 (Or.inl null)
  · exact (agree t).2 (Or.inr (h.isAssignable_trans hts hsv))

/-- A dog is taken where animals are declared, and not where cats would be. -/
theorem dog_fits_among_animals :
    ∃ o after, (Builder.empty.declareAll kennel).build.instantiate .empty "Dog" = .ok (o, after) ∧
      (ValueType.object "Animal").accepts (.object o) = true ∧
      (ValueType.object "Cat").accepts (.object o) = false := by
  have made : (Builder.empty.declareAll kennel).build.Made (.object ⟨0, "Dog", ["Animal"]⟩) := by
    rintro o ⟨⟩
    exact ⟨"Dog", .empty, _, rfl⟩
  obtain ⟨agree, widen⟩ := accepts_iff_isAssignable (Registry.built_build kennel) made
  refine ⟨⟨0, "Dog", ["Animal"]⟩, _, rfl, widen _ (.object "Dog") rfl rfl, ?_⟩
  rw [Bool.eq_false_iff]
  intro taken
  rcases (agree _).1 taken with null | unrelated
  · cases null
  · cases unrelated

end Memberwise
