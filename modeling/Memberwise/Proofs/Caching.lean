import Memberwise.Proofs.Listing

/-!
# What the caches hold

A course of questions is answered through caches that grow on the way.  What it
would have discovered without them is its list of `discoveries`, and what it leaves
in a cache follows from this list alone (`Catalogs.grows_run`): of each type on it
that can be discovered there is one entry, beside those of before, which stay.

An entry is a list in which no name stands twice (`Registry.Built.nodup_names`), so that
the index of places by name finds what a search would find.
-/

namespace Memberwise

namespace Lookup

variable {α β : Type} (registryOf : CatalogRef → Registry)

/-- What is discovered where nothing is kept, in order and with repeats. -/
def discoveries : Lookup α → List (CatalogRef × CacheKey)
  | done _ => []
  | registry d next => discoveries (next (registryOf d))
  | members d key next => (d, key) :: discoveries (next (key.discover (registryOf d)))

theorem discoveries_bind (q : Lookup α) (f : α → Lookup β) :
    (q >>= f).discoveries registryOf =
      q.discoveries registryOf ++ (f (q.answer registryOf)).discoveries registryOf := by
  induction q with
  | done result => rfl
  | registry d next ih => exact ih _
  | members d key next ih => exact congrArg ((d, key) :: ·) (ih _)

theorem discoveries_map (f : α → β) (q : Lookup α) :
    (f <$> q).discoveries registryOf = q.discoveries registryOf := by
  rw [map_eq_pure_bind, discoveries_bind]
  exact List.append_nil _

end Lookup

/-- The entries of the cache of a catalog. -/
def Catalogs.entries (cs : Catalogs) (d : CatalogRef) : List (CacheKey × List Template) :=
  (cs.get d).cache.entries

/-- A look-up keeps the entries and adds that of its key, if discovery gives one
that is not there. -/
theorem MemberCache.entries_members {r : Registry} (c : MemberCache r) (key : CacheKey) :
    c.entries <:+ (c.members key).2.entries ∧
      ∀ e, e ∈ (c.members key).2.entries ↔
        e ∈ c.entries ∨ e.1 = key ∧ e.1.discover r = .ok e.2 := by
  unfold members
  split
  · rename_i ts hit
    refine ⟨List.suffix_refl _, fun e => ⟨Or.inl, ?_⟩⟩
    rintro (there | ⟨rfl, found⟩)
    · exact there
    · rw [c.discover_of_get?_eq_some hit] at found
      have there := mem_of_entryOf?_eq_some hit
      rw [Except.ok.inj found] at there
      exact there
  · split
    · rename_i ts found
      refine ⟨List.suffix_cons _ _, fun e => ?_⟩
      show e ∈ (key, ts) :: c.entries ↔ _
      rw [List.mem_cons]
      constructor
      · rintro (rfl | there)
        · exact Or.inr ⟨rfl, found⟩
        · exact Or.inl there
      · rintro (there | ⟨rfl, again⟩)
        · exact Or.inr there
        · rw [found] at again
          exact Or.inl (Prod.ext rfl (Except.ok.inj again).symm)
    · rename_i x failed
      refine ⟨List.suffix_refl _, fun e => ⟨Or.inl, ?_⟩⟩
      rintro (there | ⟨rfl, found⟩)
      · exact there
      · rw [failed] at found
        cases found

namespace Catalogs

variable {d : CatalogRef} {cs ds es : Catalogs} {asked more : List (CatalogRef × CacheKey)}

theorem nodup_keys (cs : Catalogs) (d : CatalogRef) : ((cs.entries d).map (·.1)).Nodup :=
  (cs.get d).cache.distinct

theorem discover_of_mem_entries {e : CacheKey × List Template} (there : e ∈ cs.entries d) :
    e.1.discover (cs.registry d) = .ok e.2 :=
  (cs.get d).cache.sound e there

/-- Between two states the cache of a catalog has grown by what was asked for. -/
structure Grows (d : CatalogRef) (asked : List (CatalogRef × CacheKey)) (before after : Catalogs) :
    Prop where
  registry : after.registry = before.registry
  size : after.store.size = before.store.size
  kept : before.entries d <:+ after.entries d
  mem_entries : ∀ e, e ∈ after.entries d ↔
    e ∈ before.entries d ∨ (d, e.1) ∈ asked ∧ e.1.discover (before.registry d) = .ok e.2

theorem grows_refl (d : CatalogRef) (cs : Catalogs) : Grows d [] cs cs where
  registry := rfl
  size := rfl
  kept := List.suffix_refl _
  mem_entries := by simp

theorem Grows.trans (first : Grows d asked cs ds) (second : Grows d more ds es) :
    Grows d (asked ++ more) cs es where
  registry := second.registry.trans first.registry
  size := second.size.trans first.size
  kept := first.kept.trans second.kept
  mem_entries := by
    intro e
    rw [second.mem_entries, first.mem_entries, first.registry, List.mem_append, or_assoc,
      or_and_right]

theorem entries_members_self (live : d.id < cs.store.size) (key : CacheKey) :
    (cs.members d key).2.entries d = ((cs.get d).cache.members key).2.entries := by
  have there : (cs.members d key).2.get d = ((cs.get d).members key).2 := by
    simp [members, get, Store.get?_set_self _ _ _ live]
  rw [entries, there]
  rfl

theorem entries_members_of_ne {other : CatalogRef} (ne : d ≠ other) (key : CacheKey) :
    (cs.members other key).2.entries d = cs.entries d := by
  have ids : d.id ≠ other.id := fun e => ne (by cases d; cases other; exact congrArg _ e)
  have there : (cs.members other key).2.get d = cs.get d := by
    simp [members, get, Store.get?_set_of_ne _ _ _ _ ids]
  rw [entries, there, entries]

theorem grows_members (live : d.id < cs.store.size) (other : CatalogRef) (key : CacheKey) :
    Grows d [(other, key)] cs (cs.members other key).2 where
  registry := registry_members cs other key
  size := Store.size_set _ _ _
  kept := by
    by_cases same : d = other
    · subst same
      rw [entries_members_self live]
      exact ((cs.get d).cache.entries_members key).1
    · exact ⟨[], (entries_members_of_ne same key).symm⟩
  mem_entries := by
    intro e
    by_cases same : d = other
    · subst same
      rw [entries_members_self live]
      refine (((cs.get d).cache.entries_members key).2 e).trans ?_
      simp [registry, entries]
    · rw [entries_members_of_ne same]
      simp [same]

/-- What a course of questions leaves in a cache. -/
theorem grows_run {α : Type} (q : Lookup α) (live : d.id < cs.store.size) :
    Grows d (q.discoveries cs.registry) cs (q.run cs).2 := by
  induction q generalizing cs with
  | done result => exact grows_refl d cs
  | registry other next ih => exact ih _ live
  | members other key next ih =>
      have here := grows_members live other key
      have later := @ih (cs.members other key).1 (cs.members other key).2 (here.size ▸ live)
      rw [here.registry] at later
      rw [Lookup.run, Lookup.discoveries, ← members_fst]
      exact here.trans later

end Catalogs

/-- The members that are discovered for a type have different names. -/
theorem Registry.Built.nodup_names {r : Registry} (h : r.Built) {key : CacheKey}
    {ts : List Template} (found : key.discover r = .ok ts) : (ts.map (·.name)).Nodup := by
  obtain ⟨type, deep⟩ := key
  cases type with
  | object name =>
      obtain ⟨line, -, rfl⟩ := discoverObject_eq_ok found
      rw [names_membersAlong]
      exact nodup_distinct _
  | tag name =>
      obtain ⟨d, known, rfl⟩ := discoverTag_eq_ok found
      obtain ⟨ds, rfl⟩ := h
      have params := Builder.nodup_params_declareAll ds d known
      rw [List.map_map]
      exact params
  | _ => cases found

end Memberwise
