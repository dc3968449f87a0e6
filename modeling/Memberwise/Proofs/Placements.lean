import Mathlib.Data.Set.Card
import Memberwise.Proofs.Reports
import Memberwise.Proofs.Walks

/-!
# Reports and positions

A position is the course of names that leads from the validated container to a
member.  A report knows it as a path only, and merges what stands under one path.
So its elements are as many as the positions at which something was found, and each
says what was found at its own, as long as no two of these positions have one path
(`Report.MadeOf.separates_iff_injOn`).
-/

namespace Memberwise

/-- What was found: at which position which member has which value, and a tag that
it violates. -/
abbrev Placement := List String → Member → Value → Tag → Prop

/-- The positions at which something was found. -/
def Placement.positions (P : Placement) : Set (List String) :=
  {names | ∃ m v t, P names m v t}

/-- Of one position there is one member with one value, and one tag of each name. -/
structure Placement.Definite (P : Placement) : Prop where
  place : ∀ {names m m' v v' t t'}, P names m v t → P names m' v' t' → m = m' ∧ v = v'
  tag : ∀ {names m v t t'}, P names m v t → P names m v t' → t.name = t'.name → t = t'

namespace InvalidElement

variable {P : Placement} {names : List String} {el other : InvalidElement}

/-- The element says what was found at a position, and nothing else. -/
structure Records (P : Placement) (names : List String) (el : InvalidElement) : Prop where
  path : el.path = joinPath names
  found : ∀ m v t, P names m v t ↔ m = el.member ∧ v = el.value ∧ el.tag? t.name = some t
  named : ∀ name t, el.tag? name = some t → t.name = name

/-- The member and value of the element were found at a position of its path, and so
were its tags, each at some position. -/
structure Traced (P : Placement) (el : InvalidElement) : Prop where
  place : ∃ names t, el.path = joinPath names ∧ P names el.member el.value t
  tags : ∀ name t, el.tag? name = some t →
    t.name = name ∧ ∃ names m v, el.path = joinPath names ∧ P names m v t

theorem member_violateAll (e : InvalidElement) (ts : List Tag) :
    (e.violateAll ts).member = e.member := by
  induction ts generalizing e with
  | nil => rfl
  | cons t ts ih => exact ih (e.violate t)

theorem tag?_violateAll {e : InvalidElement} {ts : List Tag} {name : String} {t : Tag}
    (h : (e.violateAll ts).tag? name = some t) :
    e.tag? name = some t ∨ t ∈ ts ∧ t.name = name := by
  induction ts generalizing e with
  | nil => exact Or.inl h
  | cons s ts ih =>
      rcases ih h with h | ⟨h, named⟩
      · rcases Dict.get?_insertNew_eq_some h with h | ⟨rfl, rfl⟩
        · exact Or.inl h
        · exact Or.inr ⟨List.mem_cons_self, rfl⟩
      · exact Or.inr ⟨List.mem_cons_of_mem _ h, named⟩

/-- The element of a member in its own container is traced to the name of the member. -/
theorem traced_ofMember {m : Member} {v : Value} {ts : List Tag} (some : ts ≠ [])
    (found : ∀ t ∈ ts, P [m.name] m v t) : (ofMember m v ts).Traced P := by
  have path : (ofMember m v ts).path = joinPath [m.name] := path_violateAll _ _
  refine ⟨?_, ?_⟩
  · obtain ⟨t, ht⟩ := List.exists_mem_of_ne_nil ts some
    refine ⟨[m.name], t, path, ?_⟩
    rw [ofMember, member_violateAll, value_violateAll]
    exact found t ht
  · intro name t h
    rcases tag?_violateAll h with h | ⟨ht, named⟩
    · cases h
    · exact ⟨named, [m.name], m, v, path, found t ht⟩

/-- An element stays traced when it is seen from a container further outside. -/
theorem Traced.under {Q : Placement} {lead : String} (traced : el.Traced P)
    (further : ∀ {names m v t}, P names m v t → names ≠ [] ∧ Q (lead :: names) m v t) :
    (el.under lead).Traced Q := by
  have path : ∀ {names}, el.path = joinPath names → names ≠ [] →
      (el.under lead).path = joinPath (lead :: names) := by
    intro names same some
    rw [path_under, same, joinPath_cons some]
  refine ⟨?_, ?_⟩
  · obtain ⟨names, t, same, found⟩ := traced.place
    obtain ⟨some, found⟩ := further found
    exact ⟨lead :: names, t, path same some, found⟩
  · intro name t h
    obtain ⟨named, names, m, v, same, found⟩ := traced.tags name t h
    obtain ⟨some, found⟩ := further found
    exact ⟨named, lead :: names, m, v, path same some, found⟩

theorem Traced.merge (traced : el.Traced P) (traced' : other.Traced P)
    (same : el.path = other.path) : (el.merge other).Traced P := by
  refine ⟨traced.place, ?_⟩
  intro name t h
  rcases Dict.get?_merge_eq_some h with h | h
  · exact traced.tags name t h
  · obtain ⟨named, names, m, v, path, found⟩ := traced'.tags name t h
    exact ⟨named, names, m, v, same.trans path, found⟩

end InvalidElement

namespace Report

variable {P : Placement} {r : Report} {el el' : InvalidElement} {names : List String}

/-- Each element of the report says what was found at one position, and there is one
element for each of them. -/
structure Separates (r : Report) (P : Placement) : Prop where
  recorded : ∀ names ∈ P.positions, ∃! el, el ∈ r.elements ∧ el.Records P names
  placed : ∀ el ∈ r.elements, ∃! names, names ∈ P.positions ∧ el.Records P names
  size : r.size = P.positions.ncard

theorem Keyed.eq_of_path (keyed : r.Keyed) (h : el ∈ r.elements) (h' : el' ∈ r.elements)
    (same : el.path = el'.path) : el = el' := by
  obtain ⟨p, found⟩ := mem_elements.1 h
  obtain ⟨p', found'⟩ := mem_elements.1 h'
  rw [← keyed p el found, same, keyed p' el' found'] at found
  exact Option.some.inj (found.symm.trans found')

theorem Keyed.mem_paths (keyed : r.Keyed) {path : String} :
    path ∈ r.paths ↔ ∃ el ∈ r.elements, el.path = path := by
  rw [paths, Dict.keys, List.mem_map]
  constructor
  · rintro ⟨⟨p, el⟩, stored, rfl⟩
    have found := Pairs.get?_of_mem r.invalid.ascending stored
    exact ⟨el, mem_elements.2 ⟨p, found⟩, keyed p el found⟩
  · rintro ⟨el, h, rfl⟩
    obtain ⟨p, found⟩ := mem_elements.1 h
    exact ⟨(p, el), Pairs.mem_of_get? found, (keyed p el found).symm⟩

/-- The report was made up of what was found: its elements are traced to it, and
nothing is left out. -/
structure MadeOf (r : Report) (P : Placement) : Prop where
  keyed : r.Keyed
  complete : ∀ {names m v t}, P names m v t → (joinPath names, t.name) ∈ r.findings
  traced : ∀ el ∈ r.elements, el.Traced P

namespace MadeOf

/-- The paths of the report are those of the positions. -/
theorem image_positions (made : r.MadeOf P) :
    joinPath '' P.positions = {path | path ∈ r.paths} := by
  ext path
  rw [Set.mem_ofPred_eq, made.keyed.mem_paths]
  constructor
  · rintro ⟨names, ⟨m, v, t, found⟩, rfl⟩
    obtain ⟨el, h, same, -⟩ := made.complete found
    exact ⟨el, h, same⟩
  · rintro ⟨el, h, rfl⟩
    obtain ⟨names, t, same, found⟩ := (made.traced el h).place
    exact ⟨names, ⟨_, _, t, found⟩, same.symm⟩

theorem size_eq_ncard (made : r.MadeOf P) (apart : Set.InjOn joinPath P.positions) :
    r.size = P.positions.ncard := by
  have paths : r.paths.Nodup := r.invalid.keys_nodup
  rw [← apart.ncard_image, made.image_positions, ← List.coe_toFinset, Set.ncard_coe_finset,
    List.toFinset_card_of_nodup paths]
  exact (List.length_map _).symm

/-- If no two positions have one path, the element of a path says what was found there. -/
theorem records (made : r.MadeOf P) (definite : P.Definite)
    (apart : Set.InjOn joinPath P.positions) (h : el ∈ r.elements) (there : names ∈ P.positions)
    (path : el.path = joinPath names) : el.Records P names := by
  have own : ∀ {names' m v t}, P names' m v t → el.path = joinPath names' → names' = names := by
    intro names' m v t found same
    exact apart ⟨m, v, t, found⟩ there (same.symm.trans path)
  have traced := made.traced el h
  obtain ⟨names', s, same, place⟩ := traced.place
  cases own place same
  refine ⟨path, ?_, fun name t stored => (traced.tags name t stored).1⟩
  intro m v t
  constructor
  · intro found
    obtain ⟨rfl, rfl⟩ := definite.place found place
    refine ⟨rfl, rfl, ?_⟩
    obtain ⟨el', h', same', violated⟩ := made.complete found
    cases made.keyed.eq_of_path h' h (same'.trans path.symm)
    obtain ⟨t', stored⟩ := Option.isSome_iff_exists.1 violated
    obtain ⟨named, names', m', v', same', found'⟩ := traced.tags _ _ stored
    cases own found' same'
    obtain ⟨rfl, rfl⟩ := definite.place found' found
    cases definite.tag found' found named
    exact stored
  · rintro ⟨rfl, rfl, stored⟩
    obtain ⟨-, names', m', v', same', found'⟩ := traced.tags _ _ stored
    cases own found' same'
    obtain ⟨rfl, rfl⟩ := definite.place found' place
    exact found'

/-- A report separates what was found exactly if no two positions have one path. -/
theorem separates_iff_injOn (made : r.MadeOf P) (definite : P.Definite) :
    r.Separates P ↔ Set.InjOn joinPath P.positions := by
  constructor
  · intro separates names there names' there' same
    obtain ⟨el, ⟨h, records⟩, -⟩ := separates.recorded names there
    obtain ⟨el', ⟨h', records'⟩, -⟩ := separates.recorded names' there'
    cases made.keyed.eq_of_path h h' (records.path.trans (same.trans records'.path.symm))
    exact (separates.placed el h).unique ⟨there, records⟩ ⟨there', records'⟩
  · intro apart
    refine ⟨?_, ?_, made.size_eq_ncard apart⟩
    · rintro names ⟨m, v, t, found⟩
      obtain ⟨el, h, path, -⟩ := made.complete found
      refine ⟨el, ⟨h, made.records definite apart h ⟨m, v, t, found⟩ path⟩, ?_⟩
      rintro el' ⟨h', records'⟩
      exact made.keyed.eq_of_path h' h (records'.path.trans path.symm)
    · intro el h
      obtain ⟨names, t, path, found⟩ := (made.traced el h).place
      have there : names ∈ P.positions := ⟨_, _, t, found⟩
      refine ⟨names, ⟨there, made.records definite apart h there path⟩, ?_⟩
      rintro names' ⟨there', records'⟩
      exact apart there' there (records'.path.symm.trans path)

end MadeOf

end Report

end Memberwise
