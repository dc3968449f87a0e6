import Memberwise.Proofs.Returning
import Memberwise.Proofs.Views

/-!
# New objects

A new object has a slot for each field along its lineage.  Slots are filled from the
ancestors down, so that the last field of a name is the nearest one, which is also the one
that members are merged with (`Registry.Built.lastField?_lineage`).
-/

namespace Memberwise

namespace Registry

variable {r : Registry} {s : TypeDefinition}

/-- The last field along a lineage, ancestors first, is the one that members are merged
with. -/
theorem Built.lastField?_lineage (built : r.Built) (hs : s ∈ r.types) (name : String) :
    lastField? ((r.lineage s.name).reverse.flatMap (·.fields)) name =
      (Declarations.along (r.lineage s.name) name).field.map (·.declaration) := by
  rw [Declarations.field_along]
  exact built.find?_fields_lineage hs name

end Registry

/-- An object is made of any type that is not abstract.  It is new, what the heap held stays as
it is, and its slots are those of the fields along the lineage.  Each starts as the field says
that deep discovery merges into the member of the name.  A container that is made for one
is none of those that were there, and none of what the other slots start with. -/
theorem instances_start_as_declared {r : Registry} (built : r.Built) {s : TypeDefinition}
    (hs : s ∈ r.types) (concrete : s.isAbstract = false) (h : Heap) :
    let line := r.lineage s.name
    ∃ o after ts, r.instantiate h s.name = .ok (o, after) ∧
      discoverObject r s.name true = .ok ts ∧ o.InstanceOf s ∧
      ¬h.Live (.object o) ∧ after.Live (.object o) ∧ h.Within after ∧
      (∀ n, ((after.slots o).get? n).isSome ↔ ∃ t ∈ line, ∃ f ∈ t.fields, f.name = n) ∧
      ∀ n v, (after.slots o).get? n = some v → ∃ x,
        (Declarations.along line n).field = some x ∧ (Declarations.along line n).merge n ∈ ts ∧
        x.declaration.StartsAs h after v ∧
        (x.declaration.ownsContainer = true → (∀ w, h.Live w → v.same w = false) ∧
          ∀ n' v' x', n ≠ n' → (after.slots o).get? n' = some v' →
            (Declarations.along line n').field = some x' →
            (∀ d ∈ x'.declaration.initial, h.Live d) → v.same v' = false) := by
  intro line
  obtain ⟨o, after, made⟩ := built.exists_instantiate hs concrete h
  obtain ⟨new, there, filled⟩ := Registry.filled_of_instantiate made
  have picked := built.lastField?_lineage hs
  refine ⟨o, after, membersAlong line, made, built.discoverObject_eq hs true,
    Registry.instanceOf_of_instantiate built hs made, new, there, filled.within, ?_, ?_⟩
  · intro n
    rw [filled.isSome_get? n]
    simp only [List.mem_flatMap, List.mem_reverse]
    constructor
    · rintro ⟨f, ⟨t, ht, hf⟩, name⟩
      exact ⟨t, ht, f, hf, name⟩
    · rintro ⟨t, ht, f, hf, name⟩
      exact ⟨f, ⟨t, ht, hf⟩, name⟩
  · intro n v slot
    obtain ⟨f, last⟩ := filled.exists_lastField? slot
    obtain ⟨x, declared, rfl⟩ := Option.map_eq_some_iff.1 ((picked n).symm.trans last)
    refine ⟨x, declared, ?_, filled.starts last slot, ?_⟩
    · have first : firstField? line n = some x.declaration := by
        rw [← Declarations.field_along, declared, Option.map_some]
      exact mem_membersAlong.2 ⟨n, declared_iff.2 (.inl (by rw [first]; rfl)), rfl⟩
    · intro own
      refine ⟨fun w live => ?_, ?_⟩
      · exact (Heap.same_eq_false_of_live
          ((filled.starts last slot).makesEmpty own).not_live live).1
      · intro n' v' x' differ slot' declared' live
        have last' := (picked n').trans (congrArg (Option.map _) declared')
        exact filled.apart differ last slot last' slot' own live

/-- Papers and legs, where a type below declares the legs again and adds notes. -/
def furniture : List Definition :=
  [.type (((TypeDraft.plain "Desk").withField
      ⟨"papers", .list .string, [], false, none, true⟩).withField
      ⟨"legs", .int, [], false, some (.int 4), false⟩),
   .type ((((TypeDraft.plain "Lectern").extending "Desk").withField
      ⟨"legs", .int, [], false, some (.int 1), false⟩).withField
      ⟨"notes", .list .string, [], false, none, true⟩)]

def furnitureRegistry : Registry := (Builder.empty.declareAll furniture).build

/-- A heap with a list of strings. -/
def draftHeap : Heap := (Heap.empty.newList .string [.string "draft"]).2

theorem lectern_starts_on_one_leg :
    ∃ o after, furnitureRegistry.instantiate draftHeap "Lectern" = .ok (o, after) ∧
      draftHeap.Within after ∧ after.slot o "legs" = .int 1 ∧
      ∃ papers notes, after.slot o "papers" = .list papers ∧ after.slot o "notes" = .list notes ∧
        after.items papers = [] ∧ after.items notes = [] ∧
        (Value.list papers).same (.list notes) = false ∧
        (Value.list papers).same (.list ⟨0, .string⟩) = false := by
  obtain ⟨o, after, ts, made, -, -, -, -, within, -, starts⟩ :=
    instances_start_as_declared (r := furnitureRegistry) ⟨_, rfl⟩ List.mem_cons_self rfl draftHeap
  cases made
  obtain ⟨x, declared, -, -, apart⟩ := starts "papers" _ rfl
  cases declared
  obtain ⟨fresh, apart⟩ := apart rfl
  refine ⟨_, _, rfl, within, rfl, _, _, rfl, rfl, rfl, rfl, ?_, ?_⟩
  · exact apart "notes" _ _ (by decide) rfl rfl fun d given => nomatch given
  · exact fresh (.list ⟨0, .string⟩) (Nat.zero_lt_succ 0)

end Memberwise
