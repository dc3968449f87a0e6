import Mathlib.Data.List.Nodup
import Memberwise.Proofs.Contents

/-!
# Simple containers

The items of a list, the entries of a map, the properties of a store and those
objects whose members go by the slots of their names are simple: they hold just what
is read of them, under one name each.  Which members they have depends on their own
contents only, and which names they know on no contents but the length of a list.
-/

namespace Memberwise

/-- The members of a container read what it holds under their names, and write
nowhere else. -/
def Registry.Simple (r : Registry) : Value → Prop
  | .object o => ∀ ts, discoverObject r o.typeName true = .ok ts → ∀ t ∈ ts, t.access.Plain t.name
  | .list _ | .map _ | .properties _ => True
  | _ => False

namespace Registry

variable {registryOf : CatalogRef → Registry} {d : CatalogRef} {h : Heap} {target : Value}
  {name : String} {ts : List Template} {t : Template}

theorem Simple.of_templatesOf (simple : (registryOf d).Simple target)
    (found : (d.templatesOf h target true).answer registryOf = .ok ts) :
    ∀ t ∈ ts, t.access.Plain t.name := by
  intro t ht
  cases target with
  | object o => exact simple ts found t ht
  | list l =>
      cases found
      obtain ⟨i, -, rfl⟩ := List.mem_map.1 ht
      exact .item _
  | map m =>
      cases found
      obtain ⟨key, -, rfl⟩ := List.mem_map.1 ht
      exact .entry key
  | properties p =>
      cases found
      obtain ⟨key, -, rfl⟩ := List.mem_map.1 ht
      exact .property key
  | _ => exact simple.elim

theorem Simple.of_templateOf? (simple : (registryOf d).Simple target)
    (found : (d.templateOf? h target name true).answer registryOf = .ok (some t)) :
    t.access.Plain t.name := by
  rw [CatalogRef.answer_templateOf?] at found
  cases target with
  | object o =>
      obtain ⟨ts, listed, found⟩ := map_eq_ok.1 found
      exact simple ts listed t (of_atPlaceOf? found).1
  | list l =>
      obtain ⟨p, -, rfl⟩ := Option.map_eq_some_iff.1
        (listTemplate?_of_findInList? (Except.ok.inj found))
      exact .item p
  | map m =>
      cases found
      exact .entry name
  | properties p =>
      cases found
      exact .property name
  | _ => exact simple.elim

/-- Objects are simple if all accessors and mutators go by the slots of their names, and
with a mutator there is a field or an accessor. -/
theorem simple_object {r : Registry} (slots : ∀ u ∈ r.types,
      (∀ a ∈ u.accessors, a.getter = Getter.slot a.name) ∧
      ∀ m ∈ u.mutators, m.setter = Setter.slot m.name ∧
        ((u.field? m.name).isSome ∨ (u.accessor? m.name).isSome))
    (o : ObjectRef) : r.Simple (.object o) := by
  intro ts found t ht
  obtain ⟨line, known, rfl⟩ := discoverObject_eq_ok found
  obtain ⟨n, declared, rfl⟩ := mem_membersAlong.1 ht
  have accessor : ∀ a, firstAccessor? line n = some a → a.getter = Getter.slot n := by
    intro a first
    obtain ⟨u, hu, found⟩ := List.exists_of_findSome?_eq_some first
    have name : a.name = n := by simpa using List.find?_some found
    rw [← name]
    exact (slots u (known u hu)).1 a (List.mem_of_find?_eq_some found)
  have mutator : ∀ m, firstMutator? line n = some m → m.setter = Setter.slot n ∧
      ((firstField? line n).isSome ∨ (firstAccessor? line n).isSome) := by
    intro m first
    obtain ⟨u, hu, found⟩ := List.exists_of_findSome?_eq_some first
    have name : m.name = n := by simpa using List.find?_some found
    obtain ⟨setter, reads⟩ := (slots u (known u hu)).2 m (List.mem_of_find?_eq_some found)
    rw [name] at setter reads
    exact ⟨setter, reads.imp (fun field => List.findSome?_isSome_iff.2 ⟨u, hu, field⟩)
      fun accessor => List.findSome?_isSome_iff.2 ⟨u, hu, accessor⟩⟩
  have read : (firstField? line n).isSome ∨ (firstAccessor? line n).isSome := by
    obtain field | accessor | writes := declared_iff.1 declared
    · exact .inl field
    · exact .inr accessor
    · obtain ⟨m, hm⟩ := Option.isSome_iff_exists.1 writes
      exact (mutator m hm).2
  have reader : (Declarations.along line n).reader = some (Getter.slot n) := by
    rw [Declarations.reader_along]
    cases first : firstAccessor? line n with
    | some a => exact congrArg some (accessor a first)
    | none =>
        rw [first] at read
        obtain ⟨f, field⟩ := Option.isSome_iff_exists.1 (read.resolve_right Bool.noConfusion)
        rw [field]
        rfl
  have writer : ∀ path, (Declarations.along line n).writer = some path →
      path.1 = Setter.slot n := by
    intro path found
    cases first : firstMutator? line n with
    | some m =>
        rw [Declarations.writer_along_of_mutator first] at found
        cases found
        exact (mutator m first).1
    | none =>
        cases field : firstField? line n with
        | none =>
            rw [Declarations.writer_along_of_neither first field] at found
            cases found
        | some f =>
            rw [Declarations.writer_along_of_field first field] at found
            obtain ⟨-, same⟩ := Option.ite_none_left_eq_some.1 found
            cases same
            rfl
  show (Access.object _ (Declarations.along line n).reader _).Plain n
  rw [reader]
  exact .object writer

theorem Simple.not_tag (simple : (registryOf d).Simple target) : ∀ tag, target ≠ .tag tag := by
  rintro tag rfl
  exact simple

end Registry

theorem Template.Provided.readable_of_plain {t : Template} (provided : t.Provided)
    (plain : t.access.Plain t.name) : t.readable = true := by
  cases provided with
  | declared line name =>
      generalize reader : (Declarations.along line name).reader = r
      have plain : (Access.object _ (Declarations.along line name).reader _).Plain name := plain
      show (Declarations.along line name).reader.isSome = true
      rw [reader] at plain ⊢
      cases plain
      rfl
  | _ => rfl

namespace CatalogRef

variable {registryOf : CatalogRef → Registry} {d : CatalogRef} {h after : Heap}
  {owner source target : Value} {deep : Bool} {name : String} {ts : List Template}

/-- Another container has the same members as before. -/
theorem templatesOf_of_sameBut (same : h.SameBut owner after) (apart : source.same owner = false) :
    d.templatesOf after source deep = d.templatesOf h source deep := by
  have found : discoverInstance after source = discoverInstance h source := by
    cases source with
    | list l =>
        rw [discoverInstance, discoverInstance, discoverList, discoverList, same.items_eq apart]
    | map m =>
        rw [discoverInstance, discoverInstance, discoverMap, discoverMap, same.entries_eq apart]
    | properties p =>
        rw [discoverInstance, discoverInstance, discoverProperties, discoverProperties,
          same.propertyDict_eq apart]
    | cursor c =>
        rw [discoverInstance, discoverInstance, discoverCursor, discoverCursor, Heap.cursor,
          Heap.cursor, same.cursors]
    | _ => rfl
  rw [templatesOf, templatesOf, found]

/-- A container that is filled anew has members of the same names as before. -/
theorem memberOf?_of_refilled (refilled : h.Refilled target after) :
    d.memberOf? after target name deep = d.memberOf? h target name deep := by
  have found : findInstance after target name = findInstance h target name := by
    cases target with
    | list l => rw [findInstance, findInstance, findInList?, findInList?, refilled.lengths l rfl]
    | _ => rfl
  rw [memberOf?, memberOf?, templateOf?, templateOf?, found]

theorem nodup_names_of_templatesOf (other : ∀ tag, target ≠ .tag tag)
    (found : (d.templatesOf h target deep).answer registryOf = .ok ts) :
    (ts.map (·.name)).Nodup := by
  have listed : ∀ {α : Type} {xs : List α} {f : α → Template}, xs.Nodup →
      Function.Injective (fun x => (f x).name) → ((xs.map f).map (·.name)).Nodup := by
    intro α xs f distinct injective
    rw [List.map_map]
    exact distinct.map injective
  cases target with
  | object o =>
      obtain ⟨line, -, rfl⟩ := discoverObject_eq_ok found
      rw [names_membersAlong]
      exact nodup_distinct _
  | tag s => exact absurd rfl (other s)
  | list l =>
      cases found
      exact listed List.nodup_range Text.Numeral.write_injective
  | map m =>
      cases found
      exact listed (Dict.keys_nodup _) fun _ _ same => same
  | properties p =>
      cases found
      exact listed (Dict.keys_nodup _) fun _ _ same => same
  | cursor c =>
      obtain ⟨count, rfl⟩ := discoverCursor_eq_ok found
      exact listed List.nodup_range fun _ _ same =>
        Nat.succ.inj (Text.Numeral.write_injective same)
  | _ => cases found

end CatalogRef

end Memberwise
