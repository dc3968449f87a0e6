import Memberwise.Proofs.Listing

/-!
# Write paths

What a write path takes is known before it is used: the container must be of its
kind, the value of the type that it accepts, and the place must exist.  Where
none of these fails and no setter does, a write succeeds, and else it fails in
one way for each (`write_of_not_admits`, `write_of_not_placed`).
-/

namespace Memberwise

namespace Access

/-- Whether there is any way to write. -/
def hasWritePath : Access → Bool
  | object _ _ writer => writer.isSome
  | index _ | key _ | property _ => true
  | param _ | column _ => false

/-- Whether the write path takes the value into the container, going by their types. -/
def admits (a : Access) (target value : Value) : Bool :=
  match a, target with
  | object type _ (some (_, accepted)), .object o => o.isA type && accepted.accepts value
  | index _, .list l => l.elementType.accepts value
  | key _, .map m => m.valueType.accepts value
  | property _, .properties _ => ValueType.string.accepts value
  | _, _ => false

/-- Whether the place exists.  Only the ends of an empty list and positions past
the end of one do not. -/
def placed (h : Heap) (a : Access) (target : Value) : Bool :=
  match a, target with
  | index p, .list l =>
    match p.index (h.items l).length with
    | .ok i => i < (h.items l).length
    | .error _ => false
  | _, _ => true

/-- The setter of the write path fails at the value. -/
def SetterFails (h : Heap) (a : Access) (target value : Value) : Prop :=
  ∃ type reader setter accepted o e, a = object type reader (some (setter, accepted)) ∧
    target = .object o ∧ setter h (h.slots o) value = .error e

variable {h : Heap} {a : Access} {target value : Value}

theorem not_setterFails_slot {type name : String} {reader : Option Getter}
    {accepted : ValueType} :
    ¬(object type reader (some (Setter.slot name, accepted))).SetterFails h target value := by
  rintro ⟨_, _, _, _, o, e, same, -, failed⟩
  cases same
  cases failed

theorem write_of_not_admits (path : a.hasWritePath = true) (place : a.placed h target = true)
    (refused : a.admits target value = false) : ∃ expected actual,
      a.write h target value = .error (.access (.typeMismatch expected actual)) := by
  cases a with
  | object type reader writer =>
      obtain ⟨⟨setter, accepted⟩, rfl⟩ := Option.isSome_iff_exists.1 path
      cases target with
      | object o =>
          simp only [admits, Bool.and_eq_false_iff] at refused
          by_cases inst : o.isA type = true
          · have unfit : accepted.accepts value = false := refused.resolve_left (by simp [inst])
            refine ⟨accepted.display, value.type.display, ?_⟩
            simp [write, writeObject, inst, unfit, Heap.mismatch]
          · refine ⟨type, (Value.object o).type.display, ?_⟩
            simp [write, writeObject, inst, wrongObject]
      | _ => exact ⟨_, _, rfl⟩
  | param name => cases path
  | index position =>
      cases target with
      | list l =>
          have unfit : l.elementType.accepts value = false := refused
          refine ⟨l.elementType.display, value.type.display, ?_⟩
          simp only [placed] at place
          simp only [write, writeItem]
          cases found : position.index (h.items l).length with
          | ok i => simp [Except.bind, Heap.setItem, unfit, Heap.mismatch, mapError_error]
          | error e => simp [found] at place
      | _ => exact ⟨_, _, rfl⟩
  | key name =>
      cases target with
      | map m =>
          have unfit : m.valueType.accepts value = false := refused
          refine ⟨m.valueType.display, value.type.display, ?_⟩
          simp [write, Heap.insertEntry, unfit, Heap.mismatch, mapError_error]
      | _ => exact ⟨_, _, rfl⟩
  | property name =>
      cases target with
      | properties p =>
          cases value with
          | null => cases refused
          | string text => cases refused
          | _ => exact ⟨_, _, rfl⟩
      | _ => exact ⟨_, _, rfl⟩
  | column column => cases path

theorem write_of_not_placed (value : Value) (missing : a.placed h target = false) :
    ∃ e, a.write h target value = .error (.access e) := by
  cases a with
  | index position =>
      cases target with
      | list l =>
          simp only [placed] at missing
          simp only [write, writeItem]
          cases found : position.index (h.items l).length with
          | error e => exact ⟨e, rfl⟩
          | ok i =>
              have past : ¬i < (h.items l).length := by simpa [found] using missing
              by_cases fits : l.elementType.accepts value = true
              · exact ⟨.indexOutOfBounds i (h.items l).length, by
                  simp [Except.bind, Heap.setItem, fits, past, mapError_error]⟩
              · exact ⟨Heap.mismatch l.elementType value, by
                  simp [Except.bind, Heap.setItem, fits, mapError_error]⟩
      | _ => cases missing
  | _ => cases missing

theorem write_of_admits (fits : a.admits target value = true) (place : a.placed h target = true)
    (works : ¬a.SetterFails h target value) : ∃ after, a.write h target value = .ok after := by
  cases a with
  | object type reader writer =>
      cases writer with
      | none => cases fits
      | some path =>
          cases target with
          | object o =>
              obtain ⟨inst, accepted⟩ := Bool.and_eq_true_iff.1 fits
              cases set : path.1 h (h.slots o) value with
              | ok slots =>
                  refine ⟨h.setSlots o slots, ?_⟩
                  simp [write, writeObject, inst, accepted, set, Except.map]
              | error e =>
                  exact absurd ⟨type, reader, path.1, path.2, o, e, rfl, rfl, set⟩ works
          | _ => cases fits
  | index position =>
      cases target with
      | list l =>
          have accepted : l.elementType.accepts value = true := fits
          simp only [placed] at place
          simp only [write, writeItem]
          cases found : position.index (h.items l).length with
          | error e => simp [found] at place
          | ok i =>
              have within : i < (h.items l).length := by simpa [found] using place
              refine ⟨h.setItems l ((h.items l).set i value), ?_⟩
              simp [Except.bind, Heap.setItem, accepted, within, mapError_ok]
      | _ => cases fits
  | key name =>
      cases target with
      | map m =>
          have accepted : m.valueType.accepts value = true := fits
          refine ⟨h.setEntries m ((h.entries m).insert name value), ?_⟩
          simp [write, Heap.insertEntry, accepted, mapError_ok]
      | _ => cases fits
  | property name =>
      cases target with
      | properties p =>
          cases value with
          | null => exact ⟨_, rfl⟩
          | string text => exact ⟨_, rfl⟩
          | _ => cases fits
      | _ => cases fits
  | _ => cases fits

end Access

/-- A member that is said to be writable has a write path. -/
def Template.Honest (t : Template) : Prop :=
  t.writable = true → t.access.hasWritePath = true

theorem Template.Provided.honest {t : Template} (provided : t.Provided) : t.Honest := by
  cases provided with
  | declared line name => exact fun writable => writable
  | param tag p => exact fun writable => Bool.noConfusion writable
  | item element named => exact fun _ => rfl
  | entry value key => exact fun _ => rfl
  | property key => exact fun _ => rfl
  | column name => exact fun writable => Bool.noConfusion writable

end Memberwise
