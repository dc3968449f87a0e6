import Memberwise.Proofs.Contents
import Memberwise.Proofs.Copying

/-!
# Assignments one after another

After assignments to members of one container each place holds what the last
assignment to it leaves there, and what it has held before if there is none
(`Assignment.at?_of_makeAll`).  So making all of them again changes nothing, though
single ones may (`Assignment.makeAll_again`).
-/

namespace Memberwise

/-- A value for a member of the destination, from a member of the source. -/
structure Assignment where
  source : Member
  destination : Member
  value : Value

namespace Assignment

/-- The last of some assignments to a place. -/
def lastAt? (h : Heap) (destination : Value) (assigned : List Assignment) (place : Option Place) :
    Option Assignment :=
  assigned.reverse.find? fun a => decide (a.destination.place? h destination = place)

/-- Makes assignments one after another, as long as they succeed. -/
def makeAll (registryOf : CatalogRef → Registry) : List Assignment → Heap → Except MemberError Heap
  | [], h => .ok h
  | a :: rest, h => do
    let h ← (a.destination.write h a.value).answer registryOf
    makeAll registryOf rest h

/-- The destination keeps what is assigned. -/
def Sound (destination : Value) (a : Assignment) : Prop :=
  ∃ t : Template, a.destination = .ofTemplate t (some destination) ∧ t.writable = true ∧
    t.access.Stores t.name

variable {registryOf : CatalogRef → Registry} {base h mid after : Heap} {destination : Value}
  {a : Assignment} {assigned : List Assignment} {place : Option Place}

theorem lastAt?_cons : lastAt? h destination (a :: assigned) place =
    (lastAt? h destination assigned place).or
      (if a.destination.place? h destination = place then some a else none) := by
  rw [lastAt?, List.reverse_cons, List.find?_append, List.find?_singleton]
  simp only [decide_eq_true_eq]
  rfl

theorem of_lastAt? (last : lastAt? h destination assigned place = some a) :
    a ∈ assigned ∧ a.destination.place? h destination = place := by
  refine ⟨List.mem_reverse.1 (List.mem_of_find?_eq_some last), ?_⟩
  simpa using List.find?_some last

theorem place?_of_refilled (refilled : h.Refilled destination after) (sound : a.Sound destination) :
    a.destination.place? after destination = a.destination.place? h destination := by
  obtain ⟨t, bound, -, -⟩ := sound
  rw [bound]
  exact Access.place?_of_refilled refilled

theorem Sound.write_eq_ok_iff {t : Template}
    (bound : a.destination = .ofTemplate t (some destination)) (writable : t.writable = true) :
    (a.destination.write h a.value).answer registryOf = .ok after ↔
      t.access.Writes h a.value destination after := by
  rw [bound, Copier.answer_write writable, mapError_eq_ok, Access.write_eq_ok_iff]

/-- What one assignment does to the places of the destination. -/
theorem Sound.step (sound : a.Sound destination) (live : h.Live destination)
    (written : (a.destination.write h a.value).answer registryOf = .ok after) :
    h.Refilled destination after ∧ ∃ p, a.destination.place? h destination = some p ∧
      after.at? destination p = p.kept a.value ∧
      ∀ q, q ≠ p → after.at? destination q = h.at? destination q := by
  obtain ⟨t, bound, writable, stores⟩ := sound
  have writes := (write_eq_ok_iff bound writable).1 written
  obtain ⟨p, place⟩ := writes.exists_place t.name
  refine ⟨writes.refilled live, p, ?_, writes.at?_self live stores place, ?_⟩
  · rw [bound]
    exact place
  · intro q ne
    exact writes.at?_of_ne live stores place ne

/-- An assignment that has been made once can be made again. -/
theorem Sound.again (sound : a.Sound destination)
    (written : (a.destination.write h a.value).answer registryOf = .ok after)
    (refilled : h.Refilled destination mid) :
    ∃ later, (a.destination.write mid a.value).answer registryOf = .ok later := by
  obtain ⟨t, bound, writable, stores⟩ := sound
  obtain ⟨later, writes⟩ := ((write_eq_ok_iff bound writable).1 written).again stores refilled
  exact ⟨later, (write_eq_ok_iff bound writable).2 writes⟩

theorem makeAll_cons_eq_ok : makeAll registryOf (a :: assigned) h = .ok after ↔
    ∃ mid, (a.destination.write h a.value).answer registryOf = .ok mid ∧
      makeAll registryOf assigned mid = .ok after :=
  bind_eq_ok

section Runs

variable (sound : ∀ a ∈ assigned, a.Sound destination)

include sound

theorem refilled_of_makeAll (live : h.Live destination)
    (made : makeAll registryOf assigned h = .ok after) : h.Refilled destination after := by
  induction assigned generalizing h with
  | nil =>
      cases made
      exact .refl _ _
  | cons a rest ih =>
      obtain ⟨head, tail⟩ := List.forall_mem_cons.1 sound
      obtain ⟨mid, written, made⟩ := makeAll_cons_eq_ok.1 made
      obtain ⟨first, -⟩ := head.step live written
      exact first.trans (ih tail (first.others.live live) made)

/-- Each place holds what the last assignment to it leaves there, and the others what
they have held before. -/
theorem at?_of_makeAll (live : h.Live destination) (refilled : base.Refilled destination h)
    (made : makeAll registryOf assigned h = .ok after) (p : Place) :
    after.at? destination p =
      match lastAt? base destination assigned (some p) with
      | some a => p.kept a.value
      | none => h.at? destination p := by
  induction assigned generalizing h with
  | nil =>
      cases made
      rfl
  | cons a rest ih =>
      obtain ⟨head, tail⟩ := List.forall_mem_cons.1 sound
      obtain ⟨mid, written, made⟩ := makeAll_cons_eq_ok.1 made
      obtain ⟨first, q, place, kept, others⟩ := head.step live written
      rw [ih tail (first.others.live live) (refilled.trans first) made, lastAt?_cons]
      cases lastAt? base destination rest (some p) with
      | some b => rfl
      | none =>
          rw [← place?_of_refilled refilled head, place, Option.none_or]
          by_cases same : q = p
          · rw [if_pos (congrArg some same), ← same]
            exact kept
          · rw [if_neg fun h => same (Option.some.inj h)]
            exact others p fun h => same h.symm

/-- Each of the assignments is made at some time. -/
theorem exists_write_of_makeAll (live : h.Live destination)
    (made : makeAll registryOf assigned h = .ok after) (ha : a ∈ assigned) :
    ∃ mid later, h.Refilled destination mid ∧
      (a.destination.write mid a.value).answer registryOf = .ok later := by
  induction assigned generalizing h with
  | nil => cases ha
  | cons b rest ih =>
      obtain ⟨head, tail⟩ := List.forall_mem_cons.1 sound
      obtain ⟨next, written, made⟩ := makeAll_cons_eq_ok.1 made
      rcases List.mem_cons.1 ha with rfl | ha
      · exact ⟨h, next, .refl _ _, written⟩
      · obtain ⟨first, -⟩ := head.step live written
        obtain ⟨mid, later, refilled, written⟩ := ih tail (first.others.live live) made ha
        exact ⟨mid, later, first.trans refilled, written⟩

theorem exists_place_of_makeAll (live : h.Live destination)
    (made : makeAll registryOf assigned h = .ok after) (ha : a ∈ assigned) :
    ∃ p, a.destination.place? h destination = some p := by
  obtain ⟨mid, later, refilled, written⟩ := exists_write_of_makeAll sound live made ha
  obtain ⟨-, p, place, -⟩ := (sound a ha).step (refilled.others.live live) written
  exact ⟨p, (place?_of_refilled refilled (sound a ha)).symm.trans place⟩

theorem exists_makeAll_of_refilled (live : h.Live destination)
    (made : makeAll registryOf assigned h = .ok after) (refilled : h.Refilled destination mid) :
    ∃ later, makeAll registryOf assigned mid = .ok later := by
  -- The two runs go side by side, and their heaps differ in the destination only.
  induction assigned generalizing h mid with
  | nil => exact ⟨mid, rfl⟩
  | cons a rest ih =>
      obtain ⟨head, tail⟩ := List.forall_mem_cons.1 sound
      obtain ⟨next, written, made⟩ := makeAll_cons_eq_ok.1 made
      obtain ⟨next', again⟩ := head.again written refilled
      obtain ⟨first, -⟩ := head.step live written
      obtain ⟨first', -⟩ := head.step (refilled.others.live live) again
      obtain ⟨later, made'⟩ := ih tail (first.others.live live) made
        (first.symm.trans (refilled.trans first'))
      exact ⟨later, makeAll_cons_eq_ok.2 ⟨next', again, made'⟩⟩

/-- Assignments that have been made can be made again, which changes nothing. -/
theorem makeAll_again (live : h.Live destination)
    (made : makeAll registryOf assigned h = .ok after) :
    makeAll registryOf assigned after = .ok after := by
  have refilled := refilled_of_makeAll sound live made
  have live' := refilled.others.live live
  obtain ⟨later, again⟩ := exists_makeAll_of_refilled sound live made refilled
  have held : ∀ p, later.at? destination p = after.at? destination p := by
    intro p
    rw [at?_of_makeAll sound live' refilled again p]
    have first := at?_of_makeAll sound live (.refl destination h) made p
    cases last : lastAt? h destination assigned (some p) with
    | some a =>
        rw [last] at first
        exact first.symm
    | none => rfl
  rw [again, Heap.eq_of_at? (refilled_of_makeAll sound live' again).others live' held]

end Runs

end Assignment

end Memberwise
