import Memberwise.Copy.Transform
import Memberwise.Proofs.Assignments
import Memberwise.Proofs.Selecting
import Memberwise.Proofs.Storage

/-!
# What a copy does

Between two simple containers a copy comes down to a list of assignments, which is
settled before the first of them is made: what is written into the destination
changes neither the values of the source nor which members there are
(`Copier.Plain.planned_of_refilled`).  Afterwards each place of the destination
holds the value of the last assignment to it, and making all of them again changes
nothing.  In an object, a map or a property store every name has a place of its own.
In a list several names stand for one place, and there the last one counts.
-/

namespace Memberwise

/-- What a transform makes of a value does not depend on the contents of a container. -/
def Transform.Ignores (f : Transform) (owner : Value) : Prop :=
  ∀ h after v, h.SameBut owner after → f after v = f h v

/-- What is made of some elements of a list comes from them in order. -/
theorem map_filterMap_sublist {α β : Type} {f : α → Option β} {g : β → α} {xs : List α}
    (back : ∀ x ∈ xs, ∀ y, f x = some y → g y = x) : ((xs.filterMap f).map g).Sublist xs := by
  induction xs with
  | nil => exact .refl _
  | cons x xs ih =>
      obtain ⟨head, tail⟩ := List.forall_mem_cons.1 back
      cases made : f x with
      | none =>
          rw [List.filterMap_cons_none made]
          exact (ih tail).cons x
      | some y =>
          rw [List.filterMap_cons_some made, List.map_cons, head y made]
          exact (ih tail).cons_cons x

namespace Copier

variable (c : Copier) (w : World) (source destination : Value)

/-- The catalog with the members that are copied. -/
def sourceCatalog : CatalogRef :=
  c.options.selector.elim c.catalog (·.catalog)

/-- The catalog with the members that are copied into: the same one if both sides
share their members. -/
def partnerCatalog : CatalogRef :=
  if sharesTemplates source destination then c.sourceCatalog else c.catalog

/-- A value after the transform, if there is one. -/
def transformed (h : Heap) (v : Value) : Value :=
  c.options.transform.elim v fun f => f h v

/-- What the destination has under a name. -/
def Partner (name : String) (d : Member) : Prop :=
  (Query.run w fun h => (c.partnerCatalog source destination).memberOf? h destination name
    true).1 = .ok (some d)

/-- The value that an assignment has, and the destination's member that it is for,
follow from the member of the source: null from null, if that is not left out, and
else what the transform makes of the value, if that is accepted. -/
structure Assigns (a : Assignment) : Prop where
  partner : c.Partner w source destination a.source.name a.destination
  readable : a.source.readable = true
  writable : a.destination.writable = true
  value : ∃ v, (Query.run w fun h => a.source.readIn h source).1 = .ok v ∧
    (v = .null ∧ c.options.skipNulls = false ∧ a.value = .null ∨
      v ≠ .null ∧ a.value = c.transformed w.heap v ∧
        a.destination.declaredType.accepts a.value = true)

/-- A copy between different containers that keep what is written to them, without
a filter, of all members or those that a deep selector chooses.  A transform may look
into the heap, but not at what the copy itself changes there. -/
structure Plain : Prop where
  filter : c.options.filter = none
  deep : ∀ s, c.options.selector = some s → s.deep = true
  transform : ∀ f, c.options.transform = some f → f.Ignores destination
  from_simple : (w.catalogs.registry c.sourceCatalog).Simple source
  into_simple : (w.catalogs.registry (c.partnerCatalog source destination)).Simple destination
  apart : source.same destination = false
  live : w.heap.Live destination

/-- The course and the outcome of a copy of so many members. -/
structure Transferred (n : Nat) (members : List Member) (assigned : List Assignment)
    (after : World) : Prop where
  listed : (Query.run w fun h => c.sources h source).1 = .ok members
  distinct : (members.map (·.name)).Nodup
  ordered : (assigned.map (·.source)).Sublist members
  assigns : ∀ a, a ∈ assigned ↔ a.source ∈ members ∧ c.Assigns w source destination a
  count : n = assigned.length
  /-- A member has the value of the last assignment to its place, and else the one of before. -/
  reads : ∀ name d, c.Partner w source destination name d →
    (Query.run after fun h => d.read h).1 =
      match Assignment.lastAt? w.heap destination assigned (d.place? w.heap destination) with
      | some a => .ok a.value
      | none => (Query.run w fun h => d.read h).1
  /-- Except in a list, that is the assignment from the source member of its name. -/
  readsByName : (∀ l, destination ≠ .list l) → ∀ name d, c.Partner w source destination name d →
    (∀ a ∈ assigned, a.source.name = name →
      (Query.run after fun h => d.read h).1 = .ok a.value) ∧
    ((∀ a ∈ assigned, a.source.name ≠ name) →
      (Query.run after fun h => d.read h).1 = (Query.run w fun h => d.read h).1)
  others : w.heap.SameBut destination after.heap
  places : ∀ p, (∀ a ∈ assigned, a.destination.place? w.heap destination ≠ some p) →
    after.heap.at? destination p = w.heap.at? destination p

/-- What becomes of one source member: an assignment, nothing or an error. -/
def planned (registryOf : CatalogRef → Registry) (h : Heap) (src : Member) :
    Except MemberError (Option Assignment) :=
  match (c.partner? h (sharesTemplates source destination) destination src).answer registryOf with
  | .error e => .error e
  | .ok none => .ok none
  | .ok (some dest) =>
    if src.readable && dest.writable then
      ((src.readIn h source).answer registryOf).map fun v =>
        (c.offer? h ⟨src, dest, v⟩).map (⟨src, dest, ·⟩)
    else .ok none

/-- The assignment for a source member, if there is one. -/
def assignment? (registryOf : CatalogRef → Registry) (h : Heap) (src : Member) :
    Option Assignment :=
  (c.planned source destination registryOf h src).toOption.join

/-- The assignments for source members, in order. -/
def assignments (registryOf : CatalogRef → Registry) (h : Heap) (members : List Member) :
    List Assignment :=
  members.filterMap (c.assignment? source destination registryOf h)

variable {c w source destination} {registryOf : CatalogRef → Registry} {base h after : Heap}
  {src : Member} {members : List Member} {a : Assignment} {count n : Nat}

/-- A member is copied as planned. -/
theorem answer_copyMember_planned :
    (c.copyMember (sharesTemplates source destination) source destination src).answer registryOf h =
      match c.planned source destination registryOf h src with
      | .error e => (.error e, h)
      | .ok none => (.ok false, h)
      | .ok (some a) =>
        match (a.destination.write h a.value).answer registryOf with
        | .error e => (.error e, h)
        | .ok after => (.ok true, after) := by
  rw [answer_copyMember, planned]
  cases (c.partner? h (sharesTemplates source destination) destination src).answer registryOf with
  | error e => rfl
  | ok found =>
      cases found with
      | none => rfl
      | some dest =>
          by_cases able : (src.readable && dest.writable) = true
          · simp only [able, if_true]
            cases (src.readIn h source).answer registryOf with
            | error e => rfl
            | ok v =>
                simp only [Except.map]
                cases c.offer? h ⟨src, dest, v⟩ with
                | none => rfl
                | some u => rfl
          · simp only [able]
            rfl

/-- Copying members one after another is planning for each of them, and then making
all assignments, if what is planned does not change on the way. -/
theorem answer_copyMembers_eq_ok_iff (live : h.Live destination)
    (refilled : base.Refilled destination h)
    (steady : ∀ src ∈ members, ∀ mid, base.Refilled destination mid →
      c.planned source destination registryOf mid src =
        c.planned source destination registryOf base src)
    (sound : ∀ src ∈ members, ∀ a,
      c.planned source destination registryOf base src = .ok (some a) → a.Sound destination) :
    (c.copyMembers (sharesTemplates source destination) source destination members
      count).answer registryOf h = (.ok n, after) ↔
    (∀ src ∈ members, ∃ x, c.planned source destination registryOf base src = .ok x) ∧
      Assignment.makeAll registryOf
        (c.assignments source destination registryOf base members) h = .ok after ∧
      n = count + (c.assignments source destination registryOf base members).length := by
  -- The heap moves on with every assignment; the plans are those for the heap of before.
  induction members generalizing h count with
  | nil =>
      simp only [copyMembers_nil, EditOf.answer_pure, assignments, List.filterMap_nil, Assignment.makeAll]
      constructor
      · rintro ⟨⟩
        exact ⟨fun _ h => absurd h List.not_mem_nil, rfl, rfl⟩
      · rintro ⟨-, same, rfl⟩
        cases same
        rfl
  | cons src rest ih =>
      obtain ⟨steady_src, steady⟩ := List.forall_mem_cons.1 steady
      obtain ⟨sound_src, sound⟩ := List.forall_mem_cons.1 sound
      rw [copyMembers_cons, EditOf.answer_bind, answer_copyMember_planned, steady_src h refilled,
        List.forall_mem_cons]
      cases plan : c.planned source destination registryOf base src with
      | error e => simp
      | ok found =>
          cases found with
          | none =>
              have skipped : c.assignment? source destination registryOf base src = none := by
                rw [assignment?, plan]
                rfl
              rw [assignments, List.filterMap_cons_none skipped, ← assignments]
              simp only [ih live refilled steady sound]
              simp
          | some a =>
              have assigned : c.assignment? source destination registryOf base src = some a := by
                rw [assignment?, plan]
                rfl
              rw [assignments, List.filterMap_cons_some assigned, ← assignments,
                Assignment.makeAll_cons_eq_ok, List.length_cons]
              cases written : (a.destination.write h a.value).answer registryOf with
              | error e => simp [written]
              | ok mid =>
                  obtain ⟨first, -⟩ := (sound_src a plan).step live written
                  simp only [written, if_true,
                    ih (first.others.live live) (refilled.trans first) steady sound]
                  simp [Nat.add_assoc, Nat.add_comm 1]

/-- Without a filter null is offered for null, if it is not left out, and else what
is accepted of the transformed values. -/
theorem offer?_eq_some_iff (filter : c.options.filter = none) {dest : Member} {v u : Value} :
    c.offer? h ⟨src, dest, v⟩ = some u ↔
      v = .null ∧ c.options.skipNulls = false ∧ u = .null ∨
        v ≠ .null ∧ u = c.transformed h v ∧ dest.declaredType.accepts u = true := by
  by_cases null : v = .null
  · subst null
    have offered : c.offer? h ⟨src, dest, .null⟩ =
        if c.options.skipNulls then none else some .null := by
      simp only [offer?, filter, Option.all_none]
      rfl
    rw [offered, Option.ite_none_left_eq_some, Option.some.injEq, Bool.not_eq_true]
    constructor
    · rintro ⟨kept, rfl⟩
      exact .inl ⟨rfl, kept, rfl⟩
    · rintro (⟨-, kept, rfl⟩ | ⟨given, -⟩)
      · exact ⟨kept, rfl⟩
      · exact absurd rfl given
  · have given : v.isNull = false := by
      cases v with
      | null => exact absurd rfl null
      | _ => rfl
    have offered : c.offer? h ⟨src, dest, v⟩ =
        if dest.declaredType.accepts (c.transformed h v) then some (c.transformed h v)
        else none := by
      simp only [offer?, filter, Option.all_none, given, transformed]
      rfl
    rw [offered, Option.ite_none_right_eq_some, Option.some.injEq]
    constructor
    · rintro ⟨accepted, rfl⟩
      exact .inr ⟨null, rfl, accepted⟩
    · rintro (⟨rfl, -⟩ | ⟨-, rfl, accepted⟩)
      · exact absurd rfl null
      · exact ⟨accepted, rfl⟩

/-- The members that are copied are listed for the source, with the inherited ones. -/
theorem sources_eq_ok (deep : ∀ s, c.options.selector = some s → s.deep = true)
    (listed : (c.sources h source).answer registryOf = .ok members) :
    ∃ ts, (c.sourceCatalog.templatesOf h source true).answer registryOf = .ok ts ∧
      members.Sublist (ts.map fun t => .ofTemplate t (some source)) := by
  rw [sources] at listed
  rw [sourceCatalog]
  cases chosen : c.options.selector with
  | none =>
      rw [chosen] at listed
      obtain ⟨ts, found, rfl⟩ := CatalogRef.membersOf_eq_ok listed
      exact ⟨ts, found, .refl _⟩
  | some s =>
      rw [chosen] at listed
      replace listed : (s.findAll h source).answer registryOf = .ok members := listed
      rw [Selector.answer_findAll, deep s chosen] at listed
      obtain ⟨all, there, rfl⟩ := map_eq_ok.1 listed
      obtain ⟨ts, found, rfl⟩ := CatalogRef.membersOf_eq_ok there
      exact ⟨ts, found, List.filter_sublist⟩

section Plain

variable (plain : c.Plain w source destination) {ts : List Template} {t : Template}

include plain

/-- Whatever has been written into the destination, the same members are copied. -/
theorem Plain.sources_of_sameBut (same : h.SameBut destination after) :
    c.sources after source = c.sources h source := by
  have listed : ∀ d : CatalogRef, ∀ deep,
      d.membersOf after source deep = d.membersOf h source deep := by
    intro d deep
    rw [CatalogRef.membersOf, CatalogRef.membersOf,
      CatalogRef.templatesOf_of_sameBut same plain.apart]
  simp only [sources, Selector.findAll, listed]

/-- Where both sides share their members, the one of the source is what is found for
the destination too. -/
theorem Plain.answer_partner?
    (found : (c.sourceCatalog.templatesOf h source true).answer w.catalogs.registry = .ok ts)
    (ht : t ∈ ts) (mid : Heap) :
    (c.partner? mid (sharesTemplates source destination) destination
      (.ofTemplate t (some source))).answer w.catalogs.registry =
    ((c.partnerCatalog source destination).memberOf? mid destination t.name
      true).answer w.catalogs.registry := by
  have kind := plain.from_simple
  have distinct := CatalogRef.nodup_names_of_templatesOf kind.not_tag found
  rw [partner?, partnerCatalog]
  cases shared : sharesTemplates source destination with
  | false => rfl
  | true =>
      obtain ⟨typed, same⟩ := Bool.and_eq_true_iff.1 shared
      rw [beq_iff_eq] at same
      rw [if_pos rfl, if_pos rfl, CatalogRef.answer_memberOf?,
        CatalogRef.answer_templateOf?_of_type typed same, found]
      simp only [Except.map, atPlaceOf?_of_mem distinct ht]
      rfl

/-- What is planned does not depend on what the destination holds. -/
theorem Plain.planned_of_refilled
    (found : (c.sourceCatalog.templatesOf h source true).answer w.catalogs.registry = .ok ts)
    (ht : t ∈ ts) (refilled : h.Refilled destination after) :
    c.planned source destination w.catalogs.registry after (.ofTemplate t (some source)) =
      c.planned source destination w.catalogs.registry h (.ofTemplate t (some source)) := by
  have read : (Member.ofTemplate t (some source)).readIn after source =
      (Member.ofTemplate t (some source)).readIn h source := by
    have reads := (plain.from_simple.of_templatesOf found t ht).read_of_sameBut
      refilled.others plain.apart
    simp only [Member.readIn, Member.readRoute, Member.ofTemplate, reads]
    rfl
  have offer : ∀ pair, c.offer? after pair = c.offer? h pair := by
    intro pair
    cases transform : c.options.transform with
    | none => simp only [offer?, transform, Option.elim_none]
    | some f =>
        simp only [offer?, transform, Option.elim_some,
          plain.transform f transform h after pair.value refilled.others]
  rw [planned, planned, plain.answer_partner? found ht, plain.answer_partner? found ht,
    CatalogRef.memberOf?_of_refilled refilled]
  simp only [read, offer]

/-- The assignment that is planned for a member is the one that follows from it. -/
theorem Plain.planned_eq_some_iff
    (found : (c.sourceCatalog.templatesOf w.heap source true).answer w.catalogs.registry = .ok ts)
    (ht : t ∈ ts) :
    c.planned source destination w.catalogs.registry w.heap (.ofTemplate t (some source)) =
        .ok (some a) ↔
      a.source = .ofTemplate t (some source) ∧ c.Assigns w source destination a := by
  rw [planned, plain.answer_partner? found ht]
  constructor
  · intro made
    split at made
    · cases made
    · cases made
    · rename_i dest partner
      split at made
      · rename_i able
        obtain ⟨readable, writable⟩ := Bool.and_eq_true_iff.1 able
        obtain ⟨v, read, made⟩ := map_eq_ok.1 made
        obtain ⟨u, offered, rfl⟩ := Option.map_eq_some_iff.1 made
        exact ⟨rfl, (Query.run_fst w _).trans partner, readable, writable, v,
          (Query.run_fst w _).trans read, (offer?_eq_some_iff plain.filter).1 offered⟩
      · cases made
  · obtain ⟨src, dest, u⟩ := a
    rintro ⟨rfl, partner, readable, writable, v, read, value⟩
    have found : ((c.partnerCatalog source destination).memberOf? w.heap destination t.name
        true).answer w.catalogs.registry = .ok (some dest) := (Query.run_fst w _).symm.trans partner
    have able : ((Member.ofTemplate t (some source)).readable && dest.writable) = true :=
      Bool.and_eq_true_iff.2 ⟨readable, writable⟩
    have given : ((Member.ofTemplate t (some source)).readIn w.heap source).answer
        w.catalogs.registry = .ok v := (Query.run_fst w _).symm.trans read
    have offered : c.offer? w.heap ⟨.ofTemplate t (some source), dest, v⟩ = some u :=
      (offer?_eq_some_iff plain.filter).2 value
    simp only [found, able, if_true, given, Except.map, offered, Option.map_some]

theorem Plain.exists_template_of_partner {name : String} {d : Member}
    (partner : c.Partner w source destination name d) :
    ∃ t : Template, d = .ofTemplate t (some destination) ∧ t.name = name ∧ t.Provided ∧
      t.access.Plain t.name := by
  rw [Partner, Query.run_fst] at partner
  obtain ⟨t, found, rfl⟩ := CatalogRef.memberOf?_eq_some partner
  exact ⟨t, rfl, CatalogRef.name_of_templateOf? found, CatalogRef.provided_of_templateOf? found,
    plain.into_simple.of_templateOf? found⟩

theorem Plain.sound_of_assigns (assigns : c.Assigns w source destination a) :
    a.Sound destination := by
  obtain ⟨t, bound, -, provided, access⟩ := plain.exists_template_of_partner assigns.partner
  have writable := assigns.writable
  rw [bound] at writable
  exact ⟨t, bound, writable, access.stores (provided.honest writable)⟩

/-- Except in a list, members that stand for one place have one name. -/
theorem Plain.name_eq_of_place? {name other : String} {d e : Member}
    (many : ∀ l, destination ≠ .list l) (partner : c.Partner w source destination name d)
    (partner' : c.Partner w source destination other e) {p : Place}
    (place : d.place? w.heap destination = some p) (place' : e.place? w.heap destination = some p) :
    name = other := by
  obtain ⟨t, rfl, rfl, provided, -⟩ := plain.exists_template_of_partner partner
  obtain ⟨u, rfl, rfl, provided', -⟩ := plain.exists_template_of_partner partner'
  have first := Access.name?_of_place? provided.namedBy place many
  have second := Access.name?_of_place? provided'.namedBy place' many
  exact Option.some.inj (first.symm.trans second)

/-! The course of a copy, from the members that are listed. -/

theorem Plain.exists_template_of_mem
    (listed : (c.sources w.heap source).answer w.catalogs.registry = .ok members)
    (hsrc : src ∈ members) : ∃ ts,
      (c.sourceCatalog.templatesOf w.heap source true).answer w.catalogs.registry = .ok ts ∧
        ∃ t ∈ ts, src = .ofTemplate t (some source) := by
  obtain ⟨ts, found, sub⟩ := sources_eq_ok plain.deep listed
  obtain ⟨t, ht, rfl⟩ := List.mem_map.1 (sub.subset hsrc)
  exact ⟨ts, found, t, ht, rfl⟩

theorem Plain.nodup_names
    (listed : (c.sources w.heap source).answer w.catalogs.registry = .ok members) :
    (members.map (·.name)).Nodup := by
  obtain ⟨ts, found, sub⟩ := sources_eq_ok plain.deep listed
  have distinct := CatalogRef.nodup_names_of_templatesOf plain.from_simple.not_tag found
  have names : (ts.map fun t => Member.ofTemplate t (some source)).map (·.name) =
      ts.map (·.name) := by
    rw [List.map_map]
    rfl
  exact List.Nodup.sublist (sub.map _) (names ▸ distinct)

theorem Plain.assignment?_eq_some_iff
    (listed : (c.sources w.heap source).answer w.catalogs.registry = .ok members)
    (hsrc : src ∈ members) :
    c.assignment? source destination w.catalogs.registry w.heap src = some a ↔
      a.source = src ∧ c.Assigns w source destination a := by
  obtain ⟨ts, found, t, ht, rfl⟩ := plain.exists_template_of_mem listed hsrc
  rw [← plain.planned_eq_some_iff found ht, assignment?]
  cases c.planned source destination w.catalogs.registry w.heap (.ofTemplate t (some source)) with
  | error e => simp [Except.toOption]
  | ok found => simp [Except.toOption]

theorem Plain.mem_assignments
    (listed : (c.sources w.heap source).answer w.catalogs.registry = .ok members) :
    a ∈ c.assignments source destination w.catalogs.registry w.heap members ↔
      a.source ∈ members ∧ c.Assigns w source destination a := by
  rw [assignments, List.mem_filterMap]
  constructor
  · rintro ⟨src, hsrc, made⟩
    obtain ⟨rfl, assigns⟩ := (plain.assignment?_eq_some_iff listed hsrc).1 made
    exact ⟨hsrc, assigns⟩
  · rintro ⟨hsrc, assigns⟩
    exact ⟨a.source, hsrc, (plain.assignment?_eq_some_iff listed hsrc).2 ⟨rfl, assigns⟩⟩

theorem Plain.map_source_sublist
    (listed : (c.sources w.heap source).answer w.catalogs.registry = .ok members) :
    ((c.assignments source destination w.catalogs.registry w.heap members).map
      (·.source)).Sublist members :=
  map_filterMap_sublist fun _ hsrc _ made =>
    ((plain.assignment?_eq_some_iff listed hsrc).1 made).1

/-- A copy from a heap in which the destination may have been filled anew. -/
theorem Plain.answer_copy_eq_ok_iff (refilled : w.heap.Refilled destination h) :
    (c.copy source destination).answer w.catalogs.registry h = (.ok n, after) ↔
      ∃ members, (c.sources w.heap source).answer w.catalogs.registry = .ok members ∧
        (∀ src ∈ members, ∃ x,
          c.planned source destination w.catalogs.registry w.heap src = .ok x) ∧
        Assignment.makeAll w.catalogs.registry
          (c.assignments source destination w.catalogs.registry w.heap members) h = .ok after ∧
        n = (c.assignments source destination w.catalogs.registry w.heap members).length := by
  rw [answer_copy, plain.sources_of_sameBut refilled.others]
  cases listed : (c.sources w.heap source).answer w.catalogs.registry with
  | error e => simp
  | ok members =>
      have steady : ∀ src ∈ members, ∀ mid, w.heap.Refilled destination mid →
          c.planned source destination w.catalogs.registry mid src =
            c.planned source destination w.catalogs.registry w.heap src := by
        intro src hsrc mid refilled
        obtain ⟨ts, found, t, ht, rfl⟩ := plain.exists_template_of_mem listed hsrc
        exact plain.planned_of_refilled found ht refilled
      have sound : ∀ src ∈ members, ∀ a,
          c.planned source destination w.catalogs.registry w.heap src = .ok (some a) →
            a.Sound destination := by
        intro src hsrc a made
        obtain ⟨ts, found, t, ht, rfl⟩ := plain.exists_template_of_mem listed hsrc
        exact plain.sound_of_assigns ((plain.planned_eq_some_iff found ht).1 made).2
      simp only [answer_copyMembers_eq_ok_iff (refilled.others.live plain.live) refilled steady
        sound, Nat.zero_add, Except.ok.injEq, exists_eq_left']

/-! What is read of the destination afterwards. -/

section Reads

variable {assigned : List Assignment} {name : String} {d : Member}
  (assigns : ∀ a ∈ assigned, c.Assigns w source destination a)
  (made : Assignment.makeAll w.catalogs.registry assigned w.heap = .ok after)
  (partner : c.Partner w source destination name d)

include assigns made partner

/-- A member at the place of an assignment suits the destination.  For an object it is
the very member that has been assigned. -/
theorem Plain.suits_of_place? (ha : a ∈ assigned)
    (place : a.destination.place? w.heap destination = d.place? w.heap destination)
    (bound : d = .ofTemplate t (some destination)) : t.access.Suits destination := by
  have sound : ∀ a ∈ assigned, a.Sound destination :=
    fun a ha => plain.sound_of_assigns (assigns a ha)
  obtain ⟨mid, later, -, written⟩ := Assignment.exists_write_of_makeAll sound plain.live made ha
  obtain ⟨p, found⟩ := Assignment.exists_place_of_makeAll sound plain.live made ha
  rintro type reader writer o access same
  have name : a.source.name = name := plain.name_eq_of_place? (by rw [same]; rintro l ⟨⟩)
    (assigns a ha).partner partner found (place.symm.trans found)
  have bound' : a.destination = .ofTemplate t (some destination) := by
    have found := (assigns a ha).partner
    rw [name] at found
    exact (Option.some.inj (Except.ok.inj (found.symm.trans partner))).trans bound
  have writes := (Assignment.Sound.write_eq_ok_iff bound'
    (show (Member.ofTemplate t (some destination)).writable = true from
      bound' ▸ (assigns a ha).writable)).1 written
  exact writes.suits type reader writer o access same

/-- A member reads the value of the last assignment to its place, and else as before. -/
theorem Plain.answer_read_after : (d.read after).answer w.catalogs.registry =
    match Assignment.lastAt? w.heap destination assigned (d.place? w.heap destination) with
    | some a => .ok a.value
    | none => (d.read w.heap).answer w.catalogs.registry := by
  have sound : ∀ a ∈ assigned, a.Sound destination :=
    fun a ha => plain.sound_of_assigns (assigns a ha)
  have refilled := Assignment.refilled_of_makeAll sound plain.live made
  have held := Assignment.at?_of_makeAll sound plain.live (.refl destination w.heap) made
  obtain ⟨t, bound, rfl, provided, access⟩ := plain.exists_template_of_partner partner
  have read : ∀ h, (d.read h).answer w.catalogs.registry =
      (t.access.read h destination).mapError (.handling t.name) := by
    intro h
    rw [bound]
    show ((Member.ofTemplate t (some destination)).readIn h destination).answer _ = _
    have readable : (Member.ofTemplate t (some destination)).readable = true :=
      provided.readable_of_plain access
    rw [Member.readIn, if_pos readable, Query.answer_mapError]
    rfl
  have placed : d.place? w.heap destination = t.access.place? w.heap t.name destination := by
    rw [bound]
    rfl
  rw [read, read]
  cases last : Assignment.lastAt? w.heap destination assigned (d.place? w.heap destination) with
  | some a =>
      obtain ⟨ha, place⟩ := Assignment.of_lastAt? last
      obtain ⟨p, found⟩ := Assignment.exists_place_of_makeAll sound plain.live made ha
      have suits := plain.suits_of_place? assigns made partner ha place bound
      rw [place] at found
      rw [found] at last
      rw [placed, ← Access.place?_of_refilled refilled] at found
      have kept : after.at? destination p = p.kept a.value := by
        rw [held p, last]
      exact mapError_eq_ok.2 (access.read_of_kept found suits kept)
  | none =>
      have same : ∀ p, t.access.place? w.heap t.name destination = some p →
          after.at? destination p = w.heap.at? destination p := by
        intro p place
        rw [placed, place] at last
        rw [held p, last]
      rw [access.read_congr refilled.lengths same]

/-- Except in a list, what is assigned to the place of a name comes from that name. -/
theorem Plain.name_of_lastAt? (many : ∀ l, destination ≠ .list l)
    (last : Assignment.lastAt? w.heap destination assigned (d.place? w.heap destination) = some a) :
    a ∈ assigned ∧ a.source.name = name := by
  obtain ⟨ha, place⟩ := Assignment.of_lastAt? last
  obtain ⟨p, found⟩ := Assignment.exists_place_of_makeAll
    (fun a ha => plain.sound_of_assigns (assigns a ha)) plain.live made ha
  exact ⟨ha, plain.name_eq_of_place? many (assigns a ha).partner partner found
    (place.symm.trans found)⟩

theorem Plain.lastAt?_of_name (many : ∀ l, destination ≠ .list l)
    (distinct : (assigned.map (·.source.name)).Nodup) (ha : a ∈ assigned)
    (same : a.source.name = name) :
    Assignment.lastAt? w.heap destination assigned (d.place? w.heap destination) = some a := by
  have bound : a.destination = d := by
    have found := (assigns a ha).partner
    rw [same] at found
    exact Option.some.inj (Except.ok.inj (found.symm.trans partner))
  cases last : Assignment.lastAt? w.heap destination assigned (d.place? w.heap destination) with
  | some b =>
      obtain ⟨hb, other⟩ := plain.name_of_lastAt? assigns made partner many last
      exact congrArg some (List.inj_on_of_nodup_map distinct hb ha (other.trans same.symm))
  | none =>
      have apart := List.find?_eq_none.1 last a (List.mem_reverse.2 ha)
      rw [bound] at apart
      simp at apart

end Reads

end Plain

/-- What a copy that has gone through has done. -/
theorem Plain.exists_transferred (plain : c.Plain w source destination) {after : World}
    (answered : (c.copy source destination).answer w.catalogs.registry w.heap = (.ok n, after.heap))
    (registry : after.catalogs.registry = w.catalogs.registry) :
    ∃ members assigned, c.Transferred w source destination n members assigned after := by
  obtain ⟨members, listed, -, made, count⟩ :=
    (plain.answer_copy_eq_ok_iff (.refl destination w.heap)).1 answered
  have mem_iff : ∀ a, a ∈ c.assignments source destination w.catalogs.registry w.heap members ↔
      a.source ∈ members ∧ c.Assigns w source destination a :=
    fun _ => plain.mem_assignments listed
  have ordered := plain.map_source_sublist listed
  generalize c.assignments source destination w.catalogs.registry w.heap members = assigned
    at made count mem_iff ordered
  have assigns : ∀ a ∈ assigned, c.Assigns w source destination a :=
    fun a ha => ((mem_iff a).1 ha).2
  have sound : ∀ a ∈ assigned, a.Sound destination :=
    fun a ha => plain.sound_of_assigns (assigns a ha)
  have distinct := plain.nodup_names listed
  have reads : ∀ name d, c.Partner w source destination name d →
      (Query.run after fun h => d.read h).1 =
        match Assignment.lastAt? w.heap destination assigned (d.place? w.heap destination) with
        | some a => .ok a.value
        | none => (Query.run w fun h => d.read h).1 := by
    intro name d partner
    rw [Query.run_fst, Query.run_fst, registry]
    exact plain.answer_read_after assigns made partner
  refine ⟨members, assigned,
    { listed := (Query.run_fst w _).trans listed
      distinct := distinct
      ordered := ordered
      assigns := mem_iff
      count := count
      reads := reads
      readsByName := ?_
      others := (Assignment.refilled_of_makeAll sound plain.live made).others
      places := ?_ }⟩
  · intro many name d partner
    have names : (assigned.map (·.source.name)).Nodup := by
      have sub := ordered.map (·.name)
      rw [List.map_map] at sub
      exact distinct.sublist sub
    constructor
    · intro a ha same
      rw [reads name d partner, plain.lastAt?_of_name assigns made partner many names ha same]
    · intro none_of
      rw [reads name d partner]
      cases last : Assignment.lastAt? w.heap destination assigned
          (d.place? w.heap destination) with
      | none => rfl
      | some a =>
          obtain ⟨ha, same⟩ := plain.name_of_lastAt? assigns made partner many last
          exact absurd same (none_of a ha)
  · intro p apart
    rw [Assignment.at?_of_makeAll sound plain.live (.refl destination w.heap) made p]
    cases last : Assignment.lastAt? w.heap destination assigned (some p) with
    | none => rfl
    | some a =>
        obtain ⟨ha, place⟩ := Assignment.of_lastAt? last
        exact absurd place (apart a ha)

/-- A copy that has gone through goes through again, and then changes nothing. -/
theorem Plain.answer_copy_again (plain : c.Plain w source destination)
    (answered : (c.copy source destination).answer w.catalogs.registry w.heap = (.ok n, after)) :
    (c.copy source destination).answer w.catalogs.registry after = (.ok n, after) := by
  obtain ⟨members, listed, planned, made, count⟩ :=
    (plain.answer_copy_eq_ok_iff (.refl destination w.heap)).1 answered
  have sound : ∀ a ∈ c.assignments source destination w.catalogs.registry w.heap members,
      a.Sound destination :=
    fun a ha => plain.sound_of_assigns ((plain.mem_assignments listed).1 ha).2
  have refilled := Assignment.refilled_of_makeAll sound plain.live made
  exact (plain.answer_copy_eq_ok_iff refilled).2
    ⟨members, listed, planned, Assignment.makeAll_again sound plain.live made, count⟩

end Copier

/-- Guests with a name, an age and a note. -/
def guestbook : List Definition :=
  [.type ((((TypeDraft.plain "Guest").withField (.plain "name" .string)).withField
     (.plain "age" .int)).withField (.plain "note" .string))]

def guest : Value := .object ⟨0, "Guest", []⟩

/-- A form in which the age is a text and there is no note. -/
def form : Value := .map ⟨0, .any⟩

def guestWorld : World :=
  ⟨{ Heap.empty with
      objects := ⟨#[.ofList [("age", .int 30), ("note", .string "late")]]⟩
      maps := ⟨#[.ofList [("age", .string "young"), ("name", .string "Ann"), ("note", .null)]]⟩ },
   (Catalogs.empty.add (Builder.empty.declareAll guestbook).build).2⟩

def wholeCopier : Copier := ⟨⟨0⟩, .plain⟩

def entryOf (key : String) : Member := .ofTemplate (keyTemplate .any key) (some form)

def guestMember (name : String) : Member :=
  .ofTemplate ((Declarations.along ((guestWorld.catalogs.registry ⟨0⟩).lineage "Guest")
    name).merge name) (some guest)

theorem plain_guest : wholeCopier.Plain guestWorld form guest where
  filter := rfl
  deep := by rintro s ⟨⟩
  transform := by rintro f ⟨⟩
  from_simple := trivial
  into_simple := by
    refine Registry.simple_object ?_ _
    intro u hu
    cases List.mem_singleton.1 hu
    exact ⟨nofun, nofun⟩
  apart := rfl
  live := Nat.zero_lt_one

/-- Two ranks, of which one has the name of a position and the other that of an end. -/
def ranks : Value := .map ⟨0, .int⟩

def rankList : Value := .list ⟨0, .int⟩

def rankWorld : World :=
  ⟨{ Heap.empty with
      lists := ⟨#[[.int 0]]⟩
      maps := ⟨#[.ofList [("0", .int 1), ("first", .int 2)]]⟩ }, .empty⟩

def rankOf (key : String) : Member := .ofTemplate (keyTemplate .int key) (some ranks)

def rankAt (name : String) (p : Position) : Member :=
  .ofTemplate (itemTemplate .int name p) (some rankList)

/-- A map that is to count itself, and the map that it is filled from. -/
def tally : Value := .map ⟨0, .any⟩

def tallies : Value := .map ⟨1, .any⟩

def tallyWorld : World :=
  ⟨{ Heap.empty with maps := ⟨#[.empty, .ofList [("a", .int 1), ("self", tally)]]⟩ }, .empty⟩

def textCopier : Copier := ⟨⟨0⟩, { CopyOptions.plain with transform := some Transform.text }⟩

end Memberwise
