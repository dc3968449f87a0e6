import Memberwise.Proofs.Building
import Memberwise.Proofs.Effects
import Memberwise.Proofs.Walks

/-!
# What writing through a member changes

However a member has been come by, its name says which place it stands for
(`Member.Handle.faithful`).  A path is walked anew at every writing, and a write
changes the place that it then ends at and no other, or fails and changes nothing.
The owner of that place may well be the container that the path starts from.
-/

namespace Memberwise

/-- The place of a template is the one that its name says. -/
theorem Template.Provided.namedBy {t : Template} (provided : t.Provided) :
    t.access.NamedBy t.name := by
  cases provided with
  | declared line name => exact trivial
  | param tag p => exact trivial
  | item element named => exact named
  | entry value key => exact rfl
  | property key => exact rfl
  | column name => exact trivial

/-! Ways to come by a member. -/

/-- A member of a container as it is obtained, with the container as it is then. -/
inductive Member.Obtained (target : Value) : Member → Prop
  | listed {registryOf : CatalogRef → Registry} {d : CatalogRef} {h : Heap} {deep : Bool}
      {ms : List Member} {m : Member}
      (listed : (d.membersOf h target deep).answer registryOf = .ok ms) (hm : m ∈ ms) :
      Obtained target m
  | found {registryOf : CatalogRef → Registry} {d : CatalogRef} {h : Heap} {deep : Bool}
      {name : String} {m : Member}
      (found : (d.memberOf? h target name deep).answer registryOf = .ok (some m)) :
      Obtained target m

/-- A member as it can be had at all: of a container, of a type, by a path, or from
another one by binding. -/
inductive Member.Handle : Member → Prop
  | obtained {target : Value} {m : Member} (obtained : Obtained target m) : Handle m
  | listedOfType {registryOf : CatalogRef → Registry} {d : CatalogRef} {type : ValueType}
      {deep : Bool} {ms : List Member} {m : Member}
      (listed : (d.membersOfType type deep).answer registryOf = .ok ms) (hm : m ∈ ms) : Handle m
  | foundOfType {registryOf : CatalogRef → Registry} {d : CatalogRef} {type : ValueType}
      {name : String} {deep : Bool} {m : Member}
      (found : (d.memberOfType? type name deep).answer registryOf = .ok (some m)) : Handle m
  | resolved {registryOf : CatalogRef → Registry} {d : CatalogRef} {h : Heap} {path : String}
      {target : Option Value} {type : ValueType} {deep : Bool} {m : Member}
      (resolved : (d.resolvePath? h path target type deep).answer registryOf = .ok (some m)) :
      Handle m
  | bound {m : Member} (handle : Handle m) (target : Value) : Handle (m.bind target)
  | unbound {m : Member} (handle : Handle m) : Handle m.unbound

/-- The way to the place of a member is the one that its name says. -/
def Member.Faithful (m : Member) : Prop :=
  match m.route with
  | .direct access => access.NamedBy m.name
  | .path p => p.segments = pathSegments m.name

namespace Member

variable {m : Member} {t : Template} {target : Value}

theorem Obtained.exists_template (obtained : Obtained target m) :
    ∃ t : Template, t.Provided ∧ m = .ofTemplate t (some target) := by
  cases obtained with
  | listed listed hm =>
      obtain ⟨ts, found, rfl⟩ := CatalogRef.membersOf_eq_ok listed
      obtain ⟨t, ht, rfl⟩ := List.mem_map.1 hm
      exact ⟨t, CatalogRef.provided_of_templatesOf found t ht, rfl⟩
  | found found =>
      obtain ⟨t, lookup, rfl⟩ := CatalogRef.memberOf?_eq_some found
      exact ⟨t, CatalogRef.provided_of_templateOf? lookup, rfl⟩

theorem faithful_ofTemplate {target : Option Value} (provided : t.Provided) :
    (ofTemplate t target).Faithful := provided.namedBy

end Member

section Resolution

variable {registryOf : CatalogRef → Registry} {d : CatalogRef} {h : Heap} {path : String}
  {target : Option Value} {type : ValueType} {deep : Bool} {m : Member}

/-- What is resolved for a path goes by the segments of the path. -/
theorem CatalogRef.resolvePath?_eq_some
    (resolved : (d.resolvePath? h path target type deep).answer registryOf = .ok (some m)) :
    m.name = path ∧ m.route = .path ⟨d, pathSegments path, deep⟩ := by
  rw [resolvePath?] at resolved
  split at resolved
  · cases resolved
  · rename_i name rest segments
    rw [Query.answer_bind] at resolved
    obtain ⟨first?, -, resolved⟩ := bind_eq_ok.1 resolved
    cases first? with
    | none => cases resolved
    | some first =>
        rw [Query.answer_bind] at resolved
        obtain ⟨leaf?, -, resolved⟩ := bind_eq_ok.1 resolved
        cases leaf? with
        | none => cases resolved
        | some leaf =>
            cases resolved
            rw [segments]
            exact ⟨rfl, rfl⟩

end Resolution

/-- The name of a member says which place it stands for, however it was obtained. -/
theorem Member.Handle.faithful {m : Member} (handle : m.Handle) : m.Faithful := by
  induction handle with
  | obtained obtained =>
      obtain ⟨t, provided, rfl⟩ := obtained.exists_template
      exact faithful_ofTemplate provided
  | @listedOfType registryOf d type deep ms m listed hm =>
      rw [CatalogRef.membersOfType, Query.answer_bind] at listed
      obtain ⟨ts, found, listed⟩ := bind_eq_ok.1 listed
      cases listed
      obtain ⟨t, ht, rfl⟩ := List.mem_map.1 hm
      exact faithful_ofTemplate (CatalogRef.provided_of_templatesOfType found t ht)
  | @foundOfType registryOf d type name deep m found =>
      rw [CatalogRef.memberOfType?, Query.answer_bind] at found
      obtain ⟨t?, lookup, found⟩ := bind_eq_ok.1 found
      obtain ⟨t, rfl, rfl⟩ := Option.map_eq_some_iff.1 (Except.ok.inj found)
      exact faithful_ofTemplate (CatalogRef.provided_of_templateOfType? lookup)
  | resolved resolved =>
      obtain ⟨name, route⟩ := CatalogRef.resolvePath?_eq_some resolved
      rw [Faithful, route, name]
  | bound handle target ih => exact ih
  | unbound handle ih => exact ih

/-! Where a path ends when it is walked. -/

section Walking

variable {registryOf : CatalogRef → Registry} {d : CatalogRef} {h : Heap} {deep : Bool}
  {c owner : Value} {name : String} {names : List String} {t leaf : Template}

theorem MemberPath.segment_eq_ok {p : MemberPath}
    (found : (p.segment h c name).answer registryOf = .ok t) :
    (p.catalog.templateOf? h c name p.deep).answer registryOf = .ok (some t) := by
  rw [segment, Query.answer_bind, Query.answer_mapError] at found
  obtain ⟨t?, lookup, found⟩ := bind_eq_ok.1 found
  cases t? with
  | none => cases found
  | some t =>
      cases found
      exact mapError_eq_ok.1 lookup

/-- What is come to along a path is come to by a walk through containers. -/
theorem MemberPath.walks_of_walk {p : MemberPath}
    (walked : (p.walk h names c).answer registryOf = .ok (owner, leaf)) :
    Walks registryOf p.catalog h p.deep c names owner leaf := by
  induction names generalizing c with
  | nil => cases walked
  | cons name names ih =>
      cases names with
      | nil =>
          rw [walk, Query.answer_bind] at walked
          obtain ⟨t, found, walked⟩ := bind_eq_ok.1 walked
          cases walked
          exact .here (segment_eq_ok found)
      | cons next rest =>
          rw [walk, Query.answer_bind] at walked
          · obtain ⟨t, found, walked⟩ := bind_eq_ok.1 walked
            rw [Query.answer_bind, Query.answer_mapError, Query.answer_ofExcept] at walked
            obtain ⟨w, read, walked⟩ := bind_eq_ok.1 walked
            cases null : w.isNull with
            | true =>
                rw [null] at walked
                cases walked
            | false =>
                rw [null] at walked
                exact .through (segment_eq_ok found) (mapError_eq_ok.1 read) (ih walked)
          · rintro ⟨⟩

theorem Walks.getLast?_eq (walks : Walks registryOf d h deep c names owner leaf) :
    names.getLast? = some leaf.name := by
  induction walks with
  | here found => rw [List.getLast?_singleton, CatalogRef.name_of_templateOf? found]
  | through found read rest ih =>
      obtain ⟨next, later, rfl⟩ := List.exists_cons_of_ne_nil rest.ne_nil
      rw [List.getLast?_cons_cons]
      exact ih

theorem Walks.provided (walks : Walks registryOf d h deep c names owner leaf) :
    leaf.Provided := by
  induction walks with
  | here found => exact CatalogRef.provided_of_templateOf? found
  | through found read rest ih => exact ih

end Walking

namespace Member

/-- The owner of the place that a member of a container stands for, and the name of
the place there: its own name, or the last segment of a path. -/
inductive Leaf (registryOf : CatalogRef → Registry) (h : Heap) (m : Member) (target : Value) :
    Value → String → Prop
  | direct {access : Access} (route : m.route = .direct access) :
      Leaf registryOf h m target target m.name
  | path {p : MemberPath} {owner : Value} {leaf : Template} {last : String}
      (route : m.route = .path p)
      (walks : Walks registryOf p.catalog h p.deep target (pathSegments m.name) owner leaf)
      (ends : (pathSegments m.name).getLast? = some last) : Leaf registryOf h m target owner last

/-- Writing fails and changes no container, or changes the place of the member only. -/
structure Confined (w : World) (m : Member) (target : Value)
    (outcome : Except MemberError Unit × World) : Prop where
  unchanged : ∀ e, outcome.1 = .error e → outcome.2.heap = w.heap
  changes : outcome.1 = .ok () → ∃ owner name,
    m.Leaf w.catalogs.registry w.heap target owner name ∧
      w.heap.Changes owner name outcome.2.heap

variable {registryOf : CatalogRef → Registry} {h after : Heap} {m : Member} {target value : Value}

theorem changes_of_writeIn (faithful : m.Faithful)
    (written : (m.writeIn h target value).answer registryOf = .ok after) :
    ∃ owner name, m.Leaf registryOf h target owner name ∧ h.Changes owner name after := by
  rw [writeIn] at written
  split at written
  · rw [Query.answer_mapError, mapError_eq_ok] at written
    rw [Faithful] at faithful
    cases route : m.route with
    | direct access =>
        rw [route] at written faithful
        have writes := Access.writes_of_write written
        exact ⟨target, m.name, .direct route, writes.changes faithful⟩
    | path p =>
        rw [route] at written faithful
        rw [writeRoute, MemberPath.write, Query.answer_bind] at written
        obtain ⟨⟨owner, leaf⟩, walked, written⟩ := bind_eq_ok.1 written
        rw [Query.answer_mapError, Query.answer_ofExcept, mapError_eq_ok, Template.write] at written
        have walks := MemberPath.walks_of_walk walked
        rw [faithful] at walks
        split at written
        · have writes := Access.writes_of_write (mapError_eq_ok.1 written)
          exact ⟨owner, leaf.name, .path route walks walks.getLast?_eq, writes.changes walks.provided.namedBy⟩
        · cases written
  · cases written

theorem confined_assignIn {w : World} (faithful : m.Faithful) (target value : Value) :
    Confined w m target ((m.assignIn target value).run w) := by
  have answer := EditOf.answer_update w.catalogs.registry (fun h => m.writeIn h target value) w.heap
  constructor
  · intro e failed
    rw [Edit.run_fst, assignIn, answer] at failed
    rw [Edit.heap_run, assignIn, answer]
    split at failed
    · cases failed
    · rfl
  · intro done
    rw [Edit.run_fst, assignIn, answer] at done
    rw [Edit.heap_run, assignIn, answer]
    split at done
    · rename_i after written
      exact changes_of_writeIn faithful written
    · cases done

end Member

/-- Writing through a member, of a given container or of the one that it is bound
to, fails and changes no container, or changes only the place that it stands for. -/
theorem writes_are_atomic_and_confined {m : Member} (handle : m.Handle) (w : World)
    (value : Value) :
    (∀ target, m.Confined w target ((m.assignIn target value).run w)) ∧
    (∀ target, m.target = some target → m.Confined w target ((m.assign value).run w)) ∧
    (m.target = none → (m.assign value).run w = (.error (.nonSpecific m.name), w)) := by
  have faithful := handle.faithful
  refine ⟨fun target => m.confined_assignIn faithful target value, ?_, ?_⟩
  · intro target bound
    have same : m.assign value = m.assignIn target value := by
      simp only [Member.assign, Member.write, bound, Member.assignIn]
    rw [same]
    exact m.confined_assignIn faithful target value
  · intro free
    have fails : m.assign value =
        Edit.update fun _ => Query.ofExcept (.error (.nonSpecific m.name)) := by
      simp only [Member.assign, Member.write, free]
      rfl
    rw [fails, Edit.run_update_ofExcept]

/-- A map that holds itself. -/
def loop : Value := .map ⟨0, .any⟩

def loopWorld : World :=
  ⟨{ Heap.empty with maps := ⟨#[.ofList [("self", loop)]]⟩ }, .empty⟩

/-- The count of the map, by way of itself. -/
def loopCount : Member where
  name := "self.count"
  declaredType := .any
  declaringType := .map .any
  readable := true
  writable := true
  tags := []
  route := .path ⟨⟨0⟩, ["self", "count"], true⟩
  target := some loop

theorem count_behind_itself_is_written_alone :
    ((loopCount.assign (.int 5)).run loopWorld).1 = .ok () ∧
      loopWorld.heap.Changes loop "count" ((loopCount.assign (.int 5)).run loopWorld).2.heap := by
  have resolved : (CatalogRef.resolvePath? ⟨0⟩ loopWorld.heap "self.count" (some loop)
      (.map .any) true).answer loopWorld.catalogs.registry = .ok (some loopCount) := rfl
  obtain ⟨-, bound, -⟩ := writes_are_atomic_and_confined (.resolved resolved) loopWorld (.int 5)
  have written : ((loopCount.assign (.int 5)).run loopWorld).1 = .ok () := rfl
  obtain ⟨owner, name, leaf, changes⟩ := (bound loop rfl).changes written
  refine ⟨written, ?_⟩
  cases leaf with
  | direct route => cases route
  | path route walks ends =>
      cases route
      have walked := walks.answer_walk []
      cases walked
      cases ends
      exact changes

end Memberwise
