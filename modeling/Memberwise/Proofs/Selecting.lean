import Memberwise.Proofs.Caching
import Memberwise.Proofs.Confinement
import Memberwise.Proofs.Storage

/-!
# Listing members and asking for them by name

A selector that lists a member finds the same member when it is asked for its name.
This holds for all kinds of containers, and for names that are free text, save for
those with a dot in them: a selector takes these for paths, and what it then finds
is reached another way, if there is anything at all (`listed_members_are_found`).
The container itself takes every name literally, and there listing and asking agree
without exception (`listing_and_naming_agree`).
-/

namespace Memberwise

namespace CatalogRef

variable {registryOf : CatalogRef → Registry} {d : CatalogRef} {h : Heap} {target : Value}
  {deep : Bool} {m : Member}

/-- What is listed of a container has different names. -/
theorem nodup_names_of_listed {ts : List Template} (built : (registryOf d).Built)
    (listed : (d.templatesOf h target deep).answer registryOf = .ok ts) :
    (ts.map (·.name)).Nodup := by
  by_cases plain : ∀ tag, target ≠ .tag tag
  · exact nodup_names_of_templatesOf plain listed
  · obtain ⟨tag, rfl⟩ : ∃ tag, target = .tag tag := by simpa using plain
    -- the parameters of a tag have different names, for only such tags are defined
    exact built.nodup_names
      (show CacheKey.discover (registryOf d) ⟨.tag tag.name, deep⟩ = .ok ts from listed)

/-- A template that is listed is found by its name. -/
theorem answer_templateOf?_of_listed {ts : List Template} {t : Template}
    (built : (registryOf d).Built) (addressable : h.Addressable)
    (listed : (d.templatesOf h target deep).answer registryOf = .ok ts) (ht : t ∈ ts) :
    (d.templateOf? h target t.name deep).answer registryOf = .ok (some t) := by
  by_cases plain : ∀ tag, target ≠ .tag tag
  · exact answer_templateOf?_of_mem addressable listed ht plain
  · obtain ⟨tag, rfl⟩ : ∃ tag, target = .tag tag := by simpa using plain
    have typed : (Value.tag tag).containerKind.any (·.isTypeLevel) = true := rfl
    rw [answer_templateOf?_of_type typed rfl, listed]
    exact congrArg Except.ok (atPlaceOf?_of_mem (nodup_names_of_listed built listed) ht)

/-- A member that is listed is found by its name. -/
theorem answer_memberOf?_of_listed {ms : List Member} (built : (registryOf d).Built)
    (addressable : h.Addressable)
    (listed : (d.membersOf h target deep).answer registryOf = .ok ms) (hm : m ∈ ms) :
    (d.memberOf? h target m.name deep).answer registryOf = .ok (some m) := by
  obtain ⟨ts, found, rfl⟩ := membersOf_eq_ok listed
  obtain ⟨t, ht, rfl⟩ := List.mem_map.1 hm
  rw [answer_memberOf?]
  exact congrArg (Except.map _) (answer_templateOf?_of_listed built addressable found ht)

/-- Objects and tags have no members but those that are listed. -/
theorem answer_memberOf?_of_type {ms : List Member} {name : String}
    (built : (registryOf d).Built) (typed : target.containerKind.any (·.isTypeLevel) = true)
    (listed : (d.membersOf h target deep).answer registryOf = .ok ms) :
    (d.memberOf? h target name deep).answer registryOf = .ok (ms.find? (·.name == name)) := by
  obtain ⟨ts, found, rfl⟩ := membersOf_eq_ok listed
  rw [answer_memberOf?, answer_templateOf?_of_type typed rfl, found, List.find?_map]
  show Except.ok ((atPlaceOf? ts name).map _) = _
  rw [atPlaceOf?_eq_find? (nodup_names_of_listed built found)]
  rfl

/-- What is listed of a container is bound to it and has a place in it. -/
theorem bound_of_membersOf {ms : List Member}
    (listed : (d.membersOf h target deep).answer registryOf = .ok ms) (hm : m ∈ ms) :
    m.target = some target ∧ ∃ access, m.route = .direct access := by
  obtain ⟨ts, -, rfl⟩ := membersOf_eq_ok listed
  obtain ⟨t, -, rfl⟩ := List.mem_map.1 hm
  exact ⟨rfl, t.access, rfl⟩

end CatalogRef

namespace Selector

variable {registryOf : CatalogRef → Registry} {s : Selector} {h : Heap} {target : Value}
  {name : String}

theorem answer_findAll : (s.findAll h target).answer registryOf =
    ((s.catalog.membersOf h target s.deep).answer registryOf).map (·.filter s.accepts) :=
  Query.answer_bind_pure registryOf _ _

theorem answer_find?_of_name (plain : isPath name = false) :
    (s.find? h name target).answer registryOf =
      ((s.catalog.memberOf? h target name s.deep).answer registryOf).map
        (·.filter s.accepts) := by
  rw [find?, if_neg (by simp [plain])]
  exact Query.answer_bind_pure registryOf _ _

theorem answer_find?_of_path (dotted : isPath name = true) :
    (s.find? h name target).answer registryOf =
      ((s.catalog.resolvePath? h name (some target) target.type s.deep).answer registryOf).map
        (·.filter s.accepts) := by
  rw [find?, if_pos dotted]
  exact Query.answer_bind_pure registryOf _ _

/-- What is selected is listed and accepted. -/
theorem findAll_eq_ok {ms : List Member}
    (listed : (s.findAll h target).answer registryOf = .ok ms) : ∃ all,
      (s.catalog.membersOf h target s.deep).answer registryOf = .ok all ∧
        ∀ m ∈ ms, m ∈ all ∧ s.accepts m = true := by
  rw [answer_findAll] at listed
  obtain ⟨all, found, rfl⟩ := map_eq_ok.1 listed
  exact ⟨all, found, fun m hm => List.mem_filter.1 hm⟩

/-- What a name with a dot in it leads to is reached along the path. -/
theorem route_of_find? {m : Member} (dotted : isPath name = true)
    (found : (s.find? h name target).answer registryOf = .ok (some m)) :
    m.name = name ∧ m.route = .path ⟨s.catalog, pathSegments name, s.deep⟩ := by
  rw [answer_find?_of_path dotted] at found
  obtain ⟨leaf, resolved, found⟩ := map_eq_ok.1 found
  obtain ⟨rfl, -⟩ := Option.filter_eq_some_iff.1 found
  exact CatalogRef.resolvePath?_eq_some resolved

end Selector

/-- A member that a selector lists is bound to the container, and the selector finds
it by its name unless there is a dot in that.  A name with a dot is a path, and
never leads back to the member. -/
theorem listed_members_are_found {w : World} {s : Selector} {target : Value} {ms : List Member}
    (built : (w.catalogs.registry s.catalog).Built) (addressable : w.heap.Addressable)
    (listed : (Query.run w fun h => s.findAll h target).1 = .ok ms) {m : Member} (hm : m ∈ ms) :
    m.target = some target ∧
      ((Query.run w fun h => s.find? h m.name target).1 = .ok (some m) ↔
        isPath m.name = false) := by
  rw [Query.run_fst] at listed ⊢
  obtain ⟨all, found, selected⟩ := s.findAll_eq_ok listed
  obtain ⟨there, accepted⟩ := selected m hm
  obtain ⟨bound, access, direct⟩ := CatalogRef.bound_of_membersOf found there
  refine ⟨bound, ?_, ?_⟩
  · intro back
    cases dotted : isPath m.name with
    | false => rfl
    | true =>
        obtain ⟨-, route⟩ := Selector.route_of_find? dotted back
        cases direct.symm.trans route
  · intro plain
    rw [Selector.answer_find?_of_name plain,
      CatalogRef.answer_memberOf?_of_listed built addressable found there]
    exact congrArg Except.ok (Option.filter_some_pos accepted)

/-- A map with a version for a key, and with another key. -/
def releases : World :=
  ⟨{ Heap.empty with maps := ⟨#[.ofList [("v1.2", .int 5), ("next", .int 6)]]⟩ }, .empty⟩

def releaseMap : Value := .map ⟨0, .int⟩

/-- A selector for all members. -/
def everything : Selector := ⟨⟨0⟩, [], false⟩

/-- The member for a key of the map. -/
def release (key : String) : Member := .ofTemplate (keyTemplate .int key) (some releaseMap)

theorem next_release_is_found :
    (Query.run releases fun h => everything.findAll h releaseMap).1 =
        .ok [release "next", release "v1.2"] ∧
      (release "next").target = some releaseMap ∧
      (Query.run releases fun h => everything.find? h "next" releaseMap).1 =
        .ok (some (release "next")) := by
  have built : (releases.catalogs.registry everything.catalog).Built := ⟨[], rfl⟩
  have addressable : releases.heap.Addressable := fun l => Nat.zero_le indexLimit
  have listed : (Query.run releases fun h => everything.findAll h releaseMap).1 =
      .ok [release "next", release "v1.2"] := rfl
  obtain ⟨bound, found⟩ := listed_members_are_found built addressable listed List.mem_cons_self
  exact ⟨listed, bound, found.2 rfl⟩

/-- The version is listed, and asking for it by its name finds nothing. -/
theorem dotted_release_is_not_found :
    (Query.run releases fun h => everything.findAll h releaseMap).1 =
        .ok [release "next", release "v1.2"] ∧
      (release "v1.2").name = "v1.2" ∧
      (Query.run releases fun h => everything.find? h "v1.2" releaseMap).1 = .ok none :=
  ⟨rfl, rfl, rfl⟩

/-- The members of a container are listed under different names.  Whoever asks for one of
the names afterwards, whatever characters it has, gets the very member that is listed under
it, and objects and tags have no others. -/
theorem listing_and_naming_agree {w : World} {d : CatalogRef} {target : Value} {deep : Bool}
    {ms : List Member} (built : (w.catalogs.registry d).Built) (addressable : w.heap.Addressable)
    (listed : (Query.run w fun h => d.membersOf h target deep).1 = .ok ms) :
    let after := (Query.run w fun h => d.membersOf h target deep).2
    let named := fun name => (Query.run after fun h => d.memberOf? h target name deep).1
    (ms.map (·.name)).Nodup ∧
      (∀ m ∈ ms, m.target = some target ∧ named m.name = .ok (some m)) ∧
      (target.containerKind.any (·.isTypeLevel) = true → ∀ name,
        named name = .ok (ms.find? (·.name == name)) ∧
          (named name = .ok none ↔ name ∉ ms.map (·.name))) := by
  intro after named
  have asked : ∀ name, named name =
      (d.memberOf? w.heap target name deep).answer w.catalogs.registry := by
    intro name
    show (Query.run after _).1 = _
    rw [Query.run_fst, Query.heap_run, Query.registry_run]
  rw [Query.run_fst] at listed
  refine ⟨?_, ?_, ?_⟩
  · obtain ⟨ts, found, rfl⟩ := CatalogRef.membersOf_eq_ok listed
    rw [List.map_map]
    exact CatalogRef.nodup_names_of_listed built found
  · intro m hm
    rw [asked]
    exact ⟨(CatalogRef.bound_of_membersOf listed hm).1,
      CatalogRef.answer_memberOf?_of_listed built addressable listed hm⟩
  · intro typed name
    rw [asked, CatalogRef.answer_memberOf?_of_type built typed listed]
    simp

/-- Of the map itself the version is found by its name. -/
theorem dotted_key_is_found :
    (Query.run releases fun h => (⟨0⟩ : CatalogRef).membersOf h releaseMap false).1 =
        .ok [release "next", release "v1.2"] ∧
      (Query.run (Query.run releases fun h => (⟨0⟩ : CatalogRef).membersOf h releaseMap false).2
        fun h => (⟨0⟩ : CatalogRef).memberOf? h releaseMap "v1.2" false).1 =
          .ok (some (release "v1.2")) := by
  have built : (releases.catalogs.registry ⟨0⟩).Built := ⟨[], rfl⟩
  have addressable : releases.heap.Addressable := fun l => Nat.zero_le indexLimit
  have listed : (Query.run releases fun h => (⟨0⟩ : CatalogRef).membersOf h releaseMap false).1 =
      .ok [release "next", release "v1.2"] := rfl
  obtain ⟨-, found, -⟩ := listing_and_naming_agree built addressable listed
  exact ⟨listed, (found (release "v1.2") (by simp)).2⟩

end Memberwise
