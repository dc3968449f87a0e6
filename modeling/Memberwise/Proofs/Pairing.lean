import Memberwise.Proofs.Transfer

/-!
# Pairing by name

A copy between containers of one type does not look for the members that it copies
into: those of the source are bound to the destination instead.  Which members there are
depends on the type alone, and since the members of an object have different names, each
one finds itself by its name.  The parameters of a tag may share a name, but none of them
is ever written.

So a copy that looks up the members of the destination has the same outcome, whatever the
accessors and mutators of the type do, and whatever selects, filters and transforms
(`copy_pairs_by_name`).  Only one thing is to be told apart.  A mutator may make its
object one of another type.  The members that were found for the destination before that
go on to be used, as those of the source do; a copy that looks each of them up only when
its turn comes goes the same way until the type is another one, and then may go on in
another way (`retyped_dial_parts_copies`).  Where no code does so, as on the heap, both
agree whatever else it does (`answer_copyIn_of_type_eq`).
-/

namespace Memberwise

namespace Copier

variable {σ : Type} (c : Copier) (x : CopySetting σ) (registryOf : CatalogRef → Registry)
  (source destination : Value)

/-- A copy that looks up each member of the destination by its name when its turn comes. -/
def copyByNameIn : EditOf σ MemberError Nat := do
  let members ← c.select x source
  x.copyMembers (c.findPartner? x false destination) source members 0

/-- A copy that looks up the members of the destination by name as it stands at first,
whatever becomes of it later. -/
def copyPairedIn : EditOf σ MemberError Nat := do
  let members ← c.select x source
  let first ← EditOf.look pure
  let partner? := fun src => EditOf.look fun _ =>
    c.partnerAs? (x.heap first) false (x.present first destination) destination src
  x.copyMembers partner? source members 0

/-- A copy on the heap that looks up each member of the destination by its name. -/
def copyByName : Edit MemberError Nat :=
  c.copyByNameIn c.setting source destination

/-- When the members to copy have been selected, both containers are of the type for which
those were listed. -/
def StartsAlike (s : σ) : Prop :=
  ∀ members first, (c.select x source).answer registryOf s = (.ok members, first) →
    sharesTemplates (x.present first source) (x.present first destination) = true ∧
      (x.present first source).type = (x.present s source).type

/-- Along some members a copy and one by name come alike to one at which the destination is
not of a given type. -/
def Parts (type : ValueType) (members : List Member) (count : Nat) (s : σ) : Prop :=
  ∃ before src rest reached later, members = before ++ src :: rest ∧
    (x.copyMembers (c.findPartner? x true destination) source before count).answer registryOf s =
      (.ok reached, later) ∧
    (x.copyMembers (c.findPartner? x false destination) source before count).answer registryOf s =
      (.ok reached, later) ∧
    (x.present later destination).type ≠ type

/-- They do so along the members that are selected, for the type of which the source was when
these were listed. -/
def Retyped (s : σ) : Prop :=
  ∃ members first, (c.select x source).answer registryOf s = (.ok members, first) ∧
    c.Parts x registryOf source destination (x.present s source).type members 0 first

end Copier

/-- The parameters of a tag are not written. -/
theorem CatalogRef.unwritable_of_tag {registryOf : CatalogRef → Registry} {d : CatalogRef}
    {h : Heap} {ts : List Template} {t : Template} {s : Tag}
    (found : (d.templatesOf h (.tag s) true).answer registryOf = .ok ts) (ht : t ∈ ts) :
    t.writable = false := by
  cases listed_of_templatesOf found ht with
  | param known stated => rfl

namespace Copier

variable {σ : Type} {c : Copier} {x : CopySetting σ} {registryOf : CatalogRef → Registry}
  {source destination listed : Value} {h : Heap} {ts : List Template} {t : Template} {s : σ}

theorem type_of_sharesTemplates {v u : Value} (shares : sharesTemplates v u = true) :
    v.type = u.type :=
  beq_iff_eq.1 (Bool.and_eq_true_iff.1 shares).2

/-- Values of the type of containers that share their members are such containers too. -/
theorem typed_of_sharesTemplates {v u : Value} (shares : sharesTemplates v u = true)
    (still : v.type = listed.type) :
    listed.containerKind.any (·.isTypeLevel) = true ∧ listed.type = u.type := by
  refine ⟨?_, still.symm.trans (type_of_sharesTemplates shares)⟩
  rw [← Value.containerKind_type, ← still, Value.containerKind_type]
  exact (Bool.and_eq_true_iff.1 shares).1

/-- What is selected is listed for the source as it stands, with the inherited members. -/
theorem exists_listed_of_select (deep : ∀ s, c.options.selector = some s → s.deep = true)
    {members : List Member} {first : σ}
    (selected : (c.select x source).answer registryOf s = (.ok members, first)) :
    ∃ ts, (c.sourceCatalog.templatesOf (x.heap s) (x.present s source) true).answer registryOf =
        .ok ts ∧ ∀ src ∈ members, ∃ t ∈ ts, src = .ofTemplate t (some source) := by
  have bound : ∀ ts : List Template, members.Sublist (ts.map fun t => .ofTemplate t (some source)) →
      ∀ src ∈ members, ∃ t ∈ ts, src = .ofTemplate t (some source) := by
    intro ts sub src hsrc
    obtain ⟨t, ht, rfl⟩ := List.mem_map.1 (sub.subset hsrc)
    exact ⟨t, ht, rfl⟩
  rw [select] at selected
  rw [sourceCatalog]
  cases chosen : c.options.selector with
  | none =>
      simp only [chosen, CopySetting.answer_membersOf, Prod.mk.injEq] at selected
      obtain ⟨ts, found, rfl⟩ := map_eq_ok.1 selected.1
      exact ⟨ts, found, bound ts (.refl _)⟩
  | some selector =>
      simp only [chosen, deep selector chosen, EditOf.answer_bind,
        CopySetting.answer_membersOf] at selected
      cases found : (selector.catalog.templatesOf (x.heap s) (x.present s source)
          true).answer registryOf with
      | error e =>
          rw [found] at selected
          cases selected
      | ok ts =>
          rw [found] at selected
          exact ⟨ts, found, bound ts (CopySetting.sublist_of_selectAmong selected)⟩

/-- Containers of one type start alike, unless what selects changes something. -/
theorem startsAlike_of_shares
    (still : c.options.selector ≠ none → ∀ m s, ((x.selects m).answer registryOf s).2 = s)
    (shares : sharesTemplates (x.present s source) (x.present s destination) = true) :
    c.StartsAlike x registryOf source destination s := by
  intro members first selected
  have kept : first = s := by
    rw [select] at selected
    cases chosen : c.options.selector with
    | none =>
        simp only [chosen, CopySetting.answer_membersOf, Prod.mk.injEq] at selected
        exact selected.2.symm
    | some selector =>
        simp only [chosen, EditOf.answer_bind, CopySetting.answer_membersOf] at selected
        cases found : (selector.catalog.templatesOf (x.heap s) (x.present s source)
            selector.deep).answer registryOf with
        | error e =>
            rw [found] at selected
            cases selected
        | ok ts =>
            rw [found] at selected
            refine CopySetting.eq_of_selectAmong (still ?_) selected
            rw [chosen]
            exact Option.some_ne_none selector
  subst kept
  exact ⟨shares, rfl⟩

theorem answer_copyIn : (c.copyIn x source destination).answer registryOf s =
    match (c.select x source).answer registryOf s with
    | (.ok members, first) =>
      (x.copyMembers (c.findPartner? x
        (sharesTemplates (x.present first source) (x.present first destination)) destination)
        source members 0).answer registryOf first
    | (.error e, after) => (.error e, after) := by
  rw [copyIn, EditOf.answer_bind]
  rcases (c.select x source).answer registryOf s with ⟨_ | members, first⟩
  · rfl
  · rfl

/-- The same partners are found in catalogs with the same registry, and for all values of
one type. -/
theorem answer_partnerAs?_of_type (registry : registryOf c.sourceCatalog = registryOf c.catalog)
    (typed : listed.containerKind.any (·.isTypeLevel) = true)
    (found : (c.sourceCatalog.templatesOf h listed true).answer registryOf = .ok ts)
    {present : Value} (same : listed.type = present.type) (mid : Heap) (src : Member) :
    (c.partnerAs? mid false present destination src).answer registryOf =
      .ok ((atPlaceOf? ts src.name).map fun t => .ofTemplate t (some destination)) := by
  have looked : (c.catalog.templateOf? mid present src.name true).answer registryOf =
      (c.sourceCatalog.templateOf? mid present src.name true).answer registryOf := by
    rw [CatalogRef.answer_templateOf?, CatalogRef.answer_templateOf?, registry]
  show (do return (← c.catalog.templateOf? mid present src.name true).map _).answer _ = _
  rw [Query.answer_bind_pure, looked, CatalogRef.answer_templateOf?_of_type typed same, found]
  rfl

/-- A listed member of the source is copied as if it were looked up for a value of the same
type: it is the one that is found, or none of that name is ever written. -/
theorem answer_copyMember_of_type (registry : registryOf c.sourceCatalog = registryOf c.catalog)
    (typed : listed.containerKind.any (·.isTypeLevel) = true)
    (found : (c.sourceCatalog.templatesOf h listed true).answer registryOf = .ok ts) (ht : t ∈ ts)
    {present : Value} (same : listed.type = present.type) {mid : Heap}
    {q? : Member → EditOf σ MemberError (Option Member)}
    (asks : (q? (.ofTemplate t (some source))).answer registryOf s =
      ((c.partnerAs? mid false present destination
        (.ofTemplate t (some source))).answer registryOf, s)) :
    (x.copyMember (c.findPartner? x true destination) source
      (.ofTemplate t (some source))).answer registryOf s =
    (x.copyMember q? source (.ofTemplate t (some source))).answer registryOf s := by
  have bound : (c.findPartner? x true destination (.ofTemplate t (some source))).answer
      registryOf s = (.ok (some (.ofTemplate t (some destination))), s) := rfl
  have asks : (q? (.ofTemplate t (some source))).answer registryOf s =
      (.ok ((atPlaceOf? ts t.name).map fun u => .ofTemplate u (some destination)), s) := by
    rw [asks, answer_partnerAs?_of_type registry typed found same]
    rfl
  by_cases tag : ∃ s, listed = .tag s
  · obtain ⟨s, rfl⟩ := tag
    rw [CopySetting.answer_copyMember_of_unwritable bound (CatalogRef.unwritable_of_tag found ht)]
    cases there : atPlaceOf? ts t.name with
    | none =>
        rw [there] at asks
        exact (CopySetting.answer_copyMember_of_absent asks).symm
    | some u =>
        rw [there] at asks
        have fixed := CatalogRef.unwritable_of_tag found (of_atPlaceOf? there).1
        exact (CopySetting.answer_copyMember_of_unwritable asks fixed).symm
  · have distinct := CatalogRef.nodup_names_of_templatesOf (fun s same => tag ⟨s, same⟩) found
    rw [atPlaceOf?_of_mem distinct ht] at asks
    exact CopySetting.answer_copyMember_congr (bound.trans asks.symm)

/-- What is looked up as the destination stands at first is what it shares with the source. -/
theorem answer_copyIn_of_startsAlike (deep : ∀ s, c.options.selector = some s → s.deep = true)
    (registry : registryOf c.sourceCatalog = registryOf c.catalog)
    (alike : c.StartsAlike x registryOf source destination s) :
    (c.copyIn x source destination).answer registryOf s =
      (c.copyPairedIn x source destination).answer registryOf s := by
  rw [answer_copyIn, copyPairedIn, EditOf.answer_bind]
  cases selected : (c.select x source).answer registryOf s with
  | mk result first =>
      cases result with
      | error e => rfl
      | ok members =>
          obtain ⟨shares, still⟩ := alike members first selected
          obtain ⟨ts, found, among⟩ := exists_listed_of_select deep selected
          obtain ⟨typed, same⟩ := typed_of_sharesTemplates shares still
          dsimp only
          rw [shares, EditOf.answer_bind, EditOf.answer_look]
          refine CopySetting.answer_copyMembers_congr (fun src hsrc mid => ?_) 0 first
          obtain ⟨t, ht, rfl⟩ := among src hsrc
          exact answer_copyMember_of_type registry typed found ht same
            (EditOf.answer_look registryOf _ mid)

/-- What parts both later parts them. -/
theorem Parts.cons {type : ValueType} {src : Member} {rest : List Member} {count : Nat}
    {assigned : Bool} {after : σ}
    (shared : (x.copyMember (c.findPartner? x true destination) source src).answer registryOf s =
      (.ok assigned, after))
    (byName : (x.copyMember (c.findPartner? x false destination) source src).answer registryOf s =
      (.ok assigned, after))
    (later : c.Parts x registryOf source destination type rest
      (if assigned then count + 1 else count) after) :
    c.Parts x registryOf source destination type (src :: rest) count s := by
  obtain ⟨before, at_, behind, reached, last, rfl, first, second, retyped⟩ := later
  refine ⟨src :: before, at_, behind, reached, last, rfl, ?_, ?_, retyped⟩
  · rw [CopySetting.copyMembers, EditOf.answer_bind, shared]
    exact first
  · rw [CopySetting.copyMembers, EditOf.answer_bind, byName]
    exact second

/-- Along listed members a copy and one by name go alike, unless the destination becomes one
of another type. -/
theorem answer_copyMembers_or_parts (registry : registryOf c.sourceCatalog = registryOf c.catalog)
    (typed : listed.containerKind.any (·.isTypeLevel) = true)
    (found : (c.sourceCatalog.templatesOf h listed true).answer registryOf = .ok ts)
    {members : List Member} (among : ∀ src ∈ members, ∃ t ∈ ts, src = .ofTemplate t (some source))
    (count : Nat) (s : σ) :
    (x.copyMembers (c.findPartner? x true destination) source members count).answer registryOf s =
        (x.copyMembers (c.findPartner? x false destination) source members count).answer
          registryOf s ∨
      c.Parts x registryOf source destination listed.type members count s := by
  induction members generalizing count s with
  | nil => exact .inl rfl
  | cons src rest ih =>
      obtain ⟨head, tail⟩ := List.forall_mem_cons.1 among
      obtain ⟨t, ht, rfl⟩ := head
      by_cases same : listed.type = (x.present s destination).type
      · have here : (x.copyMember (c.findPartner? x true destination) source
            (.ofTemplate t (some source))).answer registryOf s =
            (x.copyMember (c.findPartner? x false destination) source
              (.ofTemplate t (some source))).answer registryOf s :=
          answer_copyMember_of_type registry typed found ht same
            (EditOf.answer_look registryOf _ s)
        rw [CopySetting.copyMembers, CopySetting.copyMembers, EditOf.answer_bind,
          EditOf.answer_bind, here]
        rcases stepped : (x.copyMember (c.findPartner? x false destination) source
          (.ofTemplate t (some source))).answer registryOf s with ⟨_ | assigned, after⟩
        · exact .inl rfl
        · exact (ih tail _ after).imp_right fun later => .cons (here.trans stepped) stepped later
      -- the first member at which the type is another one parts the two
      · exact .inr ⟨[], _, rest, count, s, rfl, rfl, rfl, fun e => same e.symm⟩

/-- A copy and one by name go alike, unless the destination becomes one of another type. -/
theorem answer_copyIn_or_retyped (deep : ∀ s, c.options.selector = some s → s.deep = true)
    (registry : registryOf c.sourceCatalog = registryOf c.catalog) (s : σ) :
    (c.copyIn x source destination).answer registryOf s =
        (c.copyByNameIn x source destination).answer registryOf s ∨
      c.Retyped x registryOf source destination s := by
  rw [answer_copyIn, copyByNameIn, EditOf.answer_bind]
  cases selected : (c.select x source).answer registryOf s with
  | mk result first =>
      cases result with
      | error e => exact .inl rfl
      | ok members =>
          obtain ⟨ts, found, among⟩ := exists_listed_of_select deep selected
          dsimp only
          cases shares : sharesTemplates (x.present first source) (x.present first destination) with
          | false => exact .inl rfl
          | true =>
              by_cases same : (x.present first destination).type = (x.present s source).type
              · have still := (type_of_sharesTemplates shares).trans same
                obtain ⟨typed, -⟩ := typed_of_sharesTemplates shares still
                exact (answer_copyMembers_or_parts registry typed found among 0 first).imp_right
                  fun parts => ⟨members, first, selected, parts⟩
              · cases members with
                | nil => exact .inl rfl
                | cons src rest =>
                    exact .inr ⟨_, first, selected, [], src, rest, 0, first, rfl, rfl, rfl, same⟩

/-- Containers of different types are paired by name anyway. -/
theorem answer_copyIn_of_apart
    (apart : ∀ s, sharesTemplates (x.present s source) (x.present s destination) = false) :
    (c.copyIn x source destination).answer registryOf s =
      (c.copyByNameIn x source destination).answer registryOf s := by
  rw [answer_copyIn, copyByNameIn, EditOf.answer_bind]
  rcases (c.select x source).answer registryOf s with ⟨_ | members, first⟩
  · rfl
  · simp only [apart]

theorem sharesTemplates_congr {v v' u u' : Value} (source : v.type = v'.type)
    (destination : u.type = u'.type) : sharesTemplates v u = sharesTemplates v' u' := by
  rw [sharesTemplates, sharesTemplates, ← Value.containerKind_type, source, destination,
    Value.containerKind_type]

/-- Where the code behind members and options leaves the types of both containers as they are,
a copy and one by name go alike, whatever else it does. -/
theorem answer_copyIn_of_type_eq (deep : ∀ s, c.options.selector = some s → s.deep = true)
    (registry : registryOf c.sourceCatalog = registryOf c.catalog)
    (left : ∀ s, (x.present s source).type = source.type)
    (right : ∀ s, (x.present s destination).type = destination.type) (s : σ) :
    (c.copyIn x source destination).answer registryOf s =
      (c.copyByNameIn x source destination).answer registryOf s := by
  cases shares : sharesTemplates source destination with
  | false =>
      exact answer_copyIn_of_apart fun s => (sharesTemplates_congr (left s) (right s)).trans shares
  | true =>
      refine (answer_copyIn_or_retyped deep registry s).resolve_right ?_
      rintro ⟨members, first, -, before, src, rest, reached, later, -, -, -, other⟩
      exact other ((right later).trans ((type_of_sharesTemplates shares).symm.trans (left s).symm))

/-- On the heap no code makes a container one of another type. -/
theorem answer_copy_byName (deep : ∀ s, c.options.selector = some s → s.deep = true)
    (registry : registryOf c.sourceCatalog = registryOf c.catalog) (h : Heap) :
    (c.copy source destination).answer registryOf h =
      (c.copyByName source destination).answer registryOf h :=
  answer_copyIn_of_type_eq deep registry (fun _ => rfl) (fun _ => rfl) h

end Copier

/-- Devices with a label, and dials, which have a unit too and a level that is stuck. -/
def devices : List Definition :=
  [.type ((TypeDraft.plain "Device").withField (.plain "label" .string)),
   .type (((((TypeDraft.plain "Dial").extending "Device").withField (.plain "unit" .string)
     ).withAccessor (.ofSlot "level" .int)).withMutator ⟨"level", .int, [], Setter.failing "stuck"⟩)]

def dialWorld : World :=
  ⟨{ Heap.empty with
      objects := ⟨#[.ofList [("label", .string "left"), ("level", .int 3), ("unit", .string "bar")],
        .empty]⟩ },
   (Catalogs.empty.add (Builder.empty.declareAll devices).build).2⟩

def leftDial : Value := .object ⟨0, "Dial", ["Device"]⟩

def rightDial : Value := .object ⟨1, "Dial", ["Device"]⟩

/-- Copies what a deep selector without predicates chooses. -/
def dialCopier : Copier := ⟨⟨0⟩, { CopyOptions.plain with selector := some ⟨⟨0⟩, [], true⟩ }⟩

/-- A setting in which the right dial becomes a mere device when its unit is written.  The
state is whether it has. -/
def demoting : CopySetting Bool where
  heap _ := dialWorld.heap
  present
    | true, .object ⟨1, _, _⟩ => .object ⟨1, "Device", []⟩
    | _, v => v
  selects _ := pure true
  read src source := EditOf.look fun _ => src.readIn dialWorld.heap source
  offer pair := pure (some pair.value)
  assign dest _ := do
    if (← EditOf.look pure) && dest.declaringType == .object "Dial" then
      throw (.handling dest.name (.access (.typeMismatch "Dial" "Device")))
    else if dest.name == "unit" then EditOf.update fun _ => pure true
    else pure ()

/-- A copy that shares the members of the source ends at the level, which a device does not
have; one that looks it up by then passes it over. -/
theorem retyped_dial_parts_copies :
    (dialCopier.copyIn demoting leftDial rightDial).answer dialWorld.catalogs.registry false =
        (.error (.handling "level" (.access (.typeMismatch "Dial" "Device"))), true) ∧
      (dialCopier.copyByNameIn demoting leftDial rightDial).answer dialWorld.catalogs.registry
        false = (.ok 2, true) :=
  ⟨rfl, rfl⟩

end Memberwise
