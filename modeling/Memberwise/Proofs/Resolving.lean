import Memberwise.Proofs.Confinement

/-!
# Paths as members

A path is resolved to a member before it is walked.  Where the walk comes to its end,
the member does there what the leaf does on its owner (`Member.Mirrors`).  Resolution
goes further than walks do: behind a value that is null or cannot be read it goes on
along declared types.  A member that was come by in this way is of no use as long as
the walk stalls there (`Stalls`).
-/

namespace Memberwise

/-- A member says what the leaf of a path does, and goes by the path's name and the
declaring type of the first member on it. -/
structure Member.Describes (m : Member) (path : String) (target : Value) (first leaf : Template) :
    Prop where
  name : m.name = path
  target : m.target = some target
  declaredType : m.declaredType = leaf.declaredType
  declaringType : m.declaringType = first.declaringType
  readable : m.readable = leaf.readable
  writable : m.writable = leaf.writable
  tags : m.tags = leaf.tags

/-- Reading and writing a member comes to reading and writing a leaf of an owner.  What
fails there fails under the name of the path. -/
structure Member.Mirrors (w : World) (m : Member) (path : String) (owner : Value)
    (leaf : Template) : Prop where
  reads : (Query.run w fun h => m.read h).1 =
    if leaf.readable then
      (Query.run w fun h => (Member.ofTemplate leaf (some owner)).readIn h owner).1.mapError
        fun e => .handling path (.member e)
    else .error (.unreadable path)
  writes : ∀ v, ((m.assign v).run w).1 =
    if leaf.writable then
      (((Member.ofTemplate leaf (some owner)).assignIn owner v).run w).1.mapError
        fun e => .handling path (.member e)
    else .error (.unwritable path)
  effect : ∀ v, ((m.assign v).run w).2.heap =
    (((Member.ofTemplate leaf (some owner)).assignIn owner v).run w).2.heap

/-- Reading and writing a member fails, and changes nothing. -/
structure Member.Refuses (w : World) (m : Member) : Prop where
  reads : ∃ e, (Query.run w fun h => m.read h).1 = .error e
  writes : ∀ v, ∃ e, ((m.assign v).run w).1 = .error e
  effect : ∀ v, ((m.assign v).run w).2.heap = w.heap

/-- On the way along the names, and not only at its end, there is a member that cannot be
read or reads as null. -/
inductive Stalls (registryOf : CatalogRef → Registry) (d : CatalogRef) (h : Heap) (deep : Bool) :
    Value → List String → Prop
  | unreadable {c : Value} {name : String} {names : List String} {t : Template}
      (more : names ≠ []) (found : (d.templateOf? h c name deep).answer registryOf = .ok (some t))
      (closed : t.readable = false) : Stalls registryOf d h deep c (name :: names)
  | null {c : Value} {name : String} {names : List String} {t : Template}
      (more : names ≠ []) (found : (d.templateOf? h c name deep).answer registryOf = .ok (some t))
      (read : t.read h c = .ok .null) : Stalls registryOf d h deep c (name :: names)
  | through {c w : Value} {name : String} {names : List String} {t : Template}
      (found : (d.templateOf? h c name deep).answer registryOf = .ok (some t))
      (read : t.read h c = .ok w) (rest : Stalls registryOf d h deep w names) :
      Stalls registryOf d h deep c (name :: names)

section Resolving

variable {registryOf : CatalogRef → Registry} {d : CatalogRef} {h : Heap} {deep : Bool}
  {c target : Value} {name path : String} {names : List String} {t first leaf : Template}

theorem MemberPath.answer_segment {p : MemberPath}
    (found : (p.catalog.templateOf? h c name p.deep).answer registryOf = .ok (some t)) :
    (p.segment h c name).answer registryOf = .ok t := by
  rw [segment, Query.answer_bind, Query.answer_mapError, found]
  rfl

/-- A walk with more names before it reads the member of the first one, and goes on there. -/
theorem MemberPath.answer_walk_cons {p : MemberPath} (more : names ≠ [])
    (found : (p.catalog.templateOf? h c name p.deep).answer registryOf = .ok (some t)) :
    (p.walk h (name :: names) c).answer registryOf =
      ((t.read h c).mapError Fault.member).bind fun w =>
        if w.isNull then .error (.access (.failed ("'" ++ name ++ "' is null")))
        else (p.walk h names w).answer registryOf := by
  obtain ⟨next, later, rfl⟩ := List.exists_cons_of_ne_nil more
  rw [walk, Query.answer_bind, answer_segment found]
  · rw [Except.bind, Query.answer_bind, Query.answer_mapError, Query.answer_ofExcept]
    refine congrArg _ (funext fun w => ?_)
    cases w.isNull with
    | true => rfl
    | false => rfl
  · rintro ⟨⟩

namespace Stalls

theorem ne_nil (stalls : Stalls registryOf d h deep c names) : names ≠ [] := by
  cases stalls with
  | unreadable more found closed => exact List.cons_ne_nil _ _
  | null more found read => exact List.cons_ne_nil _ _
  | through found read rest => exact List.cons_ne_nil _ _

theorem isContainer (stalls : Stalls registryOf d h deep c names) : c.isContainer = true := by
  cases stalls with
  | unreadable more found closed => exact Walks.isContainer_of_found found
  | null more found read => exact Walks.isContainer_of_found found
  | through found read rest => exact Walks.isContainer_of_found found

/-- A path does not get past where it stalls. -/
theorem exists_error (stalls : Stalls registryOf d h deep c names) (segments : List String) :
    ∃ e, (MemberPath.walk ⟨d, segments, deep⟩ h names c).answer registryOf = .error e := by
  induction stalls with
  | @unreadable c name names t more found closed =>
      have fails : t.read h c = .error (.unreadable t.name) := by
        rw [Template.read, closed]
        rfl
      rw [MemberPath.answer_walk_cons more found, fails]
      exact ⟨_, rfl⟩
  | null more found read =>
      rw [MemberPath.answer_walk_cons more found, read]
      exact ⟨_, rfl⟩
  | through found read rest ih =>
      rw [MemberPath.answer_walk_cons rest.ne_nil found, read, mapError_ok]
      simp only [Except.bind, Walks.isNull_eq_false rest.isContainer]
      exact ih

end Stalls

namespace Site

/-- Behind a member is its value, or its type where it has none. -/
theorem follow_cases {site : Site}
    (followed : ((Site.value c).follow h t).answer registryOf = .ok site) :
    t.readable = false ∨ t.read h c = .ok .null ∨ ∃ w, t.read h c = .ok w ∧ site = .value w := by
  cases readable : t.readable with
  | false => exact .inl rfl
  | true =>
      rw [follow, if_pos readable, Query.answer_bind, Query.answer_ofExcept] at followed
      obtain ⟨w, read, followed⟩ := bind_eq_ok.1 followed
      cases w with
      | null => exact .inr (.inl read)
      | _ =>
          cases followed
          exact .inr (.inr ⟨_, read, rfl⟩)

theorem leaf?_cons_eq_some {site : Site} {next : String}
    (resolved : (leaf? d h deep t site (next :: names)).answer registryOf = .ok (some leaf)) :
    ∃ site' t', (site.follow h t).answer registryOf = .ok site' ∧
      (site'.find? d h deep next).answer registryOf = .ok (some t') ∧
      (leaf? d h deep t' site' names).answer registryOf = .ok (some leaf) := by
  rw [leaf?, Query.answer_bind] at resolved
  obtain ⟨site', followed, resolved⟩ := bind_eq_ok.1 resolved
  rw [Query.answer_bind] at resolved
  obtain ⟨t?, found, resolved⟩ := bind_eq_ok.1 resolved
  cases t? with
  | none => cases resolved
  | some t' => exact ⟨site', t', followed, found, resolved⟩

theorem templateOf?_of_find?
    (found : ((Site.value c).find? d h deep name).answer registryOf = .ok (some t)) :
    (d.templateOf? h c name deep).answer registryOf = .ok (some t) := by
  rw [find?] at found
  split at found
  · exact found
  · cases found

end Site

/-- What is resolved along values is walked to, or the walk stalls. -/
theorem walks_or_stalls (found : (d.templateOf? h c name deep).answer registryOf = .ok (some t))
    (resolved : (Site.leaf? d h deep t (.value c) names).answer registryOf = .ok (some leaf)) :
    (∃ owner, Walks registryOf d h deep c (name :: names) owner leaf) ∨
      Stalls registryOf d h deep c (name :: names) := by
  induction names generalizing c name t with
  | nil =>
      cases resolved
      exact .inl ⟨c, .here found⟩
  | cons next rest ih =>
      obtain ⟨site, t', followed, found', resolved⟩ := Site.leaf?_cons_eq_some resolved
      rcases Site.follow_cases followed with closed | null | ⟨w, read, rfl⟩
      · exact .inr (.unreadable (List.cons_ne_nil _ _) found closed)
      · exact .inr (.null (List.cons_ne_nil _ _) found null)
      · rcases ih (Site.templateOf?_of_find? found') resolved with ⟨owner, walks⟩ | stalls
        · exact .inl ⟨owner, .through found read walks⟩
        · exact .inr (.through found read stalls)

/-- What resolution makes of a path on a container. -/
theorem CatalogRef.resolvePath?_cases {type : ValueType} {m : Member}
    (resolved : (d.resolvePath? h path (some target) type deep).answer registryOf =
      .ok (some m)) :
    ∃ name rest first leaf, pathSegments path = name :: rest ∧
      (d.templateOf? h target name deep).answer registryOf = .ok (some first) ∧
      (Site.leaf? d h deep first (.value target) rest).answer registryOf = .ok (some leaf) ∧
      m.Describes path target first leaf := by
  rw [resolvePath?] at resolved
  split at resolved
  · cases resolved
  · rename_i name rest segments
    rw [Query.answer_bind] at resolved
    obtain ⟨first?, found, resolved⟩ := bind_eq_ok.1 resolved
    cases first? with
    | none => cases resolved
    | some first =>
        rw [Query.answer_bind] at resolved
        obtain ⟨leaf?, ends, resolved⟩ := bind_eq_ok.1 resolved
        cases leaf? with
        | none => cases resolved
        | some leaf =>
            cases resolved
            exact ⟨name, rest, first, leaf, segments, Site.templateOf?_of_find? found, ends,
              rfl, rfl, rfl, rfl, rfl, rfl, rfl⟩

/-- The end of a walk is what resolution comes to. -/
theorem Walks.exists_resolved {owner : Value} (type : ValueType)
    (walks : Walks registryOf d h deep target (pathSegments path) owner leaf) :
    ∃ m first, (d.resolvePath? h path (some target) type deep).answer registryOf =
        .ok (some m) ∧
      (∃ name ∈ (pathSegments path).head?,
        (d.templateOf? h target name deep).answer registryOf = .ok (some first)) ∧
      m.Describes path target first leaf := by
  obtain ⟨name, rest, first, segments, found, resolved⟩ := walks.exists_first
  have resolves : (d.resolvePath? h path (some target) type deep).answer registryOf =
      .ok (some ⟨⟨path, leaf.declaredType, first.declaringType, leaf.readable, leaf.writable,
        leaf.tags⟩, .path ⟨d, name :: rest, deep⟩, some target⟩) := by
    rw [CatalogRef.resolvePath?, segments]
    simp only [Option.elim_some, Query.answer_bind, found, Except.bind, resolved]
    rfl
  refine ⟨_, first, resolves, ⟨name, ?_, Site.templateOf?_of_find? found⟩, rfl, rfl, rfl, rfl, rfl,
    rfl, rfl⟩
  rw [segments]
  rfl

/-! What a member for a path does. -/

theorem mapError_mapError {ε δ γ α : Type} (f : ε → δ) (g : δ → γ) (x : Except ε α) :
    (x.mapError f).mapError g = x.mapError fun e => g (f e) := by
  cases x with
  | error e => rfl
  | ok a => rfl

theorem Walks.answer_writeIn_ofTemplate (registryOf : CatalogRef → Registry)
    (bound : Option Value) (v : Value) :
    ((Member.ofTemplate t bound).writeIn h c v).answer registryOf = t.write h c v := by
  have writable : (Member.ofTemplate t bound).writable = t.writable := rfl
  rw [Member.writeIn, Template.write, writable]
  cases t.writable with
  | true => rfl
  | false => rfl

theorem MemberPath.answer_read {p : MemberPath} : (p.read h target).answer registryOf =
    ((p.walk h p.segments target).answer registryOf).bind fun ends =>
      (ends.2.read h ends.1).mapError .member := by
  rw [MemberPath.read, Query.answer_bind]
  rfl

theorem MemberPath.answer_write {p : MemberPath} (v : Value) :
    (p.write h target v).answer registryOf =
      ((p.walk h p.segments target).answer registryOf).bind fun ends =>
        (ends.2.write h ends.1 v).mapError .member := by
  rw [MemberPath.write, Query.answer_bind]
  rfl

namespace Member

variable {m : Member}

/-- A bound member for a path is read along it. -/
theorem answer_read_path (bound : m.target = some target) {p : MemberPath}
    (route : m.route = .path p) : (m.read h).answer registryOf =
      if m.readable then ((p.read h target).answer registryOf).mapError (.handling m.name)
      else .error (.unreadable m.name) := by
  simp only [read, bound, readIn, route, readRoute]
  cases m.readable with
  | true => exact Query.answer_mapError _ _ _
  | false => rfl

theorem answer_write_path (bound : m.target = some target) {p : MemberPath}
    (route : m.route = .path p) (v : Value) : (m.write h v).answer registryOf =
      if m.writable then ((p.write h target v).answer registryOf).mapError (.handling m.name)
      else .error (.unwritable m.name) := by
  simp only [write, bound, writeIn, route, writeRoute]
  cases m.writable with
  | true => exact Query.answer_mapError _ _ _
  | false => rfl

theorem Describes.mirrors {w : World} {owner : Value}
    (describes : m.Describes path target first leaf)
    (route : m.route = .path ⟨d, pathSegments path, deep⟩)
    (walks : Walks w.catalogs.registry d w.heap deep target (pathSegments path) owner leaf) :
    m.Mirrors w path owner leaf := by
  have walked := walks.answer_walk (pathSegments path)
  have written : ∀ v, (m.write w.heap v).answer w.catalogs.registry =
      if leaf.writable then
        (leaf.write w.heap owner v).mapError fun e => .handling path (.member e)
      else .error (.unwritable path) := by
    intro v
    rw [answer_write_path describes.target route, describes.writable, describes.name,
      MemberPath.answer_write, walked]
    exact congrArg (ite _ · _) (mapError_mapError _ _ _)
  have outcome : ∀ v, (m.assign v).answer w.catalogs.registry w.heap = _ :=
    fun v => EditOf.answer_update w.catalogs.registry (fun h => m.write h v) w.heap
  have leafOutcome : ∀ v, ((ofTemplate leaf (some owner)).assignIn owner v).answer
      w.catalogs.registry w.heap = _ :=
    fun v => EditOf.answer_update w.catalogs.registry
      (fun h => (ofTemplate leaf (some owner)).writeIn h owner v) w.heap
  simp only [written] at outcome
  simp only [Walks.answer_writeIn_ofTemplate] at leafOutcome
  constructor
  · rw [Query.run_fst, Query.run_fst, answer_read_path describes.target route, describes.readable,
      describes.name, MemberPath.answer_read, walked, Walks.answer_readIn_ofTemplate]
    exact congrArg (ite _ · _) (mapError_mapError _ _ _)
  · intro v
    rw [Edit.run_fst, Edit.run_fst, outcome, leafOutcome]
    cases leaf.writable with
    | false => rfl
    | true =>
        cases leaf.write w.heap owner v with
        | error e => rfl
        | ok after => rfl
  · intro v
    rw [Edit.heap_run, Edit.heap_run, outcome, leafOutcome]
    cases writable : leaf.writable with
    | false =>
        have refused : leaf.write w.heap owner v = .error (.unwritable leaf.name) := by
          rw [Template.write, writable]
          rfl
        rw [refused]
        rfl
    | true =>
        cases leaf.write w.heap owner v with
        | error e => rfl
        | ok after => rfl

/-- Where the walk stalls, neither reading nor writing comes to anything. -/
theorem Describes.refuses {w : World} (describes : m.Describes path target first leaf)
    (route : m.route = .path ⟨d, pathSegments path, deep⟩)
    (stalls : Stalls w.catalogs.registry d w.heap deep target (pathSegments path)) :
    m.Refuses w := by
  obtain ⟨e, walked⟩ := stalls.exists_error (pathSegments path)
  have written : ∀ v, ∃ err, (m.write w.heap v).answer w.catalogs.registry = .error err := by
    intro v
    rw [answer_write_path describes.target route, MemberPath.answer_write, walked]
    cases m.writable with
    | true => exact ⟨_, rfl⟩
    | false => exact ⟨_, rfl⟩
  have outcome : ∀ v, ∃ err, (m.assign v).answer w.catalogs.registry w.heap =
      (.error err, w.heap) := by
    intro v
    obtain ⟨err, failed⟩ := written v
    refine ⟨err, ?_⟩
    rw [assign, EditOf.answer_update, failed]
  constructor
  · rw [Query.run_fst, answer_read_path describes.target route, MemberPath.answer_read, walked]
    cases m.readable with
    | true => exact ⟨_, rfl⟩
    | false => exact ⟨_, rfl⟩
  · intro v
    obtain ⟨err, failed⟩ := outcome v
    exact ⟨err, by rw [Edit.run_fst, failed]⟩
  · intro v
    obtain ⟨err, failed⟩ := outcome v
    rw [Edit.heap_run, failed]

end Member

end Resolving

/-- A path that can be walked is resolved to a member that mirrors its leaf.  A member
that a path is resolved to describes the leaf of the walk, or the walk stalls, and
then the member refuses to be read and written. -/
theorem resolution_agrees_with_walk (w : World) (d : CatalogRef) (deep : Bool) (path : String)
    (target : Value) (type : ValueType) :
    let registryOf := w.catalogs.registry
    let resolved :=
      (Query.run w fun h => d.resolvePath? h path (some target) type deep).1
    (∀ owner leaf, Walks registryOf d w.heap deep target (pathSegments path) owner leaf →
      ∃ m first, resolved = .ok (some m) ∧
        (∃ name ∈ (pathSegments path).head?,
          (d.templateOf? w.heap target name deep).answer registryOf = .ok (some first)) ∧
        m.Describes path target first leaf ∧ m.Mirrors w path owner leaf) ∧
    ∀ m, resolved = .ok (some m) →
      (∃ owner first leaf, Walks registryOf d w.heap deep target (pathSegments path) owner leaf ∧
        m.Describes path target first leaf) ∨
      Stalls registryOf d w.heap deep target (pathSegments path) ∧ m.Refuses w := by
  intro registryOf resolved
  have asked : resolved =
      (d.resolvePath? w.heap path (some target) type deep).answer registryOf := Query.run_fst w _
  rw [asked]
  constructor
  · intro owner leaf walks
    obtain ⟨m, first, resolves, starts, describes⟩ := walks.exists_resolved type
    have route := (CatalogRef.resolvePath?_eq_some resolves).2
    exact ⟨m, first, resolves, starts, describes, describes.mirrors route walks⟩
  · intro m resolves
    obtain ⟨name, rest, first, leaf, segments, found, ends, describes⟩ :=
      CatalogRef.resolvePath?_cases resolves
    have route := (CatalogRef.resolvePath?_eq_some resolves).2
    have ways := walks_or_stalls found ends
    rw [← segments] at ways
    rcases ways with ⟨owner, walks⟩ | stalls
    · exact .inl ⟨owner, first, leaf, walks, describes⟩
    · exact .inr ⟨stalls, describes.refuses route stalls⟩

/-- Clerks with a name and a clerk that they answer to. -/
def clerks : List Definition :=
  [.type (TypeDraft.plain "Person"),
   .type ((((TypeDraft.plain "Clerk").extending "Person").withField
     (.plain "name" .string)).withField (.plain "boss" (.object "Clerk")))]

def clerk (id : Nat) : Value := .object ⟨id, "Clerk", ["Person"]⟩

/-- A clerk with a boss, and the boss, who has none. -/
def clerkWorld : World :=
  ⟨{ Heap.empty with objects := ⟨#[.ofList [("name", .string "Bob"), ("boss", clerk 1)],
      .ofList [("name", .string "Ada")]]⟩ },
   (Catalogs.empty.add (Builder.empty.declareAll clerks).build).2⟩

theorem boss_of_bob_has_a_name_and_no_boss :
    (∃ m, (Query.run clerkWorld fun h => CatalogRef.resolvePath? ⟨0⟩ h "boss.name"
        (some (clerk 0)) (.object "Clerk") true).1 = .ok (some m) ∧
      (Query.run clerkWorld fun h => m.read h).1 = .ok (.string "Ada")) ∧
    ∃ m, (Query.run clerkWorld fun h => CatalogRef.resolvePath? ⟨0⟩ h "boss.boss.name"
        (some (clerk 0)) (.object "Clerk") true).1 = .ok (some m) ∧
      m.declaredType = .string ∧ m.Refuses clerkWorld := by
  constructor
  · obtain ⟨walked, -⟩ := resolution_agrees_with_walk clerkWorld ⟨0⟩ true "boss.name" (clerk 0)
      (.object "Clerk")
    have segments : pathSegments "boss.name" = ["boss", "name"] := by decide
    rw [segments] at walked
    obtain ⟨m, first, resolved, -, -, mirrors⟩ :=
      walked (clerk 1) _ (.through (w := clerk 1) rfl rfl (.here rfl))
    refine ⟨m, resolved, mirrors.reads.trans ?_⟩
    rw [if_pos rfl]
    rfl
  · obtain ⟨-, resolves⟩ := resolution_agrees_with_walk clerkWorld ⟨0⟩ true "boss.boss.name"
      (clerk 0) (.object "Clerk")
    have segments : pathSegments "boss.boss.name" = ["boss", "boss", "name"] := by decide
    have stalls : Stalls clerkWorld.catalogs.registry ⟨0⟩ clerkWorld.heap true (clerk 0)
        ["boss", "boss", "name"] :=
      .through (w := clerk 1) rfl rfl (.null (List.cons_ne_nil _ _) rfl rfl)
    rw [segments] at resolves
    obtain ⟨m, resolved, type⟩ : ∃ m, (Query.run clerkWorld fun h => CatalogRef.resolvePath? ⟨0⟩ h
        "boss.boss.name" (some (clerk 0)) (.object "Clerk") true).1 = .ok (some m) ∧
          m.declaredType = .string := ⟨_, rfl, rfl⟩
    refine ⟨m, resolved, type, ?_⟩
    rcases resolves m resolved with ⟨owner, first, leaf, walks, -⟩ | ⟨-, refuses⟩
    · obtain ⟨e, failed⟩ := stalls.exists_error []
      cases (walks.answer_walk []).symm.trans failed
    · exact refuses

end Memberwise
