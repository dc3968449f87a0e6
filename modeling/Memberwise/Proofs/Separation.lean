import Memberwise.Proofs.Construction
import Memberwise.Proofs.Placements
import Memberwise.Proofs.Positions

/-!
# Entries and positions of a run

`ViolatedAt` says at which position a run finds which tag violated, by the names on
the way there and not yet by a path.  There is one member at a position, with one
value.  A report has one element for each position exactly if their paths differ, as
they do if no name on the way has a dot in it (`entries_stand_for_positions`).
-/

namespace Memberwise

namespace Engine

variable (registryOf : CatalogRef → Registry) (h : Heap)

/-- At the position that the names lead to from a container, a member with some value
violates a tag. -/
inductive ViolatedAt : Engine → Value → Placement
  /-- The validator of the tag does not find the value of a member valid. -/
  | own {e : Engine} {target v : Value} {m : Member} {t : Tag} {verdict : Verdict}
      (looks : e.Looks registryOf h target m v) (tagged : t ∈ m.tags)
      (gives : e.factory.Gives registryOf (e.contextOf h target m t) h v verdict)
      (invalid : verdict.isValid = false) : ViolatedAt e target [m.name] m v t
  /-- The value of a member is to be valid inside. -/
  | valid {e inner : Engine} {target v w : Value} {m n : Member} {s t : Tag} {leaf : Leaf}
      {verdict : Verdict} {names : List String}
      (looks : e.Looks registryOf h target m v) (tagged : s ∈ m.tags)
      (decides : e.factory.Decides registryOf (e.contextOf h target m s) h v leaf verdict)
      (validator : leaf.validator = BuiltIn.valid)
      (merges : (registryOf e.catalog).mergesElements s = true) (nested : e.nested = .ok inner)
      (found : ViolatedAt inner v names n w t) : ViolatedAt e target (m.name :: names) n w t
  /-- The items of the value of a member are to be valid inside. -/
  | valids {e inner : Engine} {target v u w : Value} {m item n : Member} {s t : Tag} {leaf : Leaf}
      {verdict : Verdict} {items : List Member} {names : List String}
      (looks : e.Looks registryOf h target m v) (tagged : s ∈ m.tags)
      (decides : e.factory.Decides registryOf (e.contextOf h target m s) h v leaf verdict)
      (validator : leaf.validator = BuiltIn.valids)
      (merges : (registryOf e.catalog).mergesElements s = true) (nested : e.nested = .ok inner)
      (iterates : v.iterates = true)
      (itemized : (e.catalog.membersOf h v false).answer registryOf = .ok items)
      (listed : item ∈ items) (read : (item.read h).answer registryOf = .ok u)
      (found : ViolatedAt inner u names n w t) :
      ViolatedAt e target (m.name :: item.name :: names) n w t

variable {registryOf h} {patterns : PatternEngine} {d : CatalogRef} {e : Engine}
  {target v v' w : Value} {m m' n : Member} {t t' : Tag} {names : List String} {r : Report}

/-! ### One member at a position -/

/-- Only members of objects have tags, and of each name only one. -/
theorem Looks.object_of_tagged (looks : e.Looks registryOf h target m v) (tagged : t ∈ m.tags) :
    (∃ o, target = .object o) ∧ (m.tags.map (·.name)).Nodup := by
  obtain ⟨ms, listed, member⟩ := looks.listed
  obtain ⟨ts, found, rfl⟩ := CatalogRef.membersOf_eq_ok listed
  obtain ⟨template, htemplate, rfl⟩ := List.mem_map.1 member
  cases CatalogRef.listed_of_templatesOf found htemplate with
  | @declared o line template known merged =>
      obtain ⟨name, -, rfl⟩ := mem_membersAlong.1 merged
      refine ⟨⟨o, rfl⟩, ?_⟩
      show ((Declarations.along line name).tags.map (·.name)).Nodup
      exact nodup_names_distinctTags _
  | _ => cases tagged

/-- A tagged member that an engine looks at is given by its name, and so is its value. -/
theorem Looks.eq_of_name (looks : e.Looks registryOf h target m v)
    (looks' : e.Looks registryOf h target m' v') (tagged : t ∈ m.tags)
    (same : m.name = m'.name) : m = m' ∧ v = v' := by
  obtain ⟨⟨o, rfl⟩, -⟩ := looks.object_of_tagged tagged
  obtain ⟨ms, listed, member⟩ := looks.listed
  obtain ⟨ms', listed', member'⟩ := looks'.listed
  cases listed.symm.trans listed'
  have object : ∀ s, Value.object o ≠ .tag s := by
    intro s h
    cases h
  cases CatalogRef.member_eq_of_name object listed member member' same
  exact ⟨rfl, Except.ok.inj (looks.read.symm.trans looks'.read)⟩

namespace ViolatedAt

theorem ne_nil (here : ViolatedAt registryOf h e target names m v t) : names ≠ [] := by
  cases here with
  | _ => exact List.cons_ne_nil _ _

/-- What violates a tag is a member of an object, or lies behind one. -/
theorem exists_object (here : ViolatedAt registryOf h e target names m v t) :
    ∃ o, target = .object o := by
  cases here with
  | own looks tagged _ _ => exact (looks.object_of_tagged tagged).1
  | valid looks tagged _ _ _ _ _ => exact (looks.object_of_tagged tagged).1
  | valids looks tagged _ _ _ _ _ _ _ _ _ => exact (looks.object_of_tagged tagged).1

/-- The member at a position has the tag, and no other of its name. -/
theorem tagged (here : ViolatedAt registryOf h e target names m v t) :
    t ∈ m.tags ∧ (m.tags.map (·.name)).Nodup := by
  induction here with
  | own looks tagged _ _ => exact ⟨tagged, (looks.object_of_tagged tagged).2⟩
  | valid _ _ _ _ _ _ _ ih => exact ih
  | valids _ _ _ _ _ _ _ _ _ _ _ ih => exact ih

/-- A container where something violates a tag has no items to go over. -/
theorem not_iterates (here : ViolatedAt registryOf h e target names m v t) :
    target.iterates = false := by
  obtain ⟨o, rfl⟩ := here.exists_object
  rfl

/-- There is one member at a position, with one value. -/
theorem place_unique (here : ViolatedAt registryOf h e target names m v t)
    (again : ViolatedAt registryOf h e target names m' v' t') : m = m' ∧ v = v' := by
  -- The first name gives the member and its value.  A run goes on into the value itself
  -- if that is an object, and over its items if it has any, so the ways do not mix.
  induction here generalizing m' v' t' with
  | @own e target v m t verdict looks tagged gives invalid =>
      generalize same : [m.name] = names at again
      cases again with
      | own looks' _ _ _ => exact looks.eq_of_name looks' tagged (List.cons.inj same).1
      | valid _ _ _ _ _ _ found => exact absurd (List.cons.inj same).2.symm found.ne_nil
      | valids _ _ _ _ _ _ _ _ _ _ _ => cases (List.cons.inj same).2
  | @valid e inner target v w m n s t leaf verdict rest looks tagged _ _ _ nested found ih =>
      generalize same : m.name :: rest = names at again
      cases again with
      | own _ _ _ _ => exact absurd (List.cons.inj same).2 found.ne_nil
      | valid looks' _ _ _ _ nested' found' =>
          obtain ⟨rfl, rfl⟩ := looks.eq_of_name looks' tagged (List.cons.inj same).1
          cases nested.symm.trans nested'
          cases (List.cons.inj same).2
          exact ih found'
      | valids looks' _ _ _ _ _ iterates _ _ _ _ =>
          obtain ⟨rfl, rfl⟩ := looks.eq_of_name looks' tagged (List.cons.inj same).1
          cases found.not_iterates.symm.trans iterates
  | @valids e inner target v u w m item n s t leaf verdict items rest looks tagged _ _ _ nested
      iterates itemized listed read found ih =>
      generalize same : m.name :: item.name :: rest = names at again
      cases again with
      | own _ _ _ _ => cases (List.cons.inj same).2
      | valid looks' _ _ _ _ _ found' =>
          obtain ⟨rfl, rfl⟩ := looks.eq_of_name looks' tagged (List.cons.inj same).1
          cases found'.not_iterates.symm.trans iterates
      | valids looks' _ _ _ _ nested' _ itemized' listed' read' found' =>
          obtain ⟨rfl, rfl⟩ := looks.eq_of_name looks' tagged (List.cons.inj same).1
          obtain ⟨named, later⟩ := List.cons.inj (List.cons.inj same).2
          cases nested.symm.trans nested'
          cases itemized.symm.trans itemized'
          have items : ∀ s, v ≠ .tag s := by
            rintro s rfl
            cases iterates
          cases CatalogRef.member_eq_of_name items itemized listed listed' named
          cases read.symm.trans read'
          cases later
          exact ih found'

/-- What is found at a position is found under its path. -/
theorem violation (here : ViolatedAt registryOf h e target names m v t) :
    Violation registryOf h e target (joinPath names) t.name := by
  induction here with
  | own looks tagged gives invalid => exact .own looks tagged gives invalid
  | valid looks tagged decides validator merges nested found ih =>
      rw [joinPath_cons found.ne_nil]
      exact .valid looks tagged decides validator merges nested ih
  | valids looks tagged decides validator merges nested iterates itemized listed read found ih =>
      obtain ⟨o, rfl⟩ := found.exists_object
      rw [joinPath_cons (List.cons_ne_nil _ _), joinPath_cons found.ne_nil]
      exact .valids looks tagged decides validator merges nested itemized listed read rfl ih

/-- A run comes to all names on the way to a position. -/
theorem reaches (here : ViolatedAt registryOf h e target names m v t) :
    ∀ name ∈ names, e.Reaches registryOf h target name := by
  induction here with
  | own looks _ _ _ =>
      intro name there
      cases List.mem_singleton.1 there
      exact .member looks
  | valid looks tagged decides validator _ nested _ ih =>
      intro name there
      rcases List.mem_cons.1 there with rfl | there
      · exact .member looks
      · exact .valid looks tagged decides.asks validator nested (ih name there)
  | valids looks tagged decides validator _ nested iterates itemized listed read _ ih =>
      intro name there
      rcases List.mem_cons.1 there with rfl | there
      · exact .member looks
      · rcases List.mem_cons.1 there with rfl | there
        · exact .item looks tagged decides.asks validator iterates itemized listed
        · exact .valids looks tagged decides.asks validator iterates itemized listed read nested
            (ih name there)

end ViolatedAt

theorem definite_violatedAt : (ViolatedAt registryOf h e target).Definite where
  place := ViolatedAt.place_unique
  tag := by
    intro names m v t t' here again same
    exact List.inj_on_of_nodup_map here.tagged.2 here.tagged.1 again.tagged.1 same

/-- Positions without dots in their names have different paths. -/
theorem injOn_positions (plain : ∀ name, e.Reaches registryOf h target name → isPath name = false) :
    Set.InjOn joinPath (ViolatedAt registryOf h e target).positions := by
  rintro names ⟨m, v, t, here⟩ names' ⟨m', v', t', again⟩ same
  have split : ∀ {names m v t}, ViolatedAt registryOf h e target names m v t →
      pathSegments (joinPath names) = names := by
    intro names m v t found
    exact pathSegments_joinPath found.ne_nil fun name there => plain name (found.reaches name there)
  rw [← split here, ← split again, same]

/-! ### A report is made up of what is found -/

/-- What is found inside a value is traced to positions behind the member. -/
theorem traced_of_foundInside {below : Engine} {leaf : Leaf} {verdict : Verdict}
    {el : InvalidElement} (looks : e.Looks registryOf h target m v) (tagged : t ∈ m.tags)
    (decides : e.factory.Decides registryOf (e.contextOf h target m t) h v leaf verdict)
    (merges : (registryOf e.catalog).mergesElements t = true) (nested : e.nested = .ok below)
    (traced : ∀ u r, (below.validate h u).answer registryOf = .ok r →
      ∀ el ∈ r.elements, el.Traced (ViolatedAt registryOf h below u))
    (inside : FoundInside registryOf h e below v leaf.validator el) :
    (el.under m.name).Traced (ViolatedAt registryOf h e target) := by
  generalize validator : leaf.validator = id at inside
  cases inside with
  | valid done found =>
      refine (traced v _ done el found).under ?_
      intro names n w t here
      exact ⟨here.ne_nil, .valid looks tagged decides validator merges nested here⟩
  | @valids items item u r el iterates itemized listed read container done found =>
      -- behind the item first, and then behind the member
      let behind : Placement := fun names n w t =>
        names ≠ [] ∧ ViolatedAt registryOf h e target (m.name :: names) n w t
      have item : (el.under item.name).Traced behind := by
        refine (traced u r done el found).under ?_
        intro names n w t here
        exact ⟨here.ne_nil, List.cons_ne_nil _ _, .valids looks tagged decides validator merges
          nested iterates itemized listed read here⟩
      exact item.under fun there => there

/-- Every element of a report is traced to positions. -/
theorem traced_of_mem_elements (builtIn : e.factory = .ofCatalog d)
    (done : (e.validate h target).answer registryOf = .ok r) :
    ∀ el ∈ r.elements, el.Traced (ViolatedAt registryOf h e target) := by
  -- Along the levels, as a report below is taken up by the next engine further out.
  induction e using wellFounded_nested.induction generalizing target r with
  | _ e ih =>
      refine forall_elements_of_validate builtIn done (fun _ _ => InvalidElement.Traced.merge) ?_ ?_
      · intro m v js looks judged invalid
        refine InvalidElement.traced_ofMember invalid ?_
        intro t ht
        obtain ⟨j, hj, unfit, rfl⟩ := mem_violated.1 ht
        obtain ⟨tagged, gives⟩ := (mem_judge judged).1 hj
        exact .own looks tagged gives unfit
      · intro m v t leaf verdict below el looks tagged decides merges nested inside
        have factory := (alike_of_nested nested).factory.trans builtIn
        exact traced_of_foundInside looks tagged decides merges nested
          (fun u r done => ih below nested factory done) inside

/-- A report is made up of what its run finds. -/
theorem madeOf_violatedAt (builtIn : e.factory = .ofCatalog d)
    (done : (e.validate h target).answer registryOf = .ok r) :
    r.MadeOf (ViolatedAt registryOf h e target) where
  keyed := by
    obtain ⟨ms, parts, -, -, rfl⟩ := validate_eq_ok done
    exact Report.keyed_ofElements _ _
  complete := fun here => mem_findings_of_violation here.violation builtIn done
  traced := traced_of_mem_elements builtIn done

end Engine

/-- Each element of a report stands for one position, with the member, the value and
the violated tags that are found there, and for each such position there is one,
exactly if no two of them have one path.  So it is if no name that the run comes to
has a dot in it. -/
theorem entries_stand_for_positions [PatternEngine] {w : World} {e : Engine} {d : CatalogRef}
    (builtIn : e.factory = .ofCatalog d) {target : Value} {r : Report}
    (done : (Query.run w fun h => e.validate h target).1 = .ok r) :
    let found := Engine.ViolatedAt w.catalogs.registry w.heap e target
    (r.Separates found ↔ Set.InjOn joinPath found.positions) ∧
      ((∀ name, e.Reaches w.catalogs.registry w.heap target name → isPath name = false) →
        r.Separates found) := by
  intro found
  rw [Query.run_fst] at done
  have made := Engine.madeOf_violatedAt builtIn done
  have separates := made.separates_iff_injOn Engine.definite_violatedAt
  exact ⟨separates, fun plain => separates.2 (Engine.injOn_positions plain)⟩

/-- The kit and the mark of its part are reported apart. -/
theorem kit_and_mark_are_apart :
    ∃ r, (Query.run kitWorld fun h => kitEngine.validate h kit).1 = .ok r ∧ r.size = 2 ∧
      r.Separates (Engine.ViolatedAt kitWorld.catalogs.registry kitWorld.heap kitEngine kit) := by
  have reported : ∃ r, (Query.run kitWorld fun h => kitEngine.validate h kit).1 = .ok r ∧
      r.size = 2 := ⟨_, rfl, rfl⟩
  obtain ⟨r, done, size⟩ := reported
  obtain ⟨-, separates⟩ := entries_stand_for_positions (w := kitWorld) (e := kitEngine) (d := ⟨0⟩)
    rfl done
  exact ⟨r, done, size, separates fun name reaches => reaches.isPath_eq_false kitWorld_plain⟩

/-- Parts and slips have an `x` for different tags, a box holds one of them, and the
shelves of a depot hold boxes, parts and slips. -/
def depots : List Definition :=
  BuiltIn.drafts.map .tag ++
    [.type ((TypeDraft.plain "Part").withField
      { Field.plain "x" .string with tags := [.plain BuiltIn.notNull] }),
     .type ((TypeDraft.plain "Slip").withField
      { Field.plain "x" .string with tags := [.plain BuiltIn.notEmpty] }),
     .type ((TypeDraft.plain "Box").withField
      { Field.plain "b" .any with tags := [.plain BuiltIn.valid] }),
     .type ((TypeDraft.plain "Depot").withField
      { Field.plain "shelves" (.map .any) with tags := [.plain BuiltIn.valids] })]

def depot : Value := .object ⟨0, "Depot", []⟩

/-- On the shelf `a` there is a box with a part, on the shelf `a.b` there is a slip. -/
def depotWorld : World :=
  ⟨{ Heap.empty with
      objects := ⟨#[.ofList [("shelves", .map ⟨0, .any⟩)], .ofList [("b", .object ⟨2, "Part", []⟩)],
        .empty, .ofList [("x", .string "")]]⟩
      maps := ⟨#[.ofList [("a", .object ⟨1, "Box", []⟩), ("a.b", .object ⟨3, "Slip", []⟩)]]⟩ },
   (Catalogs.empty.add (Builder.empty.declareAll depots).build).2⟩

def depotEngine : Engine := .unchecked (.ofCatalog ⟨0⟩) .standard

/-- The slip has no element of its own: the tag that it violates is reported of the
part, which does not have that tag. -/
theorem slip_is_reported_as_part :
    ∃ r, (Query.run depotWorld fun h => depotEngine.validate h depot).1 = .ok r ∧
      r.paths = ["shelves", "shelves.a.b", "shelves.a.b.x"] ∧
      (∃ el ∈ r.elements, el.path = "shelves.a.b.x" ∧ el.value = .null ∧
        el.member.tags = [.plain BuiltIn.notNull] ∧
        el.tag? BuiltIn.notEmpty = some (.plain BuiltIn.notEmpty)) ∧
      ¬r.Separates
        (Engine.ViolatedAt depotWorld.catalogs.registry depotWorld.heap depotEngine depot) := by
  have reported : ∃ r, (Query.run depotWorld fun h => depotEngine.validate h depot).1 = .ok r ∧
      r.paths = ["shelves", "shelves.a.b", "shelves.a.b.x"] ∧
      ∃ el ∈ r.elements, el.path = "shelves.a.b.x" ∧ el.value = .null ∧
        el.member.tags = [.plain BuiltIn.notNull] ∧
        el.tag? BuiltIn.notEmpty = some (.plain BuiltIn.notEmpty) :=
    ⟨_, rfl, rfl, _, List.mem_cons_of_mem _ (List.mem_cons_of_mem _ List.mem_cons_self), rfl, rfl,
      rfl, rfl⟩
  obtain ⟨r, done, paths, el, hel, path, value, tags, stored⟩ := reported
  refine ⟨r, done, paths, ⟨el, hel, path, value, tags, stored⟩, ?_⟩
  intro separates
  obtain ⟨names, ⟨-, records⟩, -⟩ := separates.placed el hel
  have here := (records.found el.member el.value (.plain BuiltIn.notEmpty)).2 ⟨rfl, rfl, stored⟩
  have tagged := here.tagged.1
  rw [tags] at tagged
  have same := congrArg TagOf.name (List.mem_singleton.1 tagged)
  exact absurd same (by decide)

end Memberwise
