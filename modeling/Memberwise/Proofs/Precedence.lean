import Mathlib.Data.List.Nodup
import Memberwise.Proofs.Merging

/-!
# Which declaration takes precedence

A lineage goes through the lineages of the parents one after another, and each type
stays at its first place.  So a type comes before one of its ancestors exactly if the
first way up to that ancestor, by the first parent that leads there each time, passes
the type (`Registry.Built.idxOf_lt_iff_firstWayPasses`).  Where this holds of all types of a
lineage, what a type declares takes precedence over what it overrides, among the
members that are discovered and in new objects.  Where two parents have an ancestor in
common it need not hold, and then what is overridden comes first.
-/

namespace Memberwise

namespace Registry

/-- The first type is a proper subtype of the second. -/
def Descends (r : Registry) (sub super : TypeDefinition) : Prop :=
  sub ≠ super ∧ r.isSubtype sub.id super.id = true

/-- No type of the line comes before one of its own proper subtypes. -/
def NearestFirst (r : Registry) (line : List TypeDefinition) : Prop :=
  line.Pairwise fun earlier later => ¬r.Descends later earlier

/-- The way from a type up to a goal, by the first parent that leads there each
time, passes another type. -/
inductive FirstWayPasses (r : Registry) (goal via : TypeDefinition) : TypeDefinition → Prop
  | here (leads : r.isSubtype via.id goal.id = true) : FirstWayPasses r goal via via
  | up {s p : TypeDefinition} (known : p ∈ r.types)
      (first : s.parentIds.find? (fun id => r.isSubtype id goal.id) = some p.id)
      (rest : FirstWayPasses r goal via p) : FirstWayPasses r goal via s

/-- What is found along a line is declared there, and nowhere on the line by a proper
subtype of its owner; where nothing is found, nothing is declared. -/
def Prevails {α : Type} (r : Registry) (line : List TypeDefinition)
    (pick : TypeDefinition → Option α) : Option (Declared α) → Prop
  | some x => ∃ u ∈ line, u.name = x.owner ∧ pick u = some x.declaration ∧
      ∀ v ∈ line, (pick v).isSome → ¬r.Descends v u
  | none => ∀ v ∈ line, pick v = none

end Registry

/-- All that a member is merged of prevails along a line. -/
structure Declarations.Prevail (r : Registry) (line : List TypeDefinition) (name : String)
    (d : Declarations) : Prop where
  field : r.Prevails line (·.field? name) d.field
  accessor : r.Prevails line (·.accessor? name) d.accessor
  mutator : r.Prevails line (·.mutator? name) d.mutator

/-! The order of a lineage. -/

/-- Of two names in a list without its repeats, that comes first which has the
first place in the list. -/
theorem idxOf_distinct_lt_iff {names : List String} {a b : String} (ha : a ∈ names)
    (hb : b ∈ names) :
    (distinct names).idxOf a < (distinct names).idxOf b ↔ names.idxOf a < names.idxOf b := by
  have ordered := distinct_pairwise_idxOf names
  rw [List.pairwise_iff_getElem] at ordered
  have place : ∀ {n}, n ∈ names → ∃ lt : (distinct names).idxOf n < (distinct names).length,
      (distinct names)[(distinct names).idxOf n] = n := fun hn =>
    ⟨List.idxOf_lt_length_of_mem (mem_distinct.2 hn), List.getElem_idxOf _⟩
  obtain ⟨la, ea⟩ := place ha
  obtain ⟨lb, eb⟩ := place hb
  constructor
  · intro lt
    have := ordered _ _ la lb lt
    rwa [ea, eb] at this
  · intro lt
    rcases Nat.lt_trichotomy ((distinct names).idxOf a) ((distinct names).idxOf b) with h | h | h
    · exact h
    · have same : a = b := (List.idxOf_inj (mem_distinct.2 ha)).1 h
      exact absurd (same ▸ lt) (Nat.lt_irrefl _)
    · have back := ordered _ _ lb la h
      rw [ea, eb] at back
      exact absurd (Nat.lt_trans lt back) (Nat.lt_irrefl _)

/-- In several lists one after another, the first one with a name tells what comes
before that name, as long as what is asked for is in none before. -/
theorem idxOf_flatMap_lt_iff {α : Type} {names : α → List String} {before after : List α} {x : α}
    {a b : String} (hb : b ∈ names x) (ha' : ∀ y ∈ before, a ∉ names y)
    (hb' : ∀ y ∈ before, b ∉ names y) :
    ((before ++ x :: after).flatMap names).idxOf a <
        ((before ++ x :: after).flatMap names).idxOf b ↔
      a ∈ names x ∧ (names x).idxOf a < (names x).idxOf b := by
  have none : ∀ n, (∀ y ∈ before, n ∉ names y) → n ∉ before.flatMap names := by
    intro n absent there
    obtain ⟨y, hy, hn⟩ := List.mem_flatMap.1 there
    exact absent y hy hn
  rw [List.flatMap_append, List.flatMap_cons, List.idxOf_append_of_notMem (none a ha'),
    List.idxOf_append_of_notMem (none b hb'), Nat.add_lt_add_iff_left, List.idxOf_append_of_mem hb]
  by_cases ha : a ∈ names x
  · rw [List.idxOf_append_of_mem ha, and_iff_right ha]
  · rw [List.idxOf_append_of_notMem ha]
    have within := List.idxOf_lt_length_of_mem hb
    constructor
    · intro lt
      exact absurd (Nat.lt_trans (Nat.lt_of_le_of_lt (Nat.le_add_right _ _) lt) within)
        (Nat.lt_irrefl _)
    · exact fun h => absurd h.1 ha

/-- A type's own name and those above it. -/
def TypeDefinition.nameLine (d : TypeDefinition) : List String :=
  d.name :: d.supertypes

theorem TypeDefinition.mem_nameLine {d : TypeDefinition} {n : String} :
    n ∈ d.nameLine ↔ d.isA n = true := by
  simp only [nameLine, isA, List.mem_cons, Bool.or_eq_true, beq_iff_eq, List.any_eq_true,
    exists_eq_right]
  rw [eq_comm]

/-! Fields of different names. -/

/-- Among fields of different names the one of a name is found. -/
theorem find?_field_eq_some_iff {fields : List Field} (nodup : (fields.map (·.name)).Nodup)
    {name : String} {f : Field} :
    fields.find? (·.name == name) = some f ↔ f ∈ fields ∧ f.name = name := by
  constructor
  · intro found
    exact ⟨List.mem_of_find?_eq_some found, by simpa using List.find?_some found⟩
  · rintro ⟨hf, rfl⟩
    exact find?_name_of_nodup nodup hf

theorem find?_field_reverse {fields : List Field} (nodup : (fields.map (·.name)).Nodup)
    (name : String) : fields.reverse.find? (·.name == name) = fields.find? (·.name == name) := by
  have backwards : (fields.reverse.map (·.name)).Nodup := by
    rw [List.map_reverse]
    exact List.nodup_reverse.2 nodup
  ext f
  rw [find?_field_eq_some_iff backwards, find?_field_eq_some_iff nodup, List.mem_reverse]

theorem findSome?_reverse_fields {line : List TypeDefinition}
    (nodup : ∀ t ∈ line, (t.fields.map (·.name)).Nodup) (name : String) :
    line.findSome? (fun t => t.fields.reverse.find? (·.name == name)) = firstField? line name := by
  induction line with
  | nil => rfl
  | cons t line ih =>
      rw [firstField?, List.findSome?_cons, List.findSome?_cons,
        find?_field_reverse (nodup t List.mem_cons_self),
        ih fun u hu => nodup u (List.mem_cons_of_mem _ hu)]
      rfl

namespace Registry

variable {r : Registry} {s t u p : TypeDefinition}

theorem Built.mem_nameLine_iff (built : r.Built) (hs : s ∈ r.types) (ht : t ∈ r.types) :
    t.name ∈ s.nameLine ↔ r.isSubtype s.id t.id = true := by
  rw [TypeDefinition.mem_nameLine, built.isA_iff_isSubtype hs ht]

theorem Built.isSubtype_refl (built : r.Built) (hs : s ∈ r.types) :
    r.isSubtype s.id s.id = true :=
  (built.isSubtype_iff_reaches hs hs).2 .refl

theorem Built.isSubtype_trans (built : r.Built) (hs : s ∈ r.types) (ht : t ∈ r.types)
    (hu : u ∈ r.types) (low : r.isSubtype s.id t.id = true) (high : r.isSubtype t.id u.id = true) :
    r.isSubtype s.id u.id = true :=
  built.isPartialOrder_isSubtype.trans ⟨s, hs⟩ ⟨t, ht⟩ ⟨u, hu⟩ low high

theorem Built.eq_of_isSubtype (built : r.Built) (hs : s ∈ r.types) (ht : t ∈ r.types)
    (up : r.isSubtype s.id t.id = true) (down : r.isSubtype t.id s.id = true) : s = t :=
  congrArg Subtype.val (built.isPartialOrder_isSubtype.antisymm ⟨s, hs⟩ ⟨t, ht⟩ up down)

/-- What the first way to a goal passes is above where the way starts. -/
theorem FirstWayPasses.isSubtype (built : r.Built) (hs : s ∈ r.types) (hu : u ∈ r.types)
    (passes : r.FirstWayPasses t u s) : r.isSubtype s.id u.id = true := by
  induction passes with
  | here leads => exact built.isSubtype_refl hu
  | @up s p known first rest ih =>
      have below := (built.isSubtype_iff_reaches known hu).1 (ih known)
      have parent : Parent r.types s p := ⟨hs, known, List.mem_of_find?_eq_some first⟩
      exact (built.isSubtype_iff_reaches hs hu).2 (.head parent below)

/-- Above a type, that of two further types comes first which does so above the first
parent that leads to the goal. -/
theorem Built.exists_first_parent (built : r.Built) (hs : s ∈ r.types) (ht : t ∈ r.types)
    (hu : u ∈ r.types) (own : s ≠ u) (above : r.isSubtype s.id u.id = true)
    (descends : r.Descends u t) :
    ∃ p ∈ r.types, p.id < s.id ∧
      s.parentIds.find? (fun id => r.isSubtype id t.id) = some p.id ∧
      (s.nameLine.idxOf u.name < s.nameLine.idxOf t.name ↔
        r.isSubtype p.id u.id = true ∧ p.nameLine.idxOf u.name < p.nameLine.idxOf t.name) := by
  obtain ⟨apart, leads⟩ := descends
  have goal : s ≠ t := by
    rintro rfl
    exact apart (built.eq_of_isSubtype hu hs leads above)
  have below : ∀ {q v}, q ∈ r.types → v ∈ r.types →
      (v.name ∈ q.nameLine ↔ r.isSubtype q.id v.id = true) :=
    fun hq hv => built.mem_nameLine_iff hq hv
  obtain ⟨parents, known, ids, supers⟩ := built.lineal.exists_parents hs
  have line : s.nameLine = s.name :: distinct (parents.flatMap (·.nameLine)) :=
    congrArg (s.name :: ·) supers
  have up : ∀ v ∈ r.types, s ≠ v → r.isSubtype s.id v.id = true →
      v.name ∈ parents.flatMap (·.nameLine) ∧ s.name ≠ v.name := by
    intro v hv ne sub
    have names : s.name ≠ v.name := fun same => ne (built.lineal.eq_of_name hs hv same)
    have there := (below hs hv).2 sub
    rw [line] at there
    exact ⟨mem_distinct.1 ((List.mem_cons.1 there).resolve_left names.symm), names⟩
  obtain ⟨mem_u, ne_u⟩ := up u hu own above
  obtain ⟨mem_t, ne_t⟩ := up t ht goal (built.isSubtype_trans hs hu ht above leads)
  obtain ⟨p, found⟩ : ∃ p, parents.find? (fun p => r.isSubtype p.id t.id) = some p := by
    obtain ⟨q, hq, there⟩ := List.mem_flatMap.1 mem_t
    exact Option.isSome_iff_exists.1
      (List.find?_isSome.2 ⟨q, hq, (below (known q hq).1 ht).1 there⟩)
  have first : s.parentIds.find? (fun id => r.isSubtype id t.id) = some p.id := by
    rw [ids, List.find?_map]
    exact congrArg (Option.map (·.id)) found
  obtain ⟨toGoal, before, after, split, astray⟩ := List.find?_eq_some_iff_append.1 found
  obtain ⟨hp, lt⟩ := known p (List.mem_of_find?_eq_some found)
  -- The parents before lead to neither.
  have not_t : ∀ q ∈ before, t.name ∉ q.nameLine := by
    intro q hq there
    have hq' := (known q (split ▸ List.mem_append_left _ hq)).1
    have stray := astray q hq
    rw [(below hq' ht).1 there] at stray
    cases stray
  have not_u : ∀ q ∈ before, u.name ∉ q.nameLine := by
    intro q hq there
    have hq' := (known q (split ▸ List.mem_append_left _ hq)).1
    refine not_t q hq ((below hq' ht).2 ?_)
    exact built.isSubtype_trans hq' hu ht ((below hq' hu).1 there) leads
  refine ⟨p, hp, lt, first, ?_⟩
  rw [line, List.idxOf_cons_ne _ ne_u, List.idxOf_cons_ne _ ne_t, Nat.succ_lt_succ_iff,
    idxOf_distinct_lt_iff mem_u mem_t, split,
    idxOf_flatMap_lt_iff ((below hp ht).2 toGoal) not_u not_t, below hp hu]

/-- A type comes before one of its ancestors, in what is above another type, exactly if
the first way up from there to the ancestor passes the type. -/
theorem Built.idxOf_lt_iff_firstWayPasses (built : r.Built) (hs : s ∈ r.types) (ht : t ∈ r.types)
    (hu : u ∈ r.types) (above : r.isSubtype s.id u.id = true) (descends : r.Descends u t) :
    s.nameLine.idxOf u.name < s.nameLine.idxOf t.name ↔ r.FirstWayPasses t u s := by
  -- By the numbers of types, since parents have smaller ones.
  induction hid : s.id using Nat.strongRecOn generalizing s with
  | _ id ih =>
      by_cases own : s = u
      · subst own
        have differ : s.name ≠ t.name :=
          fun same => descends.1 (built.lineal.eq_of_name hu ht same)
        have first : s.nameLine.idxOf s.name = 0 := List.idxOf_cons_self
        have later : s.nameLine.idxOf t.name = s.supertypes.idxOf t.name + 1 :=
          List.idxOf_cons_ne _ differ
        exact ⟨fun _ => .here descends.2, fun _ => by rw [first, later]; exact Nat.succ_pos _⟩
      · obtain ⟨p, hp, lt, first, order⟩ :=
          built.exists_first_parent hs ht hu own above descends
        rw [order]
        constructor
        · rintro ⟨leads, lower⟩
          exact .up hp first ((ih p.id (hid ▸ lt) hp leads rfl).1 lower)
        · intro passes
          cases passes with
          | here => exact absurd rfl own
          | @up _ q hq first' rest =>
              have same : q = p :=
                built.lineal.eq_of_id hq hp (Option.some.inj (first'.symm.trans first))
              subst same
              have leads := rest.isSubtype built hq hu
              exact ⟨leads, (ih q.id (hid ▸ lt) hq leads rfl).2 rest⟩

theorem Built.names_lineage (built : r.Built) (hs : s ∈ r.types) :
    (r.lineage s.name).map (·.name) = s.nameLine := by
  have named : ∀ n ∈ s.supertypes, (r.type? n).map (·.name) = some n := by
    intro n hn
    obtain ⟨p, hp, rfl, -⟩ := built.lineal.mem_supertypes_exists hs hn
    rw [built.type?_name hp, Option.map_some]
  rw [built.lineage_eq hs, List.map_cons, List.map_filterMap, List.filterMap_congr named,
    List.filterMap_some, TypeDefinition.nameLine]

/-- A relation holds along a list of different names if it does between what stands at
a smaller and a greater place. -/
theorem pairwise_iff_idxOf {α : Type} {R : α → α → Prop} {name : α → String} {xs : List α}
    (nodup : (xs.map name).Nodup) :
    xs.Pairwise R ↔ ∀ a ∈ xs, ∀ b ∈ xs,
      (xs.map name).idxOf (name a) < (xs.map name).idxOf (name b) → R a b := by
  have place : ∀ i (lt : i < xs.length), (xs.map name).idxOf (name xs[i]) = i := by
    intro i lt
    have at_i := nodup.idxOf_getElem i (by rwa [List.length_map])
    rwa [List.getElem_map] at at_i
  rw [List.pairwise_iff_getElem]
  constructor
  · intro ordered a ha b hb lt
    obtain ⟨i, hi, rfl⟩ := List.mem_iff_getElem.1 ha
    obtain ⟨j, hj, rfl⟩ := List.mem_iff_getElem.1 hb
    rw [place i hi, place j hj] at lt
    exact ordered i j hi hj lt
  · intro ordered i j hi hj lt
    refine ordered _ (List.getElem_mem hi) _ (List.getElem_mem hj) ?_
    rwa [place i hi, place j hj]

/-- A lineage is nearest first exactly if each first way up to an ancestor passes all
that descends from it. -/
theorem Built.nearestFirst_lineage_iff (built : r.Built) (hs : s ∈ r.types) :
    r.NearestFirst (r.lineage s.name) ↔ ∀ t ∈ r.lineage s.name, ∀ u ∈ r.lineage s.name,
      r.Descends u t → r.FirstWayPasses t u s := by
  have member : ∀ v ∈ r.lineage s.name, v ∈ r.types ∧ r.isSubtype s.id v.id = true := by
    intro v hv
    obtain ⟨hv, above⟩ := (built.mem_lineage hs).1 hv
    exact ⟨hv, (built.isA_iff_isSubtype hs hv).1 above⟩
  have nodup : ((r.lineage s.name).map (·.name)).Nodup :=
    List.pairwise_map.2 ((built.nodup_lineage hs).imp_of_mem fun ha hb differ same =>
      differ (built.lineal.eq_of_name (member _ ha).1 (member _ hb).1 same))
  rw [NearestFirst, pairwise_iff_idxOf nodup, built.names_lineage hs]
  constructor
  · intro ordered t ht u hu descends
    rw [← built.idxOf_lt_iff_firstWayPasses hs (member t ht).1 (member u hu).1 (member u hu).2
      descends]
    have differ : u.name ≠ t.name :=
      fun same => descends.1 (built.lineal.eq_of_name (member u hu).1 (member t ht).1 same)
    have above : u.name ∈ s.nameLine :=
      (built.mem_nameLine_iff hs (member u hu).1).2 (member u hu).2
    have apart : s.nameLine.idxOf u.name ≠ s.nameLine.idxOf t.name :=
      fun same => differ ((List.idxOf_inj above).1 same)
    exact Nat.lt_of_le_of_ne (Nat.le_of_not_lt fun lt => ordered t ht u hu lt descends) apart
  · intro passes t ht u hu lt descends
    have earlier := (built.idxOf_lt_iff_firstWayPasses hs (member t ht).1 (member u hu).1
      (member u hu).2 descends).2 (passes t ht u hu descends)
    exact Nat.lt_asymm lt earlier

/-- Where no type has more than one parent, each way up is the first one. -/
theorem Built.nearestFirst_of_one_parent (built : r.Built)
    (single : ∀ t ∈ r.types, t.parentIds.length ≤ 1) (hs : s ∈ r.types) :
    r.NearestFirst (r.lineage s.name) := by
  rw [built.nearestFirst_lineage_iff hs]
  intro t inLine u inLine' descends
  obtain ⟨ht, -⟩ := (built.mem_lineage hs).1 inLine
  obtain ⟨hu, above⟩ := (built.mem_lineage hs).1 inLine'
  rw [built.lineal.isA_iff_reaches hs hu] at above
  clear inLine inLine'
  induction above using Relation.ReflTransGen.head_induction_on with
  | refl => exact .here descends.2
  | @head s p parent rest ih =>
      obtain ⟨hs, hp, id⟩ := parent
      have only : s.parentIds = [p.id] := by
        obtain ⟨one, only⟩ := List.length_eq_one_iff.1
          (Nat.le_antisymm (single s hs) (List.length_pos_of_mem id))
        rw [only] at id ⊢
        rw [List.mem_singleton.1 id]
      have leads : r.isSubtype p.id t.id = true :=
        built.isSubtype_trans hp hu ht ((built.isSubtype_iff_reaches hp hu).2 rest) descends.2
      refine .up hp ?_ (ih hp)
      rw [only, List.find?_cons_of_pos (by exact leads)]

/-- Along a line that is nearest first the nearest declaration prevails. -/
theorem NearestFirst.prevails {α : Type} {line : List TypeDefinition} (h : r.NearestFirst line)
    (pick : TypeDefinition → Option α) : r.Prevails line pick (nearest? pick line) := by
  induction line with
  | nil => exact fun v hv => nomatch hv
  | cons t line ih =>
      obtain ⟨first, rest⟩ := List.pairwise_cons.1 h
      rw [nearest?]
      cases here : pick t with
      | some x =>
          refine ⟨t, List.mem_cons_self, rfl, here, ?_⟩
          intro v hv _ descends
          rcases List.mem_cons.1 hv with rfl | hv
          · exact descends.1 rfl
          · exact first v hv descends
      | none =>
          have found := ih rest
          cases later : nearest? pick line with
          | none =>
              rw [later] at found
              intro v hv
              rcases List.mem_cons.1 hv with rfl | hv
              · exact here
              · exact found v hv
          | some x =>
              rw [later] at found
              obtain ⟨u, hu, name, declares, prevails⟩ := found
              refine ⟨u, List.mem_cons_of_mem _ hu, name, declares, ?_⟩
              intro v hv declared descends
              rcases List.mem_cons.1 hv with rfl | hv
              · rw [here] at declared
                cases declared
              · exact prevails v hv declared descends

/-! What new objects start with. -/

/-- No type has two fields of one name. -/
theorem Built.nodup_fields (built : r.Built) (hs : s ∈ r.types) :
    (s.fields.map (·.name)).Nodup := by
  obtain ⟨ds, rfl⟩ := built
  revert s
  refine Builder.declareAll_induction
    (P := fun b => ∀ {s}, s ∈ b.types → (s.fields.map (·.name)).Nodup) ?_ ?_ ds
  · exact fun hs => nomatch hs
  · intro b step all
    rcases b.declare_cases step with ⟨draft, d, -, made, e⟩ | ⟨draft, d, -, -, e⟩ | e | e
    · rw [e]
      intro s hs
      rcases List.mem_cons.1 hs with rfl | hs
      · have names : draft.fields.map (·.name) = s.fields.map (·.name) := by
          refine List.forall₂_eq_eq_eq ▸
            List.forall₂_map_left_iff.2 (List.forall₂_map_right_iff.2 (made.fields.imp ?_))
          rintro f g ⟨ts, -, rfl⟩
          rfl
        rw [← names]
        exact (Builder.nodup_of_firstRepeat made.uniqueFields).1
      · exact all hs
    · rw [e]
      exact all
    · rw [e]
      exact all
    · rw [e]
      exact all

/-- Of the fields of a name the last is what its slot starts with. -/
theorem get?_fillSlots (start : Dict Value × Heap) (fields : List Field) (name : String) :
    ∃ before, (fillSlots start fields).1.get? name =
      ((fields.reverse.find? (·.name == name)).map fun f => (initialValue before f).1).or
        (start.1.get? name) := by
  induction fields using List.reverseRecOn with
  | nil => exact ⟨start.2, rfl⟩
  | append_singleton fields f ih =>
      have last : (fillSlots start (fields ++ [f])).1 =
          (fillSlots start fields).1.insert f.name
            (initialValue (fillSlots start fields).2 f).1 := by
        rw [fillSlots, List.foldl_append]
        rfl
      rw [last, List.reverse_append, List.reverse_singleton, List.singleton_append]
      by_cases same : f.name = name
      · subst same
        refine ⟨(fillSlots start fields).2, ?_⟩
        rw [Dict.get?_insert_self, List.find?_cons_of_pos (by exact beq_self_eq_true f.name)]
        rfl
      · rw [Dict.get?_insert_of_ne _ _ _ _ (Ne.symm same),
          List.find?_cons_of_neg (by simpa using same)]
        exact ih

/-- Of the fields of a name along a lineage, ancestors first, the last one is the first field
of the name. -/
theorem Built.find?_fields_lineage (built : r.Built) (hs : s ∈ r.types) (name : String) :
    ((r.lineage s.name).reverse.flatMap (·.fields)).reverse.find? (·.name == name) =
      firstField? (r.lineage s.name) name := by
  rw [List.reverse_flatMap, List.reverse_reverse, List.find?_flatMap]
  exact findSome?_reverse_fields
    (fun t ht => built.nodup_fields ((built.mem_lineage hs).1 ht).1) name

/-- In a new object a slot starts as it is declared first along the lineage. -/
theorem Built.slot_of_instantiate (built : r.Built) (hs : s ∈ r.types) {h after : Heap}
    {o : ObjectRef} (made : r.instantiate h s.name = .ok (o, after)) (name : String) :
    ∃ before, after.slot o name =
      ((firstField? (r.lineage s.name) name).map fun f =>
        (initialValue before f).1).getD .null := by
  simp only [instantiate, built.type?_name hs] at made
  split at made
  · cases made
  · cases made
    obtain ⟨before, slot⟩ := get?_fillSlots (.empty, h)
      ((r.lineage s.name).reverse.flatMap (·.fields)) name
    refine ⟨before, ?_⟩
    rw [built.find?_fields_lineage hs, Dict.get?_empty, Option.or_none] at slot
    rw [← slot]
    simp only [Heap.slot, Heap.slots, Store.get?_push_self]
    rfl

end Registry

/-- A lineage is nearest first exactly if for each type and each of its ancestors the first
way up to the ancestor passes all types between that descend from it.  Then what is
discovered and what new objects start with is declared by no ancestor of another type that
declares it too. -/
theorem lineage_nearest_first_iff {r : Registry} (built : r.Built) {s : TypeDefinition}
    (hs : s ∈ r.types) :
    let line := r.lineage s.name
    (r.NearestFirst line ↔
      ∀ t ∈ line, ∀ u ∈ line, r.Descends u t → r.FirstWayPasses t u s) ∧
    (r.NearestFirst line →
      (∃ ts, discoverObject r s.name true = .ok ts ∧
        (∀ n, n ∈ ts.map (·.name) ↔ ∃ u ∈ line, n ∈ declaredNames u) ∧
        ∀ m ∈ ts, ∃ d : Declarations, m = d.merge m.name ∧ d.Prevail r line m.name) ∧
      (s.isAbstract = false → ∀ h, ∃ o after, r.instantiate h s.name = .ok (o, after) ∧
        ∀ name, ∃ found, r.Prevails line (·.field? name) found ∧ ∃ before,
          after.slot o name =
            found.elim .null fun x => (Registry.initialValue before x.declaration).1)) := by
  intro line
  refine ⟨built.nearestFirst_lineage_iff hs, fun nearest => ⟨?_, ?_⟩⟩
  · refine ⟨membersAlong line, ?_, ?_, ?_⟩
    · rw [discoverObject, built.type?_name hs]
      rfl
    · intro n
      rw [names_membersAlong, mem_distinct, List.mem_flatMap]
    · intro m hm
      obtain ⟨n, -, rfl⟩ := List.mem_map.1 hm
      exact ⟨.along line n, rfl, nearest.prevails _, nearest.prevails _, nearest.prevails _⟩
  · intro concrete h
    obtain ⟨o, after, made⟩ := built.exists_instantiate hs concrete h
    refine ⟨o, after, made, ?_⟩
    intro name
    obtain ⟨before, slot⟩ := built.slot_of_instantiate hs made name
    refine ⟨nearest? (·.field? name) line, nearest.prevails _, before, ?_⟩
    rw [slot, firstField?, ← nearest?_declaration, Option.map_map]
    cases nearest? (·.field? name) (r.lineage s.name) with
    | none => rfl
    | some x => rfl

/-- A field that a second type declares again, and types that descend from both, in
either order. -/
def ladder (parents : List String) : List Definition :=
  [.type ((TypeDraft.plain "Base").withField
      ⟨"x", .string, [], false, some (.string "base"), false⟩),
   .type ((TypeDraft.plain "Left").extending "Base"),
   .type (((TypeDraft.plain "Right").extending "Base").withField
      ⟨"x", .int, [], false, some (.int 7), false⟩),
   .type { TypeDraft.plain "Both" with parents := parents }]

def ladderRegistry (parents : List String) : Registry :=
  (Builder.empty.declareAll (ladder parents)).build

theorem right_prevails_over_base_in_both :
    (ladderRegistry ["Right", "Base"]).NearestFirst
        ((ladderRegistry ["Right", "Base"]).lineage "Both") ∧
      ∃ o after, (ladderRegistry ["Right", "Base"]).instantiate .empty "Both" = .ok (o, after) ∧
        after.slot o "x" = .int 7 := by
  have built : (ladderRegistry ["Right", "Base"]).Built := ⟨_, rfl⟩
  obtain ⟨order, -⟩ := lineage_nearest_first_iff built List.mem_cons_self
  refine ⟨order.2 ?_, _, _, rfl, rfl⟩
  -- the goal is `Both`, then `Right`, then `Base`, each with all three on the way
  rintro t (_ | ⟨_, _ | ⟨_, _ | ⟨_, ⟨⟩⟩⟩⟩) u (_ | ⟨_, _ | ⟨_, _ | ⟨_, ⟨⟩⟩⟩⟩) descends
  · exact absurd rfl descends.1
  · exact absurd descends.2 (by decide)
  · exact absurd descends.2 (by decide)
  · exact .here rfl
  · exact absurd rfl descends.1
  · exact absurd descends.2 (by decide)
  · exact .here rfl
  · exact .up (List.mem_cons_of_mem _ List.mem_cons_self) rfl (.here rfl)
  · exact absurd rfl descends.1

/-- The first parent brings its ancestor with it, before the second parent that
descends from this ancestor too. -/
theorem base_prevails_over_right_in_both :
    let r := ladderRegistry ["Left", "Right"]
    r.Built ∧
      (r.lineage "Both").map (·.name) = ["Both", "Left", "Base", "Right"] ∧
      r.isSubtypeByName "Right" "Base" = true ∧
      ¬r.NearestFirst (r.lineage "Both") ∧
      (∃ ts, discoverObject r "Both" true = .ok ts ∧
        ts.map (fun m => (m.name, m.declaringType, m.declaredType)) =
          [("x", .object "Base", .string)]) ∧
      ∃ o after, r.instantiate .empty "Both" = .ok (o, after) ∧
        after.slot o "x" = .string "base" := by
  intro r
  refine ⟨⟨_, rfl⟩, rfl, rfl, ?_, ⟨_, rfl, rfl⟩, _, _, rfl, rfl⟩
  intro nearest
  have apart := List.pairwise_iff_getElem.1 nearest 2 3 (by decide) (by decide) (by decide)
  exact apart ⟨fun same => absurd (congrArg (·.name) same) (by decide), rfl⟩

end Memberwise
