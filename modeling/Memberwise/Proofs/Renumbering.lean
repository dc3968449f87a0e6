import Mathlib.Order.Monotone.Basic
import Memberwise.Proofs.NormalForms
import Memberwise.Proofs.Subtyping

/-!
# Definitions that fail

A definition that fails uses up a number and leaves nothing else.  So of two
builders, one of which was also given definitions that fail, one is the other with
its numbers moved up (`Builder.Renumbered`), by a function that keeps their order.
A step makes a definition from both or from none and they stay so, whence the
registries are the same but for the numbers (`failed_definitions_leave_no_trace`).
-/

namespace Memberwise

namespace Definition

/-- Whether the step takes the number of a type. -/
def isType : Definition → Bool
  | .type _ | .abandonedType => true
  | .tag _ | .abandonedTag => false

/-- Whether the step takes the number of a tag. -/
def isTag : Definition → Bool
  | .type _ | .abandonedType => false
  | .tag _ | .abandonedTag => true

end Definition

/-- The type with other numbers. -/
def TypeDefinition.renumber (f : TypeId → TypeId) (d : TypeDefinition) : TypeDefinition :=
  { d with id := f d.id, parentIds := d.parentIds.map f }

/-- The tag with another number. -/
def TagDefinition.renumber (g : TagId → TagId) (d : TagDefinition) : TagDefinition :=
  { d with id := g d.id }

/-- The index with other numbers of types. -/
def SubtypeIndex.renumber (f : TypeId → TypeId) (index : SubtypeIndex) : SubtypeIndex :=
  ⟨index.rows.map fun row => (f row.1, row.2.map f)⟩

/-- The registry with other numbers of types and of tags, and otherwise the same. -/
def Registry.renumber (f : TypeId → TypeId) (g : TagId → TagId) (r : Registry) : Registry :=
  ⟨r.types.map (·.renumber f), r.tags.map (·.renumber g), r.subtypes.renumber f⟩

namespace Builder

/-- The steps that make a definition. -/
def kept (b : Builder) : List Definition → List Definition
  | [] => []
  | step :: ds =>
    let (made, b) := b.declare step
    if made then step :: b.kept ds else b.kept ds

/-- Every step makes a definition. -/
def MakesAll (b : Builder) : List Definition → Prop
  | [] => True
  | step :: ds => (b.declare step).1 = true ∧ (b.declare step).2.MakesAll ds

theorem kept_append (b : Builder) (ds es : List Definition) :
    b.kept (ds ++ es) = b.kept ds ++ (b.declareAll ds).kept es := by
  induction ds generalizing b with
  | nil => rfl
  | cons step ds ih =>
      simp only [List.cons_append, kept, ih]
      split
      · rfl
      · rfl

theorem makesAll_append (b : Builder) (ds es : List Definition) :
    b.MakesAll (ds ++ es) ↔ b.MakesAll ds ∧ (b.declareAll ds).MakesAll es := by
  induction ds generalizing b with
  | nil => simp [MakesAll, declareAll]
  | cons step ds ih =>
      simp only [List.cons_append, MakesAll, ih, and_assoc]
      rfl

end Builder

/-! ### Indices with other numbers -/

/-- What is cut from a list does not depend on the numbers in it, if none are confused. -/
theorem eraseDups_map {f : ℕ → ℕ} (apart : Function.Injective f) (ids : List ℕ) :
    (ids.map f).eraseDups = ids.eraseDups.map f := by
  induction hn : ids.length using Nat.strongRecOn generalizing ids with
  | _ n ih =>
      cases ids with
      | nil => rfl
      | cons id ids =>
          have others : (ids.map f).filter (fun other => !other == f id) =
              (ids.filter fun other => !other == id).map f := by
            rw [List.filter_map]
            congr 1
            refine List.filter_congr fun other _ => ?_
            simp [Function.comp, apart.eq_iff]
          have shorter : (ids.filter fun other => !other == id).length < n :=
            hn ▸ Nat.lt_succ_of_le (List.length_filter_le _ _)
          rw [List.map_cons, List.eraseDups_cons, List.eraseDups_cons, others,
            ih _ shorter _ rfl, List.map_cons]

namespace SubtypeIndex

variable {f : TypeId → TypeId}

theorem above_renumber (apart : Function.Injective f) (index : SubtypeIndex) (id : TypeId) :
    (index.renumber f).above (f id) = (index.above id).map f := by
  obtain ⟨rows⟩ := index
  induction rows with
  | nil => rfl
  | cons row rows ih =>
      obtain ⟨top, ids⟩ := row
      simp only [above, renumber, List.map_cons, List.lookup_cons] at ih ⊢
      by_cases here : id = top
      · subst here
        simp
      · have there : f id ≠ f top := fun e => here (apart e)
        simp only [beq_eq_false_iff_ne.2 here, beq_eq_false_iff_ne.2 there]
        exact ih

theorem closure_renumber (apart : Function.Injective f) (index : SubtypeIndex)
    (parents : List TypeId) :
    (index.renumber f).closure (parents.map f) = (index.closure parents).map f := by
  simp only [closure, ← eraseDups_map apart, List.flatMap_map, List.map_flatMap, List.map_cons,
    above_renumber apart]

theorem ofTypes_renumber (apart : Function.Injective f) (types : List TypeDefinition) :
    ofTypes (types.map (·.renumber f)) = (ofTypes types).renumber f := by
  induction types with
  | nil => rfl
  | cons d older ih =>
      simp only [List.map_cons, ofTypes, ih]
      simp only [TypeDefinition.renumber, closure_renumber apart]
      rfl

end SubtypeIndex

namespace Builder

variable {b c : Builder} {f : TypeId → TypeId} {g : TagId → TagId}

/-- The first builder has what the second has, under other numbers in the same order,
and will give numbers that go with those. -/
structure Renumbered (f : TypeId → TypeId) (g : TagId → TagId) (b c : Builder) : Prop where
  monoTypes : StrictMono f
  monoTags : StrictMono g
  types : b.types = c.types.map (·.renumber f)
  tags : b.tags = c.tags.map (·.renumber g)
  nextTypes : ∀ n, f (c.nextTypeId + n) = b.nextTypeId + n
  nextTags : ∀ n, g (c.nextTagId + n) = b.nextTagId + n

theorem Renumbered.refl (b : Builder) : b.Renumbered id id b where
  monoTypes := strictMono_id
  monoTags := strictMono_id
  types := by simp [TypeDefinition.renumber]
  tags := by simp [TagDefinition.renumber]
  nextTypes _ := rfl
  nextTags _ := rfl

/-! ### What a draft is resolved to -/

/-- Going through a list gives the same but for what is done to each result. -/
theorem mapM_eq_map_mapM {ε α β γ : Type} {φ : β → γ} {F : α → Except ε γ} {G : α → Except ε β}
    (h : ∀ a, F a = φ <$> G a) (as : List α) : as.mapM F = List.map φ <$> as.mapM G := by
  induction as with
  | nil => rfl
  | cons a as ih =>
      simp only [List.mapM_cons, h, ih]
      cases G a with
      | error e => rfl
      | ok b =>
          cases as.mapM G with
          | error e => rfl
          | ok bs => rfl

namespace Renumbered

theorem type? (h : b.Renumbered f g c) (name : String) :
    b.type? name = (c.type? name).map (·.renumber f) := by
  rw [Builder.type?, h.types, List.find?_map]
  rfl

theorem tag? (h : b.Renumbered f g c) (name : String) :
    b.tag? name = (c.tag? name).map (·.renumber g) := by
  rw [Builder.tag?, h.tags, List.find?_map]
  rfl

/-- Normal forms do not depend on numbers. -/
theorem normalize (h : b.Renumbered f g c) : b.normalize = c.normalize := by
  funext t
  rw [Builder.normalize, Builder.normalize, h.tag?]
  cases c.tag? t.name with
  | none => rfl
  | some d => rfl

theorem normalizeAll (h : b.Renumbered f g c) : b.normalizeAll = c.normalizeAll := by
  funext ts
  rw [Builder.normalizeAll, Builder.normalizeAll, h.normalize]

theorem parent (h : b.Renumbered f g c) (name : String) :
    b.parent name = (·.renumber f) <$> c.parent name := by
  rw [Builder.parent, Builder.parent, h.type?]
  cases c.type? name with
  | none => rfl
  | some d => rfl

theorem resolveType (h : b.Renumbered f g c) (id : TypeId) (draft : TypeDraft) :
    b.resolveType (f id) draft = (·.renumber f) <$> c.resolveType id draft := by
  simp only [Builder.resolveType, h.type?, h.normalizeAll, mapM_eq_map_mapM h.parent]
  cases c.type? draft.name with
  | some d => rfl
  | none =>
      simp only [Option.map_none, Option.isSome_none, Bool.false_eq_true, if_false, map_bind,
        bind_map_left, map_pure, TypeDefinition.renumber, List.map_map, List.flatMap_map]
      rfl

theorem resolveTag (h : b.Renumbered f g c) (id : TagId) (draft : TagDraft) :
    b.resolveTag (g id) draft = (·.renumber g) <$> c.resolveTag id draft := by
  simp only [Builder.resolveTag, h.tag?, h.normalizeAll]
  cases c.tag? draft.name with
  | some d => rfl
  | none =>
      simp only [Option.map_none, Option.isSome_none, Bool.false_eq_true, if_false, map_bind,
        map_pure]
      rfl

/-! ### What a step does -/

theorem nextTypeId (h : b.Renumbered f g c) : b.nextTypeId = f c.nextTypeId :=
  (h.nextTypes 0).symm

theorem nextTagId (h : b.Renumbered f g c) : b.nextTagId = g c.nextTagId :=
  (h.nextTags 0).symm

theorem withType (h : b.Renumbered f g c) (d : TypeDefinition) :
    (b.withType (d.renumber f)).Renumbered f g (c.withType d) where
  monoTypes := h.monoTypes
  monoTags := h.monoTags
  types := congrArg (d.renumber f :: ·) h.types
  tags := h.tags
  nextTypes n := by
    simp only [Builder.withType, Nat.add_assoc]
    exact h.nextTypes (1 + n)
  nextTags := h.nextTags

theorem withTag (h : b.Renumbered f g c) (d : TagDefinition) :
    (b.withTag (d.renumber g)).Renumbered f g (c.withTag d) where
  monoTypes := h.monoTypes
  monoTags := h.monoTags
  types := h.types
  tags := congrArg (d.renumber g :: ·) h.tags
  nextTypes := h.nextTypes
  nextTags n := by
    simp only [Builder.withTag, Nat.add_assoc]
    exact h.nextTags (1 + n)

end Renumbered

/-- The numbers from some number on are moved up by one. -/
def skipAt (k : ℕ) (f : ℕ → ℕ) (n : ℕ) : ℕ :=
  if n < k then f n else f n + 1

theorem skipAt_of_lt {k n : ℕ} (f : ℕ → ℕ) (h : n < k) : skipAt k f n = f n :=
  if_pos h

theorem skipAt_of_le {k n : ℕ} (f : ℕ → ℕ) (h : k ≤ n) : skipAt k f n = f n + 1 :=
  if_neg (Nat.not_lt.2 h)

theorem strictMono_skipAt {f : ℕ → ℕ} (mono : StrictMono f) (k : ℕ) : StrictMono (skipAt k f) := by
  intro m n lt
  have moved : f m < f n := mono lt
  by_cases before : n < k
  · rw [skipAt_of_lt f (lt.trans before), skipAt_of_lt f before]
    exact moved
  · rw [skipAt_of_le f (Nat.le_of_not_lt before)]
    by_cases here : m < k
    · rw [skipAt_of_lt f here]
      exact Nat.lt_succ_of_lt moved
    · rw [skipAt_of_le f (Nat.le_of_not_lt here)]
      exact Nat.succ_lt_succ moved

/-- A number of a type that is used up moves up those that come after it. -/
theorem Renumbered.reserveType (h : b.Renumbered f g c) (grown : c.Grown) :
    b.reserveType.2.Renumbered (skipAt c.nextTypeId f) g c where
  monoTypes := strictMono_skipAt h.monoTypes _
  monoTags := h.monoTags
  types := by
    -- the types that are there have smaller numbers, and so have their parents
    show b.types = _
    rw [h.types]
    refine List.map_congr_left fun d hd => ?_
    have parents : d.parentIds.map (skipAt c.nextTypeId f) = d.parentIds.map f := by
      refine List.map_congr_left fun id hid => skipAt_of_lt f ?_
      exact (grown.lineal.lt_of_mem_parentIds hd hid).trans (grown.numbered d hd)
    rw [TypeDefinition.renumber, TypeDefinition.renumber, parents,
      skipAt_of_lt f (grown.numbered d hd)]
  tags := h.tags
  nextTypes n := by
    rw [skipAt_of_le f (Nat.le_add_right _ _), h.nextTypes, Nat.add_right_comm]
    rfl
  nextTags := h.nextTags

/-- A number of a tag that is used up moves up those that come after it. -/
theorem Renumbered.reserveTag (h : b.Renumbered f g c)
    (numbered : ∀ d ∈ c.tags, d.id < c.nextTagId) :
    b.reserveTag.2.Renumbered f (skipAt c.nextTagId g) c where
  monoTypes := h.monoTypes
  monoTags := strictMono_skipAt h.monoTags _
  types := h.types
  tags := by
    show b.tags = _
    rw [h.tags]
    refine List.map_congr_left fun d hd => ?_
    rw [TagDefinition.renumber, TagDefinition.renumber, skipAt_of_lt g (numbered d hd)]
  nextTypes := h.nextTypes
  nextTags n := by
    rw [skipAt_of_le g (Nat.le_add_right _ _), h.nextTags, Nat.add_right_comm]
    rfl

/-- A step makes a definition from both builders, or from none and then may as well
be left out for the second. -/
theorem Renumbered.declare (h : b.Renumbered f g c) (grown : c.Grown)
    (numbered : ∀ d ∈ c.tags, d.id < c.nextTagId) (step : Definition) :
    (b.declare step).1 = true ∧ (c.declare step).1 = true ∧
      (b.declare step).2.Renumbered f g (c.declare step).2 ∨
    (b.declare step).1 = false ∧ ∃ f' g', (b.declare step).2.Renumbered f' g' c := by
  cases step with
  | type draft =>
      have resolved := h.resolveType c.nextTypeId draft
      rw [← h.nextTypeId] at resolved
      cases own : c.resolveType c.nextTypeId draft with
      | ok d =>
          rw [own] at resolved
          rw [declare_type_ok own, declare_type_ok resolved]
          exact Or.inl ⟨rfl, rfl, h.withType d⟩
      | error e =>
          rw [own] at resolved
          rw [declare_type_error resolved]
          exact Or.inr ⟨rfl, _, _, h.reserveType grown⟩
  | tag draft =>
      have resolved := h.resolveTag c.nextTagId draft
      rw [← h.nextTagId] at resolved
      cases own : c.resolveTag c.nextTagId draft with
      | ok d =>
          rw [own] at resolved
          rw [declare_tag_ok own, declare_tag_ok resolved]
          exact Or.inl ⟨rfl, rfl, h.withTag d⟩
      | error e =>
          rw [own] at resolved
          rw [declare_tag_error resolved]
          exact Or.inr ⟨rfl, _, _, h.reserveTag numbered⟩
  | abandonedType =>
      exact Or.inr ⟨rfl, _, _, h.reserveType grown⟩
  | abandonedTag =>
      exact Or.inr ⟨rfl, _, _, h.reserveTag numbered⟩

/-- Without the steps that make no definition, the rest make theirs, and come to the
same builder but for the numbers. -/
theorem exists_renumbered (setup ds : List Definition) :
    let start := empty.declareAll setup
    start.MakesAll (start.kept ds) ∧
      ∃ f g, (start.declareAll ds).Renumbered f g (start.declareAll (start.kept ds)) := by
  intro start
  induction ds using List.reverseRecOn with
  | nil => exact ⟨trivial, id, id, .refl start⟩
  | append_singleton ds step ih =>
      obtain ⟨all, f, g, h⟩ := ih
      have course : start.declareAll (start.kept ds) = empty.declareAll (setup ++ start.kept ds) :=
        (declareAll_append empty setup _).symm
      have grown := grown_declareAll (setup ++ start.kept ds)
      have numbered := (settled_declareAll (setup ++ start.kept ds)).numbered
      rw [← course] at grown numbered
      rw [declareAll_concat, kept_append]
      rcases h.declare grown numbered step with ⟨made, again, next⟩ | ⟨failed, f', g', next⟩
      · simp only [kept, made, if_true, makesAll_append, declareAll_concat]
        exact ⟨⟨all, again, trivial⟩, f, g, next⟩
      · simp only [kept, failed, Bool.false_eq_true, if_false, List.append_nil]
        exact ⟨all, f', g', next⟩

theorem Renumbered.build (h : b.Renumbered f g c) : b.build = c.build.renumber f g := by
  rw [Builder.build, h.types, h.tags, SubtypeIndex.ofTypes_renumber h.monoTypes.injective]
  rfl

/-! ### Numbers -/

theorem nextIds_declare (b : Builder) (step : Definition) :
    (b.declare step).2.nextTypeId = b.nextTypeId + [step].countP (·.isType) ∧
      (b.declare step).2.nextTagId = b.nextTagId + [step].countP (·.isTag) := by
  cases step with
  | type draft =>
      cases own : b.resolveType b.nextTypeId draft with
      | ok d =>
          rw [declare_type_ok own]
          exact ⟨rfl, rfl⟩
      | error e =>
          rw [declare_type_error own]
          exact ⟨rfl, rfl⟩
  | tag draft =>
      cases own : b.resolveTag b.nextTagId draft with
      | ok d =>
          rw [declare_tag_ok own]
          exact ⟨rfl, rfl⟩
      | error e =>
          rw [declare_tag_error own]
          exact ⟨rfl, rfl⟩
  | abandonedType => exact ⟨rfl, rfl⟩
  | abandonedTag => exact ⟨rfl, rfl⟩

/-- The next numbers count the steps of their kinds. -/
theorem nextIds_declareAll (ds : List Definition) :
    (empty.declareAll ds).nextTypeId = ds.countP (·.isType) ∧
      (empty.declareAll ds).nextTagId = ds.countP (·.isTag) := by
  induction ds using List.reverseRecOn with
  | nil => exact ⟨rfl, rfl⟩
  | append_singleton ds step ih =>
      rw [declareAll_concat, List.countP_append, List.countP_append, ← ih.1, ← ih.2]
      exact nextIds_declare _ step

theorem addType_of_declare {draft : TypeDraft} (made : (b.declare (.type draft)).1 = true) :
    (b.addType draft).1 = .ok b.nextTypeId := by
  simp only [declare, addType, reserveType] at made ⊢
  split at made
  · rfl
  · cases made

theorem addTag_of_declare {draft : TagDraft} (made : (b.declare (.tag draft)).1 = true) :
    (b.addTag draft).1 = .ok b.nextTagId := by
  simp only [declare, addTag, reserveTag] at made ⊢
  split at made
  · rfl
  · cases made

end Builder

/-- The type was made by one of the steps, which answered with its number: that is
how many of the steps before had taken the number of a type. -/
def TypeDefinition.ComesFrom (ds : List Definition) (u : TypeDefinition) : Prop :=
  ∃ before draft after, ds = before ++ .type draft :: after ∧ u.name = draft.name ∧
    ((Builder.empty.declareAll before).addType draft).1 = .ok u.id ∧
    u.id = before.countP (·.isType)

/-- The tag was made by one of the steps, which answered with its number: that is
how many of the steps before had taken the number of a tag. -/
def TagDefinition.ComesFrom (ds : List Definition) (d : TagDefinition) : Prop :=
  ∃ before draft after, ds = before ++ .tag draft :: after ∧ d.name = draft.name ∧
    ((Builder.empty.declareAll before).addTag draft).1 = .ok d.id ∧
    d.id = before.countP (·.isTag)

theorem TypeDefinition.ComesFrom.concat {ds : List Definition} {u : TypeDefinition}
    (h : u.ComesFrom ds) (step : Definition) : u.ComesFrom (ds ++ [step]) := by
  obtain ⟨before, draft, after, rfl, made⟩ := h
  exact ⟨before, draft, after ++ [step], by simp, made⟩

theorem TagDefinition.ComesFrom.concat {ds : List Definition} {d : TagDefinition}
    (h : d.ComesFrom ds) (step : Definition) : d.ComesFrom (ds ++ [step]) := by
  obtain ⟨before, draft, after, rfl, made⟩ := h
  exact ⟨before, draft, after ++ [step], by simp, made⟩

/-- What a builder has comes from the steps that were taken. -/
theorem Builder.comesFrom_declareAll (ds : List Definition) :
    (∀ u ∈ (empty.declareAll ds).types, u.ComesFrom ds) ∧
      ∀ d ∈ (empty.declareAll ds).tags, d.ComesFrom ds := by
  induction ds using List.reverseRecOn with
  | nil => simp [declareAll, empty]
  | append_singleton ds step ih =>
      rw [declareAll_concat]
      obtain ⟨typeId, tagId⟩ := nextIds_declareAll ds
      have types : ∀ u ∈ (empty.declareAll ds).types, u.ComesFrom (ds ++ [step]) :=
        fun u hu => (ih.1 u hu).concat step
      have tags : ∀ d ∈ (empty.declareAll ds).tags, d.ComesFrom (ds ++ [step]) :=
        fun d hd => (ih.2 d hd).concat step
      rcases (empty.declareAll ds).declare_cases step with
        ⟨draft, u, rfl, made, e⟩ | ⟨draft, d, rfl, made, e⟩ | e | e
      · have answer := addType_of_declare (congrArg Prod.fst e)
        rw [← made.id_eq] at answer typeId
        rw [e]
        refine ⟨List.forall_mem_cons.2 ⟨?_, types⟩, tags⟩
        exact ⟨ds, draft, [], rfl, made.name_eq, answer, typeId⟩
      · have answer := addTag_of_declare (congrArg Prod.fst e)
        rw [← made.id_eq] at answer tagId
        rw [e]
        refine ⟨types, List.forall_mem_cons.2 ⟨?_, tags⟩⟩
        exact ⟨ds, draft, [], rfl, made.name_eq, answer, tagId⟩
      · rw [e]
        exact ⟨types, tags⟩
      · rw [e]
        exact ⟨types, tags⟩

/-- If the definitions that fail are left out, all others succeed as before.  The
registry is then the same, but for numbers that were moved up without changing their
order: the number of a definition counts all steps of its kind before it. -/
theorem failed_definitions_leave_no_trace (setup ds : List Definition) :
    let start := Builder.empty.declareAll setup
    let made := start.kept ds
    let r := (start.declareAll ds).build
    start.MakesAll made ∧
    (∃ f g, StrictMono f ∧ StrictMono g ∧ r = (start.declareAll made).build.renumber f g) ∧
    (∀ u ∈ r.types, u.ComesFrom (setup ++ ds)) ∧
    ∀ d ∈ r.tags, d.ComesFrom (setup ++ ds) := by
  intro start made r
  obtain ⟨all, f, g, h⟩ := Builder.exists_renumbered setup ds
  have source := Builder.comesFrom_declareAll (setup ++ ds)
  rw [Builder.declareAll_append] at source
  exact ⟨all, ⟨f, g, h.monoTypes, h.monoTags, h.build⟩, source⟩

example : (Builder.empty.declareAll kennel).types.map (fun u => (u.name, u.id, u.parentIds)) =
      [("Dog", 3, [0]), ("Animal", 0, [])] ∧
    (Builder.empty.declareAll (Builder.empty.kept kennel)).types.map
      (fun u => (u.name, u.id, u.parentIds)) = [("Dog", 1, [0]), ("Animal", 0, [])] :=
  ⟨rfl, rfl⟩

end Memberwise
