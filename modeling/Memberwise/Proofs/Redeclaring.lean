import Memberwise.Proofs.Limits

/-!
# Stored tags, written again

A stored tag is complete: it has all parameters of its definition, and where it is written
again there is nothing left to fill in.  What was given the first time was checked then, and
defaults were checked where the tag was defined, both against the same types
(`Builder.normalize_again`).

They are checked alike but for null.  A default may be null, and null is never given, so a
tag that got a null by default cannot be written as it is stored.  Every other stored tag
may stand wherever the one may that it was made from (`stored_tags_may_be_written_again`).
-/

namespace Memberwise

/-- The first parameter that is null. -/
def TagOf.firstNull? (t : Tag) : Option (String × Value) :=
  t.params.find? (·.2.isNull)

/-! ### What is written and what is stored -/

/-- A type that is tagged once more. -/
def TypeDraft.withTag (d : TypeDraft) (t : Tag) : TypeDraft :=
  { d with tags := d.tags ++ [t] }

/-- The draft with other tags in the place of those that are written on it. -/
def TypeDraft.mapTags (f : Tag → Tag) (d : TypeDraft) : TypeDraft :=
  { d with
    fields := d.fields.map fun x => { x with tags := x.tags.map f }
    accessors := d.accessors.map fun x => { x with tags := x.tags.map f }
    mutators := d.mutators.map fun x => { x with tags := x.tags.map f }
    tags := d.tags.map f }

namespace Definition

def mapTags (f : Tag → Tag) : Definition → Definition
  | type d => .type (d.mapTags f)
  | tag d => .tag { d with metaTags := d.metaTags.map f }
  | abandonedType => .abandonedType
  | abandonedTag => .abandonedTag

/-- The tags that are written on a draft, place by place. -/
def writtenTags : Definition → List Tag
  | type d =>
    d.fields.flatMap (·.tags) ++ d.accessors.flatMap (·.tags) ++ d.mutators.flatMap (·.tags) ++
      d.tags
  | tag d => d.metaTags
  | abandonedType | abandonedTag => []

end Definition

namespace Builder

variable {b : Builder} {f : Tag → Tag} {s t : Tag}

/-- The tags on the definition that was made last, if the step made one. -/
def lastStored (b : Builder) : Definition → List Tag
  | .type _ => b.types.head?.elim [] (·.storedTags)
  | .tag _ => b.tags.head?.elim [] (·.metaTags)
  | .abandonedType | .abandonedTag => []

/-- The step makes a definition on which the first tag is written, and in its place the
second is stored. -/
structure Stores (b : Builder) (step : Definition) (s t : Tag) : Prop where
  made : (b.declare step).1 = true
  placed : (s, t) ∈ step.writtenTags.zip ((b.declare step).2.lastStored step)

theorem forall₂_flatMap_of_normalizesTags {α : Type} {tags : α → List Tag}
    {withTags : α → List Tag → α} (replaced : ∀ x ts, tags (withTags x ts) = ts) {xs ys : List α}
    (all : List.Forall₂ (b.NormalizesTags tags withTags) xs ys) :
    List.Forall₂ (fun s t => b.normalize s = .ok t) (xs.flatMap tags) (ys.flatMap tags) := by
  refine List.rel_flatMap all ?_
  rintro x y ⟨ts, normalized, rfl⟩
  rw [replaced]
  exact mapM_eq_ok.1 normalized

/-- A definition stores the normal forms of what is written on it. -/
theorem forall₂_normalize_of_declare {step : Definition} (made : (b.declare step).1 = true) :
    List.Forall₂ (fun s t => b.normalize s = .ok t) step.writtenTags
      ((b.declare step).2.lastStored step) := by
  rcases b.declare_cases step with ⟨draft, u, rfl, resolved, e⟩ |
    ⟨draft, d, rfl, resolved, e⟩ | e | e
  · rw [e]
    have fields := forall₂_flatMap_of_normalizesTags (fun _ _ => rfl) resolved.fields
    have accessors := forall₂_flatMap_of_normalizesTags (fun _ _ => rfl) resolved.accessors
    have mutators := forall₂_flatMap_of_normalizesTags (fun _ _ => rfl) resolved.mutators
    exact List.rel_append (List.rel_append (List.rel_append fields accessors) mutators)
      (mapM_eq_ok.1 resolved.tags)
  · rw [e]
    exact mapM_eq_ok.1 resolved.metaTags
  · cases made.symm.trans (congrArg Prod.fst e)
  · cases made.symm.trans (congrArg Prod.fst e)

theorem Stores.normalize_eq {step : Definition} (h : b.Stores step s t) :
    b.normalize s = .ok t :=
  List.forall₂_zip (forall₂_normalize_of_declare h.made) h.placed

theorem exists_normalize_of_mem_writtenTags {step : Definition}
    (made : (b.declare step).1 = true) (written : t ∈ step.writtenTags) :
    ∃ u, b.normalize t = .ok u := by
  obtain ⟨u, -, done⟩ := exists_of_forall₂ (forall₂_normalize_of_declare made).flip written
  exact ⟨u, done⟩

/-! ### Tags that come to the same -/

theorem normalizeAll_map (same : ∀ t, b.normalize (f t) = b.normalize t) (ts : List Tag) :
    b.normalizeAll (ts.map f) = b.normalizeAll ts := by
  rw [normalizeAll, normalizeAll, List.mapM_map]
  exact congrArg (ts.mapM ·) (funext same)

theorem resolveType_mapTags (same : ∀ t, b.normalize (f t) = b.normalize t) (id : TypeId)
    (d : TypeDraft) : b.resolveType id (d.mapTags f) = b.resolveType id d := by
  simp only [resolveType, TypeDraft.mapTags, List.map_map, List.mapM_map, Function.comp_def,
    normalizeAll_map same]

theorem resolveTag_mapTags (same : ∀ t, b.normalize (f t) = b.normalize t) (id : TagId)
    (d : TagDraft) :
    b.resolveTag id { d with metaTags := d.metaTags.map f } = b.resolveTag id d := by
  simp only [resolveTag, normalizeAll_map same]

/-- Tags with the same normal forms may stand for each other. -/
theorem declare_mapTags (same : ∀ t, b.normalize (f t) = b.normalize t) (step : Definition) :
    b.declare (step.mapTags f) = b.declare step := by
  cases step with
  | type d =>
      have resolved := resolveType_mapTags (b := b.reserveType.2) same b.nextTypeId d
      simp only [Definition.mapTags, declare, addType, reserveType] at resolved ⊢
      rw [resolved]
  | tag d =>
      have resolved := resolveTag_mapTags (b := b.reserveTag.2) same b.nextTagId d
      simp only [Definition.mapTags, declare, addTag, reserveTag] at resolved ⊢
      rw [resolved]
  | abandonedType => rfl
  | abandonedTag => rfl

/-! ### Normal forms of normal forms -/

theorem tag?_declare {name : String} {d : TagDefinition} (found : b.tag? name = some d)
    (step : Definition) : (b.declare step).2.tag? name = some d := by
  rcases b.declare_cases step with ⟨draft, u, -, -, e⟩ | ⟨draft, e', -, made, e⟩ | e | e
  · rw [e]
    exact found
  · rw [e]
    exact tag?_withTag (made.name_eq ▸ made.fresh) found
  · rw [e]
    exact found
  · rw [e]
    exact found

/-- What a name stands for does not change. -/
theorem tag?_declareAll {name : String} {d : TagDefinition} (found : b.tag? name = some d)
    (later : List Definition) : (b.declareAll later).tag? name = some d := by
  induction later generalizing b with
  | nil => exact found
  | cons step later ih => exact ih (tag?_declare found step)

/-- Where all are looked at in order, the first that is refused decides. -/
theorem forM_eq_find? {ε α : Type} {g : α → Except ε Unit} {refused : α → Bool} {e : α → ε}
    {as : List α} (each : ∀ a ∈ as, g a = if refused a then .error (e a) else .ok ()) :
    as.forM g = (as.find? refused).elim (.ok ()) (.error ∘ e) := by
  induction as with
  | nil => rfl
  | cons a as ih =>
      have later := ih fun a' ha' => each a' (List.mem_cons_of_mem _ ha')
      show (g a >>= fun _ => as.forM g) = _
      rw [each a List.mem_cons_self, List.find?_cons]
      cases refused a with
      | true => rfl
      | false => exact later

/-- What is said against a parameter that is null. -/
def nullRefusal (d : TagDefinition) (p : String × Value) : RegistryError :=
  .invalidTagParam d.name p.1 ((d.param? p.1).elim .any (·.type)) Value.null.sortName

/-- A parameter of a value that its type accepts passes, unless it is null. -/
theorem checkParam_of_accepts {d : TagDefinition} {declared : TagParameter} {p : String × Value}
    (found : d.param? p.1 = some declared) (fits : declared.type.accepts p.2 = true) :
    checkParam d p = if p.2.isNull then .error (nullRefusal d p) else .ok () := by
  rw [checkParam, nullRefusal, found]
  simp only [fits, Bool.not_true, Bool.or_false]
  cases h : p.2 with
  | null => rfl
  | _ => rfl

end Builder

/-- The tag has all parameters of its definition, filled in in their order, and each is of
a value that its type accepts. -/
structure TagDefinition.Fills (d : TagDefinition) (t : Tag) : Prop where
  name : t.name = d.name
  accepted : ∀ p ∈ t.params, ∃ declared, d.param? p.1 = some declared ∧
    declared.type.accepts p.2 = true
  filled : ∃ params, d.params.mapM (Builder.fillParam d t) = .ok params ∧
    t.params = Pairs.ofList params

namespace Builder

variable {b : Builder} {d : TagDefinition} {s t : Tag}

/-- What was brought into normal form is filled: what was given was checked, and defaults
fit their parameters. -/
theorem fills_of_normalize (distinct : ∀ d ∈ b.tags, (d.params.map (·.name)).Nodup)
    (defaults : ∀ d ∈ b.tags, ∀ p ∈ d.params, ∀ v, p.default = some v → p.type.accepts v = true)
    (h : b.normalize s = .ok t) : ∃ d, b.tag? t.name = some d ∧ d.Fills t := by
  obtain ⟨d, params, known, checked, filled, rfl⟩ := normalize_eq_ok h
  obtain ⟨registered, named⟩ := mem_of_tag?_eq_some known
  have apart : (params.map (·.1)).Nodup := map_fst_of_fillParam filled ▸ distinct d registered
  refine ⟨d, named ▸ known, rfl, ?_, params, ?_, rfl⟩
  · intro q hq
    obtain ⟨p, hp, done⟩ := exists_of_forall₂ filled (Pairs.mem_of_mem_ofList hq)
    obtain ⟨called, given | default⟩ := fillParam_eq_ok done
    · obtain ⟨declared, found, -, fits⟩ := checkParam_eq_ok (checked _ (Pairs.mem_of_get? given))
      exact ⟨declared, called ▸ found, fits⟩
    · refine ⟨p, ?_, defaults d registered p hp q.2 default⟩
      exact called ▸ find?_name_of_nodup (distinct d registered) hp
  · refine mapM_eq_ok.2 (List.forall₂_iff_zip.2 ⟨filled.length_eq, ?_⟩)
    intro p q paired
    obtain ⟨called, -⟩ := fillParam_eq_ok (List.forall₂_zip filled paired)
    have given : (⟨d.name, Pairs.ofList params⟩ : Tag).get? p.name = some q.2 :=
      Pairs.get?_ofList_of_mem apart (called ▸ (List.of_mem_zip paired).2)
    rw [fillParam, given, ← called]

/-- A tag that is filled is its own normal form, unless one of its parameters is null. -/
theorem normalize_of_fills (known : b.tag? t.name = some d) (h : d.Fills t) :
    b.normalize t = t.firstNull?.elim (.ok t) (.error ∘ nullRefusal d) := by
  have checks : t.params.forM (checkParam d) =
      t.firstNull?.elim (.ok ()) (.error ∘ nullRefusal d) := by
    refine forM_eq_find? fun p hp => ?_
    obtain ⟨declared, found, fits⟩ := h.accepted p hp
    exact checkParam_of_accepts found fits
  obtain ⟨params, filled, same⟩ := h.filled
  rw [normalize, known]
  show (t.params.forM (checkParam d) >>= fun _ => _) = _
  rw [checks]
  cases t.firstNull? with
  | some p => rfl
  | none =>
      show (do
        let params ← d.params.mapM (fillParam d t)
        return (⟨d.name, Pairs.ofList params⟩ : Tag)) = Except.ok t
      rw [filled]
      show Except.ok (⟨d.name, Pairs.ofList params⟩ : Tag) = .ok t
      rw [← h.name, ← same]

theorem normalize_of_tag? {c : Builder} (same : b.tag? t.name = c.tag? t.name) :
    b.normalize t = c.normalize t := by
  rw [normalize, normalize, same]

/-- What a tag comes to does not change. -/
theorem normalize_declareAll (h : b.normalize s = .ok t) (later : List Definition) :
    (b.declareAll later).normalize s = .ok t := by
  obtain ⟨d, -, known, -⟩ := normalize_eq_ok h
  rw [← h]
  exact normalize_of_tag? ((tag?_declareAll known later).trans known.symm)

/-- Where a tag may stand, one may stand that is stored in its place, and it is stored as
it is. -/
structure TakesFor (b : Builder) (s t : Tag) : Prop where
  normalize_eq : b.normalize t = .ok t
  stores : ∀ name, b.type? name = none →
    b.Stores (.type ((TypeDraft.plain name).withTag t)) t t
  eq_of_stores : ∀ next u, b.Stores next t u → u = t
  declare_eq : ∀ f : Tag → Tag, (∀ u, f u = u ∨ u = s ∧ f u = t) →
    ∀ next, b.declare (next.mapTags f) = b.declare next

theorem takesFor_of_normalize (first : b.normalize s = .ok t) (again : b.normalize t = .ok t) :
    b.TakesFor s t where
  normalize_eq := again
  stores := by
    intro name free
    have tags : b.normalizeAll [t] = .ok [t] := mapM_eq_ok.2 (.cons again .nil)
    have resolved : b.resolveType b.nextTypeId ((TypeDraft.plain name).withTag t) =
        .ok ⟨b.nextTypeId, name, [], [], [], [], [], [t], false⟩ := by
      show (do
        if (b.type? name).isSome then throw (RegistryError.duplicateTypeName name)
        let tags ← b.normalizeAll [t]
        return (⟨b.nextTypeId, name, [], [], [], [], [], tags, false⟩ : TypeDefinition)) = _
      rw [free, tags]
      rfl
    have declared := declare_type_ok resolved
    constructor
    · rw [declared]
    · rw [declared]
      exact List.mem_cons_self
  eq_of_stores := by
    intro next u stored
    exact Except.ok.inj (stored.normalize_eq.symm.trans again)
  declare_eq := by
    intro f instead next
    refine declare_mapTags (fun u => ?_) next
    rcases instead u with same | ⟨rfl, placed⟩
    · rw [same]
    · rw [placed, first, again]

end Builder

/-- A stored tag may be written on any further definition, in the place of the one that it
was made from, unless one of its parameters is null.  Then every definition on which it is
written is refused, for the first such parameter. -/
theorem stored_tags_may_be_written_again (ds later : List Definition) (step : Definition)
    {s t : Tag} (stored : (Builder.empty.declareAll ds).Stores step s t) :
    let b := Builder.empty.declareAll (ds ++ step :: later)
    (t.firstNull? = none → b.TakesFor s t) ∧
    ∀ p, t.firstNull? = some p →
      (∃ type, b.normalize t = .error (.invalidTagParam t.name p.1 type "Null")) ∧
      ∀ next, t ∈ next.writtenTags → (b.declare next).1 = false := by
  intro b
  have later_on : b = (Builder.empty.declareAll ds).declareAll (step :: later) :=
    Builder.declareAll_append _ ds _
  have first := stored.normalize_eq
  obtain ⟨d, known, fills⟩ := Builder.fills_of_normalize (Builder.nodup_params_declareAll ds)
    (Builder.named_declareAll ds).defaults first
  have again : b.normalize t = t.firstNull?.elim (.ok t) (.error ∘ Builder.nullRefusal d) :=
    Builder.normalize_of_fills (later_on ▸ Builder.tag?_declareAll known _) fills
  constructor
  · intro noNull
    rw [noNull] at again
    exact Builder.takesFor_of_normalize (later_on ▸ Builder.normalize_declareAll first _) again
  · intro p null
    rw [null] at again
    refine ⟨⟨(d.param? p.1).elim .any (·.type), ?_⟩, ?_⟩
    · rw [again, fills.name]
      rfl
    · intro next written
      rw [← Bool.not_eq_true]
      intro made
      obtain ⟨u, done⟩ := Builder.exists_normalize_of_mem_writtenTags made written
      cases again.symm.trans done

/-! An offer may be dated.  It is for here by default, and for no day by default. -/

def dated : TagDraft :=
  { TagDraft.plain "dated" with
    params := [⟨"day", .string, some .null⟩, ⟨"place", .string, some (.string "here")⟩] }

def datedOffer (name : String) (t : Tag) : Definition :=
  .type ((TypeDraft.plain name).withField { Field.plain "price" .int with tags := [t] })

/-- With a day, what is stored is taken again as what was written. -/
theorem offer_is_dated_as_another :
    let s : Tag := ⟨"dated", [("day", .string "May 1")]⟩
    let t : Tag := ⟨"dated", [("day", .string "May 1"), ("place", .string "here")]⟩
    (Builder.empty.declareAll [.tag dated]).Stores (datedOffer "Offer" s) s t ∧
      t.firstNull? = none ∧
      (Builder.empty.declareAll [.tag dated, datedOffer "Offer" s]).TakesFor s t := by
  intro s t
  have stored : (Builder.empty.declareAll [.tag dated]).Stores (datedOffer "Offer" s) s t :=
    ⟨rfl, List.mem_cons_self⟩
  exact ⟨stored, rfl, (stored_tags_may_be_written_again [.tag dated] [] _ stored).1 rfl⟩

/-- Without a day null is stored for it, and what is stored is refused. -/
theorem undated_offer_is_not_taken_again :
    let s : Tag := ⟨"dated", []⟩
    let t : Tag := ⟨"dated", [("day", .null), ("place", .string "here")]⟩
    (Builder.empty.declareAll [.tag dated]).Stores (datedOffer "Offer" s) s t ∧
      ((Builder.empty.declareAll [.tag dated, datedOffer "Offer" s]).declare
        (datedOffer "Sale" t)).1 = false ∧
      (Builder.empty.declareAll [.tag dated, datedOffer "Offer" s]).normalize t =
        .error (.invalidTagParam "dated" "day" .string "Null") :=
  ⟨⟨rfl, List.mem_cons_self⟩, rfl, rfl⟩

end Memberwise
