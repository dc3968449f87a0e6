import Memberwise.Member.Basic
import Memberwise.Proofs.Merging
import Memberwise.Proofs.Pairs

/-!
# What is listed

The members that a catalog lists for a container follow from its kind
(`listed_of_templatesOf`).  Those of objects are merged along a line of registered
types, and only they have tags.  However a member is asked for, it has one of the
forms of `Template.Provided`.  Whatever is listed is also found under its name, if
lists are not longer than their positions can be counted
(`CatalogRef.answer_templateOf?_of_mem`).
-/

namespace Memberwise

/-- A member that is listed for a container. -/
inductive Listed (r : Registry) (h : Heap) : Value → Template → Prop
  | declared {o : ObjectRef} {line : List TypeDefinition} {t : Template}
      (known : ∀ u ∈ line, u ∈ r.types) (merged : t ∈ membersAlong line) : Listed r h (.object o) t
  | param {s : Tag} {d : TagDefinition} {p : TagParameter} (known : d ∈ r.tags)
      (stated : p ∈ d.params) : Listed r h (.tag s) (paramTemplate s.name p)
  | item {l : ListRef} {i : Nat} (within : i < (h.items l).length) :
      Listed r h (.list l) (itemTemplate l.elementType (Text.Numeral.write i) (.nth i))
  | entry {m : MapRef} {key : String} (stored : key ∈ (h.entries m).keys) :
      Listed r h (.map m) (keyTemplate m.valueType key)
  | property {p : PropertiesRef} {key : String} (stored : key ∈ (h.propertyDict p).keys) :
      Listed r h (.properties p) (propertyTemplate key)
  | column (c : CursorRef) (i : Nat) :
      Listed r h (.cursor c) (columnTemplate (Text.Numeral.write (i + 1)))

theorem mem_membersAlong {line : List TypeDefinition} {m : Template} : m ∈ membersAlong line ↔
    ∃ n, (∃ u ∈ line, n ∈ declaredNames u) ∧ m = (Declarations.along line n).merge n := by
  have names : ∀ n, n ∈ distinct (line.flatMap (·.memberNames)) ↔ ∃ u ∈ line, n ∈ declaredNames u := by
    intro n
    simp only [mem_distinct, List.mem_flatMap, TypeDefinition.memberNames, declaredNames]
  simp only [membersAlong, List.mem_map, names, eq_comm]

theorem Registry.mem_types_of_mem_lineage {r : Registry} {name : String} {u : TypeDefinition}
    (hu : u ∈ r.lineage name) : u ∈ r.types := by
  rw [lineage] at hu
  split at hu
  · rename_i s found
    rcases List.mem_cons.1 hu with rfl | hu
    · exact List.mem_of_find?_eq_some found
    · obtain ⟨above, -, found⟩ := List.mem_filterMap.1 hu
      exact List.mem_of_find?_eq_some found
  · cases hu

section Discovery

variable {r : Registry} {h : Heap} {name : String} {deep : Bool} {ts : List Template}

/-- The members of a type are merged along a line of registered types. -/
theorem discoverObject_eq_ok (found : discoverObject r name deep = .ok ts) :
    ∃ line, (∀ u ∈ line, u ∈ r.types) ∧ ts = membersAlong line := by
  rw [discoverObject] at found
  cases registered : r.type? name with
  | none =>
      rw [registered] at found
      cases found
  | some s =>
      rw [registered] at found
      cases found
      refine ⟨_, ?_, rfl⟩
      intro u hu
      cases deep with
      | true => exact Registry.mem_types_of_mem_lineage hu
      | false =>
          cases List.mem_singleton.1 hu
          exact List.mem_of_find?_eq_some registered

theorem discoverTag_eq_ok (found : discoverTag r name = .ok ts) :
    ∃ d ∈ r.tags, ts = d.params.map (paramTemplate name) := by
  rw [discoverTag] at found
  cases registered : r.tag? name with
  | none =>
      rw [registered] at found
      cases found
  | some d =>
      rw [registered] at found
      cases found
      exact ⟨d, List.mem_of_find?_eq_some registered, rfl⟩

theorem discoverCursor_eq_ok {c : CursorRef} (found : discoverCursor h c = .ok ts) :
    ∃ count, ts = (List.range count).map fun i => columnTemplate (Text.Numeral.write (i + 1)) := by
  rw [discoverCursor] at found
  cases counted : (h.cursor c).columnCount with
  | error e =>
      rw [counted] at found
      cases found
  | ok count =>
      rw [counted] at found
      cases found
      exact ⟨count, rfl⟩

end Discovery

namespace Text.Numeral

theorem isNumeral_write (n : Nat) : isNumeral (write n) = true := by
  have some : (digits n).isEmpty = false := by
    rw [List.isEmpty_eq_false_iff]
    exact Nat.toDigits_ne_nil
  have all : (digits n).all Char.isDigit = true := by
    rw [List.all_eq_true]
    intro c hc
    exact Nat.isDigit_of_mem_toDigits (by decide) (by decide) hc
  simp [isNumeral, write, some, all]

theorem value_write (n : Nat) : value (write n).toList = n := by
  rw [write, String.toList_ofList, value_digits]

theorem write_injective : Function.Injective write := by
  intro m n same
  rw [← value_write m, same, value_write]

end Text.Numeral

/-- A plain numeral stands for the position of its value, if there can be one. -/
theorem Position.parse?_of_isNumeral {name : String}
    (numeral : Text.Numeral.isNumeral name = true) :
    parse? name = if Text.Numeral.value name.toList < indexLimit then
      some (.nth (Text.Numeral.value name.toList)) else none := by
  have other : ∀ word, Text.Numeral.isNumeral word = false → name ≠ word := by
    rintro word text rfl
    rw [text] at numeral
    cases numeral
  rw [parse?, if_neg (other _ (by decide)), if_neg (other _ (by decide)), Text.Numeral.read?]
  by_cases below : Text.Numeral.value name.toList < indexLimit
  · simp [numeral, below]
  · simp [numeral, below]

theorem Position.parse?_write {n : Nat} (below : n < indexLimit) :
    parse? (Text.Numeral.write n) = some (.nth n) := by
  rw [parse?_of_isNumeral (Text.Numeral.isNumeral_write n), Text.Numeral.value_write, if_pos below]

/-- The name of a place in a list: a word for an end, or a plain numeral. -/
inductive Position.NamedBy : Position → String → Prop
  | first : NamedBy .first "first"
  | last : NamedBy .last "last"
  | nth {name : String} (numeral : Text.Numeral.isNumeral name = true) :
      NamedBy (.nth (Text.Numeral.value name.toList)) name

theorem Position.namedBy_write (n : Nat) : (nth n).NamedBy (Text.Numeral.write n) := by
  have named := NamedBy.nth (Text.Numeral.isNumeral_write n)
  rwa [Text.Numeral.value_write] at named

theorem Position.namedBy_of_parse? {name : String} {p : Position} (h : parse? name = some p) :
    p.NamedBy name := by
  rw [parse?] at h
  split at h
  · rename_i first
    cases h
    exact first ▸ .first
  · split at h
    · rename_i last
      cases h
      exact last ▸ .last
    · obtain ⟨i, read, rfl⟩ := Option.map_eq_some_iff.1 h
      rw [Text.Numeral.read?] at read
      split at read
      · rename_i numeral
        cases read
        exact .nth (Bool.and_eq_true_iff.1 numeral).1
      · cases read

/-- The forms of members, whether they are listed or looked up, of containers or of
their types. -/
inductive Template.Provided : Template → Prop
  | declared (line : List TypeDefinition) (name : String) :
      Provided ((Declarations.along line name).merge name)
  | param (tag : String) (p : TagParameter) : Provided (paramTemplate tag p)
  | item (element : ValueType) {name : String} {p : Position} (named : p.NamedBy name) :
      Provided (itemTemplate element name p)
  | entry (value : ValueType) (key : String) : Provided (keyTemplate value key)
  | property (key : String) : Provided (propertyTemplate key)
  | column (name : String) : Provided (columnTemplate name)

theorem Listed.provided {r : Registry} {h : Heap} {target : Value} {t : Template}
    (listed : Listed r h target t) : t.Provided := by
  cases listed with
  | declared known merged =>
      obtain ⟨n, -, rfl⟩ := mem_membersAlong.1 merged
      exact .declared _ n
  | param known stated => exact .param _ _
  | item within => exact .item _ (Position.namedBy_write _)
  | entry stored => exact .entry _ _
  | property stored => exact .property _
  | column c i => exact .column _

theorem provided_of_discoverType {r : Registry} {type : ValueType} {deep : Bool}
    {ts : List Template} (found : discoverType r type deep = .ok ts) : ∀ t ∈ ts, t.Provided := by
  intro t ht
  cases type with
  | object name =>
      obtain ⟨line, -, rfl⟩ := discoverObject_eq_ok found
      obtain ⟨n, -, rfl⟩ := mem_membersAlong.1 ht
      exact .declared _ n
  | tag name =>
      obtain ⟨d, -, rfl⟩ := discoverTag_eq_ok found
      obtain ⟨p, -, rfl⟩ := List.mem_map.1 ht
      exact .param _ p
  | _ => cases found

theorem provided_of_listTemplate? {element : ValueType} {name : String} {t : Template}
    (found : listTemplate? element name = some t) : t.Provided := by
  obtain ⟨p, parsed, rfl⟩ := Option.map_eq_some_iff.1 found
  exact .item _ (Position.namedBy_of_parse? parsed)

theorem provided_of_typeTemplate? {type : ValueType} {name : String} {t : Template}
    (found : typeTemplate? type name = some t) : t.Provided := by
  cases type with
  | list element => exact provided_of_listTemplate? found
  | map value =>
      cases found
      exact .entry _ _
  | properties =>
      cases found
      exact .property _
  | cursor =>
      cases found
      exact .column _
  | _ => cases found

theorem listTemplate?_of_findInList? {h : Heap} {l : ListRef} {name : String} {t : Template}
    (found : findInList? h l name = some t) : listTemplate? l.elementType name = some t := by
  rw [findInList?] at found
  rw [listTemplate?]
  split at found
  · rename_i i parsed
    split at found
    · rw [parsed]
      exact found
    · cases found
  · rename_i p _ parsed
    rw [parsed]
    exact found
  · cases found

theorem provided_of_findInstance {h : Heap} {target : Value} {name : String} {t : Template}
    (found : findInstance h target name = .ok (some t)) : t.Provided := by
  cases target with
  | list l => exact provided_of_listTemplate? (listTemplate?_of_findInList? (Except.ok.inj found))
  | map m =>
      cases found
      exact .entry _ _
  | properties p =>
      cases found
      exact .property _
  | cursor c =>
      cases found
      exact .column _
  | _ => cases found

/-! The index of members by name. -/

theorem exists_of_placesByName {ts : List Template} {name : String} {i : Nat}
    (kept : (placesByName ts).get? name = some i) : ∃ t, ts[i]? = some t ∧ t.name = name := by
  have entered := Pairs.mem_of_mem_ofList (Pairs.mem_of_get? kept)
  obtain ⟨⟨t, j⟩, stands, same⟩ := List.mem_map.1 entered
  cases same
  exact ⟨t, List.mem_zipIdx_iff_getElem?.1 stands, rfl⟩

/-- What is found at the place of a name is one of the members, and has the name. -/
theorem of_atPlaceOf? {ts : List Template} {name : String} {t : Template}
    (found : atPlaceOf? ts name = some t) : t ∈ ts ∧ t.name = name := by
  obtain ⟨i, kept, there⟩ := Option.bind_eq_some_iff.1 found
  obtain ⟨u, stands, called⟩ := exists_of_placesByName kept
  cases stands.symm.trans there
  exact ⟨List.mem_of_getElem? there, called⟩

/-- Where no name stands twice, an index finds what a search finds. -/
theorem atPlaceOf?_eq_find? {ts : List Template} (distinct : (ts.map (·.name)).Nodup)
    (name : String) : atPlaceOf? ts name = ts.find? (·.name == name) := by
  have keys : ((ts.zipIdx.map fun p => (p.1.name, p.2)).map (·.1)).Nodup := by
    rw [← List.zipIdx_map_fst 0 ts, List.map_map] at distinct
    rw [List.map_map]
    exact distinct
  have kept : ∀ t i, ts[i]? = some t → (placesByName ts).get? t.name = some i := by
    intro t i at_
    refine Pairs.get?_ofList_of_mem keys ?_
    exact List.mem_map.2 ⟨(t, i), List.mem_zipIdx_iff_getElem?.2 at_, rfl⟩
  cases found : ts.find? (·.name == name) with
  | some t =>
      obtain ⟨i, stands⟩ := List.mem_iff_getElem?.1 (List.mem_of_find?_eq_some found)
      have called : t.name = name := by simpa using List.find?_some found
      rw [atPlaceOf?, ← called, kept t i stands, Option.bind_some, stands]
  | none =>
      refine Option.eq_none_iff_forall_ne_some.2 fun t at_ => ?_
      obtain ⟨ht, called⟩ := of_atPlaceOf? at_
      exact List.find?_eq_none.1 found t ht (beq_iff_eq.2 called)

theorem atPlaceOf?_of_mem {ts : List Template} {t : Template}
    (distinct : (ts.map (·.name)).Nodup) (ht : t ∈ ts) : atPlaceOf? ts t.name = some t :=
  (atPlaceOf?_eq_find? distinct t.name).trans (find?_name_of_nodup distinct ht)

/-- No list is longer than its positions can be counted, as all lists in memory are. -/
def Heap.Addressable (h : Heap) : Prop :=
  ∀ l, (h.items l).length ≤ indexLimit

namespace CatalogRef

variable {registryOf : CatalogRef → Registry} {d : CatalogRef} {h : Heap} {target : Value}
  {deep : Bool} {ts : List Template} {t : Template} {name : String}

/-- A member that is looked up by name among those of a type. -/
theorem answer_ask_atPlaceOf? {type : ValueType} :
    (do return atPlaceOf? (← d.ask type deep) name :
      Query MemberError (Option Template)).answer registryOf =
      (discoverType (registryOf d) type deep).map fun ts => atPlaceOf? ts name := by
  rw [Query.answer_bind_pure, answer_ask]

theorem answer_templateOf? : (d.templateOf? h target name deep).answer registryOf =
    match target.containerKind with
    | some kind =>
      if kind.isTypeLevel then
        (discoverType (registryOf d) target.type deep).map fun ts => atPlaceOf? ts name
      else findInstance h target name
    | none => .error (.notAContainer target.sortName) := by
  cases target with
  | object o => exact answer_ask_atPlaceOf?
  | tag t => exact answer_ask_atPlaceOf?
  | _ => rfl

/-- Objects, or tags, of one type have the same members, which are found under their names. -/
theorem answer_templateOf?_of_type {source : Value} {before : Heap}
    (typed : source.containerKind.any (·.isTypeLevel) = true) (same : source.type = target.type) :
    (d.templateOf? h target name deep).answer registryOf =
      ((d.templatesOf before source deep).answer registryOf).map fun ts =>
        atPlaceOf? ts name := by
  have kind : target.containerKind = source.containerKind := by
    rw [← Value.containerKind_type, ← same, Value.containerKind_type]
  rw [answer_templateOf?, kind, ← same]
  cases source with
  | object o => rfl
  | tag s => rfl
  | list l => cases typed
  | map m => cases typed
  | properties p => cases typed
  | cursor k => cases typed
  | _ => cases typed

theorem answer_membersOf : (d.membersOf h target deep).answer registryOf =
    ((d.templatesOf h target deep).answer registryOf).map fun ts =>
      ts.map fun t => .ofTemplate t (some target) :=
  Query.answer_bind_pure registryOf _ _

theorem membersOf_eq_ok {ms : List Member}
    (listed : (d.membersOf h target deep).answer registryOf = .ok ms) : ∃ ts,
      (d.templatesOf h target deep).answer registryOf = .ok ts ∧
        ms = ts.map fun t => .ofTemplate t (some target) := by
  rw [answer_membersOf] at listed
  obtain ⟨ts, found, rfl⟩ := map_eq_ok.1 listed
  exact ⟨ts, found, rfl⟩

theorem answer_memberOf? : (d.memberOf? h target name deep).answer registryOf =
    ((d.templateOf? h target name deep).answer registryOf).map fun found =>
      found.map fun t => .ofTemplate t (some target) :=
  Query.answer_bind_pure registryOf _ _

theorem memberOf?_eq_some {m : Member}
    (found : (d.memberOf? h target name deep).answer registryOf = .ok (some m)) : ∃ t,
      (d.templateOf? h target name deep).answer registryOf = .ok (some t) ∧
        m = .ofTemplate t (some target) := by
  rw [answer_memberOf?] at found
  obtain ⟨t?, looked, same⟩ := map_eq_ok.1 found
  obtain ⟨t, rfl, rfl⟩ := Option.map_eq_some_iff.1 same
  exact ⟨t, looked, rfl⟩

/-- Everything that is listed, by the kind of the container. -/
theorem listed_of_templatesOf (found : (d.templatesOf h target deep).answer registryOf = .ok ts)
    (ht : t ∈ ts) : Listed (registryOf d) h target t := by
  cases target with
  | object o =>
      obtain ⟨line, known, rfl⟩ := discoverObject_eq_ok found
      exact .declared known ht
  | tag s =>
      obtain ⟨definition, known, rfl⟩ := discoverTag_eq_ok found
      obtain ⟨p, stated, rfl⟩ := List.mem_map.1 ht
      exact .param known stated
  | list l =>
      cases found
      obtain ⟨i, within, rfl⟩ := List.mem_map.1 ht
      exact .item (List.mem_range.1 within)
  | map m =>
      cases found
      obtain ⟨key, stored, rfl⟩ := List.mem_map.1 ht
      exact .entry stored
  | properties p =>
      cases found
      obtain ⟨key, stored, rfl⟩ := List.mem_map.1 ht
      exact .property stored
  | cursor c =>
      obtain ⟨count, rfl⟩ := discoverCursor_eq_ok found
      obtain ⟨i, -, rfl⟩ := List.mem_map.1 ht
      exact .column c i
  | _ => cases found

/-- What is listed of a container has different names, if that is not a tag. -/
theorem eq_of_name {t' : Template} (other : ∀ tag, target ≠ .tag tag)
    (found : (d.templatesOf h target deep).answer registryOf = .ok ts) (ht : t ∈ ts)
    (ht' : t' ∈ ts) (same : t.name = t'.name) : t = t' := by
  cases target with
  | object o =>
      obtain ⟨line, -, rfl⟩ := discoverObject_eq_ok found
      obtain ⟨n, -, rfl⟩ := mem_membersAlong.1 ht
      obtain ⟨n', -, rfl⟩ := mem_membersAlong.1 ht'
      have same : n = n' := same
      rw [same]
  | tag s => exact absurd rfl (other s)
  | list l =>
      cases found
      obtain ⟨i, -, rfl⟩ := List.mem_map.1 ht
      obtain ⟨j, -, rfl⟩ := List.mem_map.1 ht'
      rw [Text.Numeral.write_injective same]
  | map m =>
      cases found
      obtain ⟨key, -, rfl⟩ := List.mem_map.1 ht
      obtain ⟨key', -, rfl⟩ := List.mem_map.1 ht'
      exact congrArg (keyTemplate m.valueType) same
  | properties p =>
      cases found
      obtain ⟨key, -, rfl⟩ := List.mem_map.1 ht
      obtain ⟨key', -, rfl⟩ := List.mem_map.1 ht'
      exact congrArg propertyTemplate same
  | cursor c =>
      obtain ⟨count, rfl⟩ := discoverCursor_eq_ok found
      obtain ⟨i, -, rfl⟩ := List.mem_map.1 ht
      obtain ⟨j, -, rfl⟩ := List.mem_map.1 ht'
      exact congrArg columnTemplate same
  | _ => cases found

theorem member_eq_of_name {m m' : Member} {ms : List Member} (other : ∀ tag, target ≠ .tag tag)
    (listed : (d.membersOf h target deep).answer registryOf = .ok ms) (hm : m ∈ ms)
    (hm' : m' ∈ ms) (same : m.name = m'.name) : m = m' := by
  obtain ⟨ts, found, rfl⟩ := membersOf_eq_ok listed
  obtain ⟨template, htemplate, rfl⟩ := List.mem_map.1 hm
  obtain ⟨template', htemplate', rfl⟩ := List.mem_map.1 hm'
  rw [eq_of_name other found htemplate htemplate' same]

/-! Whatever is listed or looked up has one of the forms. -/

theorem provided_of_templatesOf (found : (d.templatesOf h target deep).answer registryOf = .ok ts) :
    ∀ t ∈ ts, t.Provided :=
  fun _ ht => (listed_of_templatesOf found ht).provided

/-- A member that is found among those of a type is one of them. -/
theorem provided_of_atPlaceOf? {r : Registry} {type : ValueType}
    (found : ((discoverType r type deep).map fun ts => atPlaceOf? ts name) = .ok (some t)) :
    t.Provided := by
  obtain ⟨ts, listed, found⟩ := map_eq_ok.1 found
  exact provided_of_discoverType listed t (of_atPlaceOf? found).1

theorem provided_of_templateOf?
    (found : (d.templateOf? h target name deep).answer registryOf = .ok (some t)) :
    t.Provided := by
  rw [answer_templateOf?] at found
  split at found
  · split at found
    · exact provided_of_atPlaceOf? found
    · exact provided_of_findInstance found
  · cases found

theorem provided_of_templatesOfType {type : ValueType}
    (found : (d.templatesOfType type deep).answer registryOf = .ok ts) : ∀ t ∈ ts, t.Provided := by
  rw [templatesOfType] at found
  cases kind : type.containerKind with
  | none =>
      rw [kind] at found
      cases found
  | some k =>
      simp only [kind] at found
      cases typed : k.isTypeLevel with
      | true =>
          simp only [typed, if_true] at found
          exact provided_of_discoverType found
      | false =>
          simp only [typed] at found
          cases found
          exact fun t ht => absurd ht List.not_mem_nil

theorem provided_of_templateOfType? {type : ValueType}
    (found : (d.templateOfType? type name deep).answer registryOf = .ok (some t)) :
    t.Provided := by
  rw [templateOfType?] at found
  cases kind : type.containerKind with
  | none =>
      rw [kind] at found
      cases found
  | some k =>
      simp only [kind] at found
      cases typed : k.isTypeLevel with
      | true =>
          simp only [typed, if_true, answer_ask_atPlaceOf?] at found
          exact provided_of_atPlaceOf? found
      | false =>
          simp only [typed] at found
          exact provided_of_typeTemplate? (Except.ok.inj found)

/-! Whatever is listed is found under its name. -/

/-- A member that is found under a name has that name. -/
theorem name_of_templateOf?
    (found : (d.templateOf? h target name deep).answer registryOf = .ok (some t)) :
    t.name = name := by
  have typeLevel : ∀ ts : Except MemberError (List Template),
      ts.map (fun ts => atPlaceOf? ts name) = .ok (some t) → t.name = name := by
    intro ts found
    obtain ⟨ts, -, found⟩ := map_eq_ok.1 found
    exact (of_atPlaceOf? found).2
  rw [answer_templateOf?] at found
  cases target with
  | object o => exact typeLevel _ found
  | tag s => exact typeLevel _ found
  | list l =>
      have found : Except.ok (findInList? h l name) = Except.ok (ε := MemberError) (some t) := found
      rw [findInList?] at found
      split at found
      · split at found
        · cases found
          rfl
        · cases found
      · cases found
        rfl
      · cases found
  | map m =>
      cases found
      rfl
  | properties p =>
      cases found
      rfl
  | cursor c =>
      cases found
      rfl
  | _ => cases found

/-- A member that is listed is found by its name, if its container is not a tag. -/
theorem answer_templateOf?_of_mem (addressable : h.Addressable)
    (listed : (d.templatesOf h target deep).answer registryOf = .ok ts) (ht : t ∈ ts)
    (other : ∀ tag, target ≠ .tag tag) :
    (d.templateOf? h target t.name deep).answer registryOf = .ok (some t) := by
  rw [answer_templateOf?]
  cases listed_of_templatesOf listed ht with
  | @declared o line t known merged =>
      have listed : discoverObject (registryOf d) o.typeName deep = .ok ts := listed
      show (discoverObject (registryOf d) o.typeName deep).map _ = _
      rw [listed]
      obtain ⟨line, -, rfl⟩ := discoverObject_eq_ok listed
      refine congrArg Except.ok (atPlaceOf?_of_mem ?_ ht)
      rw [names_membersAlong]
      exact nodup_distinct _
  | param known stated => exact absurd rfl (other _)
  | @item l i within =>
      have parsed := Position.parse?_write (Nat.lt_of_lt_of_le within (addressable l))
      have name : (itemTemplate l.elementType (Text.Numeral.write i) (.nth i)).name =
          Text.Numeral.write i := rfl
      show findInstance h (.list l) _ = _
      rw [findInstance, findInList?, name, parsed]
      simp only [within, if_true]
  | entry stored => rfl
  | property stored => rfl
  | column c i => rfl

end CatalogRef

end Memberwise
