import Memberwise.Proofs.Views

/-!
# The types that contribute to a member

A member of a name is merged along a line of types of the first field, the first accessor and
the first mutator.  The types that these are from contribute to it: one of them says how it
is read, one how it is written.  What the member asks its objects to be of is the type among
them that comes first (`Declarations.instanceName_along_eq`).  Where no type has several
parents, it descends from the others.
-/

namespace Memberwise

/-- The first type of a line that declares a name. -/
def firstDeclaring? (line : List TypeDefinition) (name : String) : Option TypeDefinition :=
  line.find? fun u => (declaredNames u).contains name

/-- A type contributes to the member of a name that is merged along a line, by the first
field, the first accessor or the first mutator. -/
inductive Contributes (line : List TypeDefinition) (name : String) (u : TypeDefinition) : Prop
  | field (first : line.find? (fun t => (t.field? name).isSome) = some u)
  | accessor (first : line.find? (fun t => (t.accessor? name).isSome) = some u)
  | mutator (first : line.find? (fun t => (t.mutator? name).isSome) = some u)

/-! ### The nearest of several owners -/

/-- The choice between the owner found so far and the next one. -/
def closer (best : Option (Nat × String)) (next : Nat × String) : Option (Nat × String) :=
  match best with
  | some b => if next.1 < b.1 then some next else some b
  | none => some next

theorem nearestOwner?_eq (owners : List (Nat × String)) :
    nearestOwner? owners = (owners.foldl closer none).map (·.2) := rfl

/-- An owner that is nearer than all others stays chosen. -/
theorem closer_of_least {least next : Nat × String} {best : Option (Nat × String)}
    (before : ∀ b, best = some b → b = least ∨ least.1 < b.1)
    (now : next = least ∨ least.1 < next.1) :
    (∀ b, closer best next = some b → b = least ∨ least.1 < b.1) ∧
      (next = least ∨ best = some least → closer best next = some least) := by
  cases best with
  | none =>
      refine ⟨?_, ?_⟩
      · rintro _ ⟨⟩
        exact now
      · rintro (rfl | none)
        · rfl
        · cases none
  | some b =>
      have before := before b rfl
      by_cases lt : next.1 < b.1
      · have chosen : closer (some b) next = some next := if_pos lt
        rw [chosen]
        refine ⟨?_, ?_⟩
        · rintro _ ⟨⟩
          exact now
        · rintro (rfl | ⟨⟨⟩⟩)
          · rfl
          · exact congrArg some (now.resolve_right (Nat.lt_asymm lt))
      · have kept : closer (some b) next = some b := if_neg lt
        rw [kept]
        refine ⟨?_, ?_⟩
        · rintro _ ⟨⟩
          exact before
        · rintro (rfl | same)
          · exact congrArg some (before.resolve_right lt)
          · exact same

theorem nearestOwner?_of_least {owners : List (Nat × String)} (least : Nat × String)
    (there : least ∈ owners) (others : ∀ q ∈ owners, q = least ∨ least.1 < q.1) :
    nearestOwner? owners = some least.2 := by
  suffices ∀ best, (∀ b, best = some b → b = least ∨ least.1 < b.1) →
      (least ∈ owners ∨ best = some least) → owners.foldl closer best = some least by
    rw [nearestOwner?_eq, this none (fun b none => nomatch none) (Or.inl there)]
    rfl
  clear there
  induction owners with
  | nil =>
      rintro best - (there | chosen)
      · cases there
      · exact chosen
  | cons next owners ih =>
      intro best before reached
      obtain ⟨after, keeps⟩ := closer_of_least before (others next List.mem_cons_self)
      refine ih (fun q hq => others q (List.mem_cons_of_mem _ hq)) _ after ?_
      rcases reached with there | chosen
      · rcases List.mem_cons.1 there with rfl | there
        · exact Or.inr (keeps (Or.inl rfl))
        · exact Or.inl there
      · exact Or.inr (keeps (Or.inr chosen))

/-! ### The first type that declares a name -/

section Lines

variable {line before after : List TypeDefinition} {name : String} {first u : TypeDefinition}

theorem mem_declaredNames : name ∈ declaredNames u ↔
    (u.field? name).isSome ∨ (u.accessor? name).isSome ∨ (u.mutator? name).isSome := by
  simp only [declaredNames, TypeDefinition.field?, TypeDefinition.accessor?,
    TypeDefinition.mutator?, List.find?_isSome, List.mem_append, List.mem_map, beq_iff_eq, or_assoc]

/-- The first type that declares a name splits its line, and none before it has a
declaration of any kind. -/
theorem firstDeclaring?_eq_some (found : firstDeclaring? line name = some first) :
    name ∈ declaredNames first ∧ ∃ before after, line = before ++ first :: after ∧
      ∀ v ∈ before, v.field? name = none ∧ v.accessor? name = none ∧ v.mutator? name = none := by
  obtain ⟨declares, before, after, split, silent⟩ := List.find?_eq_some_iff_append.1 found
  refine ⟨List.contains_iff_mem.1 declares, before, after, split, ?_⟩
  intro v hv
  have silent : name ∉ declaredNames v := by simpa using silent v hv
  simpa only [mem_declaredNames, not_or, Option.not_isSome_iff_eq_none] using silent

theorem nearest?_append_of_some {α : Type} {pick : TypeDefinition → Option α}
    (silent : ∀ v ∈ before, pick v = none) {a : α} (here : pick first = some a) :
    nearest? pick (before ++ first :: after) = some ⟨before.length, first.name, a⟩ := by
  induction before with
  | nil =>
      rw [List.nil_append, nearest?, here]
      rfl
  | cons v before ih =>
      rw [List.cons_append, nearest?, silent v List.mem_cons_self,
        ih fun v hv => silent v (List.mem_cons_of_mem _ hv)]
      rfl

/-- What is not found before a place is found there or further on. -/
theorem nearest?_append_cases {α : Type} {pick : TypeDefinition → Option α}
    (silent : ∀ v ∈ before, pick v = none) {x : Declared α}
    (found : nearest? pick (before ++ first :: after) = some x) :
    x.depth = before.length ∧ x.owner = first.name ∨ before.length < x.depth := by
  induction before generalizing x with
  | nil =>
      rw [List.nil_append, nearest?] at found
      cases here : pick first with
      | some a =>
          rw [here] at found
          cases found
          exact Or.inl ⟨rfl, rfl⟩
      | none =>
          rw [here] at found
          obtain ⟨y, -, rfl⟩ := Option.map_eq_some_iff.1 found
          exact Or.inr (Nat.succ_pos _)
  | cons v before ih =>
      rw [List.cons_append, nearest?, silent v List.mem_cons_self] at found
      obtain ⟨y, further, rfl⟩ := Option.map_eq_some_iff.1 found
      refine (ih (fun v hv => silent v (List.mem_cons_of_mem _ hv)) further).imp ?_ ?_
      · exact fun here => ⟨congrArg (· + 1) here.1, here.2⟩
      · exact Nat.succ_lt_succ

/-- A member asks for the first type of its line that declares the name. -/
theorem Declarations.instanceName_along_eq (found : firstDeclaring? line name = some first) :
    (along line name).instanceName = first.name := by
  obtain ⟨declares, before, after, rfl, silent⟩ := firstDeclaring?_eq_some found
  have asks : ∀ owners, nearestOwner? owners = some first.name →
      (nearestOwner? owners).getD (along (before ++ first :: after) name).declaringName =
        first.name := by
    intro owners chosen
    rw [chosen, Option.getD_some]
  refine asks _ (nearestOwner?_of_least (before.length, first.name) ?_ ?_)
  · have owned : ∀ {α : Type} {pick : TypeDefinition → Option α},
        (∀ v ∈ before, pick v = none) → (pick first).isSome →
          (before.length, first.name) ∈ ((nearest? pick (before ++ first :: after)).map
            fun x => (x.depth, x.owner)).toList := by
      intro α pick silent here
      obtain ⟨a, here⟩ := Option.isSome_iff_exists.1 here
      rw [nearest?_append_of_some silent here]
      exact List.mem_singleton_self _
    rcases mem_declaredNames.1 declares with field | accessor | mutator
    · exact List.mem_append_left _ (List.mem_append_left _
        (owned (fun v hv => (silent v hv).1) field))
    · exact List.mem_append_left _ (List.mem_append_right _
        (owned (fun v hv => (silent v hv).2.1) accessor))
    · exact List.mem_append_right _ (owned (fun v hv => (silent v hv).2.2) mutator)
  · have further : ∀ {α : Type} {pick : TypeDefinition → Option α} {q : Nat × String},
        (∀ v ∈ before, pick v = none) →
        q ∈ ((nearest? pick (before ++ first :: after)).map fun x => (x.depth, x.owner)).toList →
          q = (before.length, first.name) ∨ before.length < q.1 := by
      intro α pick q silent owned
      obtain ⟨x, found, rfl⟩ := Option.map_eq_some_iff.1 (Option.mem_toList.1 owned)
      exact (nearest?_append_cases silent found).imp_left fun here => Prod.ext here.1 here.2
    intro q owned
    rcases List.mem_append.1 owned with owned | mutator
    · rcases List.mem_append.1 owned with field | accessor
      · exact further (fun v hv => (silent v hv).1) field
      · exact further (fun v hv => (silent v hv).2.1) accessor
    · exact further (fun v hv => (silent v hv).2.2) mutator

theorem exists_firstDeclaring? (declared : ∃ u ∈ line, name ∈ declaredNames u) :
    ∃ first, firstDeclaring? line name = some first := by
  refine Option.isSome_iff_exists.1 (List.find?_isSome.2 ?_)
  simpa using declared

/-! ### The types that contribute -/

namespace Contributes

theorem mem (contributes : Contributes line name u) : u ∈ line := by
  cases contributes with
  | field first => exact List.mem_of_find?_eq_some first
  | accessor first => exact List.mem_of_find?_eq_some first
  | mutator first => exact List.mem_of_find?_eq_some first

theorem declares (contributes : Contributes line name u) : name ∈ declaredNames u := by
  rw [mem_declaredNames]
  cases contributes with
  | field first => exact Or.inl (by simpa using List.find?_some first)
  | accessor first => exact Or.inr (Or.inl (by simpa using List.find?_some first))
  | mutator first => exact Or.inr (Or.inr (by simpa using List.find?_some first))

/-- The first type that declares the name contributes. -/
theorem of_firstDeclaring? (found : firstDeclaring? line name = some first) :
    Contributes line name first := by
  obtain ⟨declares, before, after, rfl, silent⟩ := firstDeclaring?_eq_some found
  have leads : ∀ {α : Type} {pick : TypeDefinition → Option α}, (∀ v ∈ before, pick v = none) →
      (pick first).isSome →
        (before ++ first :: after).find? (fun v => (pick v).isSome) = some first := by
    intro α pick silent here
    refine List.find?_eq_some_iff_append.2 ⟨here, before, after, rfl, ?_⟩
    intro v hv
    rw [silent v hv]
    rfl
  rcases mem_declaredNames.1 declares with field | accessor | mutator
  · exact .field (leads (fun v hv => (silent v hv).1) field)
  · exact .accessor (leads (fun v hv => (silent v hv).2.1) accessor)
  · exact .mutator (leads (fun v hv => (silent v hv).2.2) mutator)

/-- No type contributes that stands before the first one to declare the name. -/
theorem eq_or_mem_after (contributes : Contributes line name u)
    (found : firstDeclaring? line name = some first) :
    ∃ before after, line = before ++ first :: after ∧ (u = first ∨ u ∈ after) := by
  obtain ⟨-, before, after, split, silent⟩ := firstDeclaring?_eq_some found
  refine ⟨before, after, split, ?_⟩
  have there := contributes.mem
  rw [split] at there
  rcases List.mem_append.1 there with earlier | here
  · have declares := mem_declaredNames.1 contributes.declares
    obtain ⟨field, accessor, mutator⟩ := silent u earlier
    simp [field, accessor, mutator] at declares
  · exact List.mem_cons.1 here

end Contributes

/-- How a type itself reads a name: by its accessor, else by its field. -/
def TypeDefinition.readPath? (u : TypeDefinition) (name : String) : Option Getter :=
  (u.accessor? name).map (·.getter) <|> (u.field? name).map fun _ => Getter.slot name

/-- How a type itself writes a name: by its mutator, else by its field. -/
def TypeDefinition.writePath? (u : TypeDefinition) (name : String) :
    Option (Setter × ValueType) :=
  (u.mutator? name).map (fun m => (m.setter, m.accepts)) <|>
    ((u.field? name).filter (!·.readOnly)).map fun f => (Setter.slot name, f.type)

theorem exists_first {α : Type} {pick : TypeDefinition → Option α} {a : α}
    (found : line.findSome? pick = some a) :
    ∃ c, line.find? (fun t => (pick t).isSome) = some c ∧ pick c = some a := by
  obtain ⟨before, c, after, split, here, silent⟩ := List.findSome?_eq_some_iff.1 found
  refine ⟨c, List.find?_eq_some_iff_append.2 ⟨?_, before, after, split, ?_⟩, here⟩
  · rw [here]
    rfl
  · intro v hv
    rw [silent v hv]
    rfl

/-- A member is read as its declaring type reads the name, which contributes to it. -/
theorem exists_contributes_reading {getter : Getter}
    (reader : (Declarations.along line name).reader = some getter) :
    ∃ c, Contributes line name c ∧ c.name = (Declarations.along line name).declaringName ∧
      c.readPath? name = some getter := by
  have able := Declarations.isSome_reader_along.1 (Option.isSome_of_eq_some reader)
  have declared : (firstField? line name).isSome ∨ (firstAccessor? line name).isSome ∨
      (firstMutator? line name).isSome :=
    able.elim (fun accessor => Or.inr (Or.inl accessor)) Or.inl
  have named := Declarations.declaringName_along declared
  have own : ∀ {c : TypeDefinition}, some (ValueType.object
      (Declarations.along line name).declaringName) = some (.object c.name) →
        c.name = (Declarations.along line name).declaringName := by
    intro c same
    injection same with same
    injection same with same
    exact same.symm
  rw [Declarations.reader_along] at reader
  cases ha : firstAccessor? line name with
  | some a =>
      obtain ⟨c, first, here⟩ := exists_first ha
      refine ⟨c, .accessor first, ?_, ?_⟩
      · rw [firstOwner?, first] at named
        exact own named
      · rw [ha] at reader
        rw [TypeDefinition.readPath?, here]
        exact reader
  | none =>
      have nowhere : ∀ t ∈ line, t.accessor? name = none := List.findSome?_eq_none_iff.1 ha
      rw [ha] at reader
      obtain ⟨f, hf, slot⟩ := Option.map_eq_some_iff.1 (show Option.map _ _ = some getter from reader)
      obtain ⟨c, first, here⟩ := exists_first hf
      refine ⟨c, .field first, ?_, ?_⟩
      · have bare : firstOwner? (·.accessor? name) line = none := by
          rw [firstOwner?, Option.map_eq_none_iff, List.find?_eq_none]
          intro t ht
          simp [nowhere t ht]
        rw [bare, firstOwner?, first] at named
        exact own named
      · rw [TypeDefinition.readPath?, nowhere c (List.mem_of_find?_eq_some first), here]
        exact congrArg some slot

/-- A member is written as one of the types that contribute to it writes the name. -/
theorem exists_contributes_writing {path : Setter × ValueType}
    (writer : (Declarations.along line name).writer = some path) :
    ∃ c, Contributes line name c ∧ c.writePath? name = some path := by
  cases hu : firstMutator? line name with
  | some u =>
      obtain ⟨c, first, here⟩ := exists_first hu
      refine ⟨c, .mutator first, ?_⟩
      rw [Declarations.writer_along_of_mutator hu] at writer
      rw [TypeDefinition.writePath?, here]
      exact writer
  | none =>
      cases hf : firstField? line name with
      | some f =>
          obtain ⟨c, first, here⟩ := exists_first hf
          have bare : c.mutator? name = none :=
            List.findSome?_eq_none_iff.1 hu c (List.mem_of_find?_eq_some first)
          refine ⟨c, .field first, ?_⟩
          rw [Declarations.writer_along_of_field hu hf] at writer
          rw [TypeDefinition.writePath?, bare, here, Option.filter_some]
          cases free : f.readOnly with
          | true =>
              rw [free] at writer
              cases writer
          | false =>
              rw [free] at writer
              exact writer
      | none =>
          rw [Declarations.writer_along_of_neither hu hf] at writer
          cases writer

end Lines

namespace Registry

variable {r : Registry} {s t u first : TypeDefinition} {deep : Bool} {name : String}

/-- Where no type has several parents, the types above one type are above each other. -/
theorem Built.comparable_of_one_parent (built : r.Built)
    (single : ∀ t ∈ r.types, t.parentIds.length ≤ 1) (ht : t ∈ r.types) (hs : s ∈ r.types)
    (hu : u ∈ r.types) (low : r.isSubtype t.id s.id = true)
    (high : r.isSubtype t.id u.id = true) :
    r.isSubtype s.id u.id = true ∨ r.isSubtype u.id s.id = true := by
  have unique : Relator.RightUnique (Parent r.types) := by
    rintro a b c ⟨ha, hb, toB⟩ ⟨-, hc, toC⟩
    obtain ⟨id, only⟩ := List.length_eq_one_iff.1
      (Nat.le_antisymm (single a ha) (List.length_pos_of_mem toB))
    rw [only, List.mem_singleton] at toB toC
    exact built.lineal.eq_of_id hb hc (toB.trans toC.symm)
  rw [built.isSubtype_iff_reaches ht hs] at low
  rw [built.isSubtype_iff_reaches ht hu] at high
  rw [built.isSubtype_iff_reaches hs hu, built.isSubtype_iff_reaches hu hs]
  exact Relation.ReflTransGen.total_of_right_unique unique low high

/-- Where no type has several parents, the first type that declares a name descends from
all that contribute to the member. -/
theorem Built.isSubtype_of_one_parent (built : r.Built)
    (single : ∀ t ∈ r.types, t.parentIds.length ≤ 1) (ht : t ∈ r.types)
    (found : firstDeclaring? (r.line t deep) name = some first)
    (contributes : Contributes (r.line t deep) name u) : r.isSubtype first.id u.id = true := by
  obtain ⟨hfirst, low⟩ := built.mem_types_of_mem_line ht (List.mem_of_find?_eq_some found)
  obtain ⟨hu, high⟩ := built.mem_types_of_mem_line ht contributes.mem
  have nearest : r.NearestFirst (r.line t deep) := by
    cases deep with
    | true => exact built.nearestFirst_of_one_parent single ht
    | false => exact List.pairwise_singleton _ _
  obtain ⟨before, after, split, rfl | later⟩ := contributes.eq_or_mem_after found
  · exact built.isSubtype_refl hu
  rcases built.comparable_of_one_parent single ht hfirst hu low high with down | up
  · exact down
  · rw [split] at nearest
    have apart := (List.pairwise_cons.1 (List.pairwise_append.1 nearest).2.1).1 u later
    by_cases same : u = first
    · subst same
      exact built.isSubtype_refl hu
    · exact absurd ⟨same, up⟩ apart

end Registry

end Memberwise
