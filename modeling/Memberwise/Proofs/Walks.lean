import Memberwise.Member.Selector
import Memberwise.Proofs.Listing

/-!
# Walks along members

A walk goes from a container through its members to a member of a container
further inside.  The names on it, joined by dots, make up a path.  As long as no
name has a dot in it, the path is read as these names again, and a selector that
looks it up where the walk starts finds the member at its end
(`Walks.exists_find?`).
-/

namespace Memberwise

/-! Names that are joined by dots and split again. -/

/-- The path that names make up. -/
def joinPath : List String → String
  | [] => ""
  | [name] => name
  | name :: rest => name ++ "." ++ joinPath rest

theorem joinPath_cons {name : String} {names : List String} (more : names ≠ []) :
    joinPath (name :: names) = name ++ "." ++ joinPath names := by
  cases names with
  | nil => exact absurd rfl more
  | cons next rest => rfl

theorem splitDots_of_not_mem {cs : List Char} (plain : '.' ∉ cs) : splitDots cs = [cs] := by
  induction cs with
  | nil => rfl
  | cons c cs ih =>
      obtain ⟨here, later⟩ := not_or.1 (fun h => plain (List.mem_cons.2 h))
      rw [splitDots, if_neg (Ne.symm here), ih later]

theorem splitDots_append_dot {cs : List Char} (plain : '.' ∉ cs) (ds : List Char) :
    splitDots (cs ++ '.' :: ds) = cs :: splitDots ds := by
  induction cs with
  | nil => rw [List.nil_append, splitDots, if_pos rfl]
  | cons c cs ih =>
      obtain ⟨here, later⟩ := not_or.1 (fun h => plain (List.mem_cons.2 h))
      rw [List.cons_append, splitDots, if_neg (Ne.symm here), ih later]

theorem isPath_eq_false {name : String} : isPath name = false ↔ '.' ∉ name.toList := by
  simp [isPath]

theorem isPath_join (name path : String) : isPath (name ++ "." ++ path) = true := by
  simp [isPath]

/-- A path of names without dots is split into these names. -/
theorem pathSegments_joinPath {names : List String} (some : names ≠ [])
    (plain : ∀ n ∈ names, isPath n = false) : pathSegments (joinPath names) = names := by
  induction names with
  | nil => exact absurd rfl some
  | cons name names ih =>
      obtain ⟨here, later⟩ := List.forall_mem_cons.1 plain
      rw [isPath_eq_false] at here
      cases names with
      | nil => simp [joinPath, pathSegments, splitDots_of_not_mem here]
      | cons next rest =>
          have chars : (joinPath (name :: next :: rest)).toList =
              name.toList ++ '.' :: (joinPath (next :: rest)).toList := by
            simp [joinPath]
          have rest := ih (List.cons_ne_nil _ _) later
          rw [pathSegments] at rest
          rw [pathSegments, chars, splitDots_append_dot here, List.map_cons, rest]
          simp

theorem isPath_write (n : Nat) : isPath (Text.Numeral.write n) = false := by
  rw [isPath_eq_false, Text.Numeral.write, String.toList_ofList]
  intro dot
  have digit : '.'.isDigit = true := Nat.isDigit_of_mem_toDigits (by decide) (by decide) dot
  cases digit

section Walking

variable {registryOf : CatalogRef → Registry} {d : CatalogRef} {h : Heap} {deep : Bool}

/-- The member is bound to a container, and stands there for a member of an owner
further inside. -/
structure Member.StandsFor (registryOf : CatalogRef → Registry) (h : Heap) (m : Member) (c : Value)
    (path : String) (owner : Value) (leaf : Template) : Prop where
  name : m.name = path
  target : m.target = some c
  readable : m.readable = leaf.readable
  tags : m.tags = leaf.tags
  reads : ∀ v, leaf.read h owner = .ok v → (m.readIn h c).answer registryOf = .ok v

theorem Selector.answer_find? {name : String} {c : Value} :
    (find? ⟨d, [], deep⟩ h name c).answer registryOf =
      if isPath name then (d.resolvePath? h name (some c) c.type deep).answer registryOf
      else (d.memberOf? h c name deep).answer registryOf := by
  have keeps : ∀ q : Query MemberError (Option Member),
      (q >>= fun found => pure (found.filter (accepts ⟨d, [], deep⟩))).answer registryOf =
        q.answer registryOf := by
    intro q
    rw [Query.answer_bind]
    cases q.answer registryOf with
    | error e => rfl
    | ok found =>
        cases found with
        | none => rfl
        | some m => rfl
  rw [find?]
  cases isPath name with
  | true => exact keeps _
  | false => exact keeps _

/-- The names lead from a container through the members of containers to a
member of an owner further inside. -/
inductive Walks (registryOf : CatalogRef → Registry) (d : CatalogRef) (h : Heap) (deep : Bool) :
    Value → List String → Value → Template → Prop
  | here {c : Value} {name : String} {t : Template}
      (found : (d.templateOf? h c name deep).answer registryOf = .ok (some t)) :
      Walks registryOf d h deep c [name] c t
  | through {c w owner : Value} {name : String} {names : List String} {t leaf : Template}
      (found : (d.templateOf? h c name deep).answer registryOf = .ok (some t))
      (read : t.read h c = .ok w) (rest : Walks registryOf d h deep w names owner leaf) :
      Walks registryOf d h deep c (name :: names) owner leaf

namespace Walks

variable {c owner v : Value} {name : String} {names : List String} {t leaf : Template}

theorem ne_nil (walks : Walks registryOf d h deep c names owner leaf) : names ≠ [] := by
  cases walks with
  | here found => exact List.cons_ne_nil _ _
  | through found read rest => exact List.cons_ne_nil _ _

theorem isContainer_of_found
    (found : (d.templateOf? h c name deep).answer registryOf = .ok (some t)) :
    c.isContainer = true := by
  rw [CatalogRef.answer_templateOf?] at found
  rw [Value.isContainer]
  cases kind : c.containerKind with
  | none =>
      rw [kind] at found
      cases found
  | some k => rfl

theorem isContainer (walks : Walks registryOf d h deep c names owner leaf) :
    c.isContainer = true := by
  cases walks with
  | here found => exact isContainer_of_found found
  | through found read rest => exact isContainer_of_found found

theorem isNull_eq_false (container : c.isContainer = true) : c.isNull = false := by
  cases c with
  | null => cases container
  | _ => rfl

theorem readable_of_read (read : t.read h c = .ok v) : t.readable = true := by
  rw [Template.read] at read
  cases readable : t.readable with
  | true => rfl
  | false =>
      rw [readable] at read
      cases read

theorem answer_site_find? (found : (d.templateOf? h c name deep).answer registryOf = .ok (some t)) :
    ((Site.value c).find? d h deep name).answer registryOf = .ok (some t) := by
  rw [Site.find?, isContainer_of_found found]
  exact found

/-- The member at the end is what the resolution of a path comes to. -/
theorem exists_first (walks : Walks registryOf d h deep c names owner leaf) :
    ∃ name rest first, names = name :: rest ∧
      ((Site.value c).find? d h deep name).answer registryOf = .ok (some first) ∧
      (Site.leaf? d h deep first (.value c) rest).answer registryOf = .ok (some leaf) := by
  induction walks with
  | here found => exact ⟨_, [], _, rfl, answer_site_find? found, rfl⟩
  | @through c w owner name names t leaf found read rest ih =>
      obtain ⟨next, later, first, rfl, found', resolved⟩ := ih
      refine ⟨name, next :: later, t, rfl, answer_site_find? found, ?_⟩
      have follows : ((Site.value c).follow h t).answer registryOf = .ok (.value w) := by
        rw [Site.follow, readable_of_read read]
        simp only [if_true, Query.answer_bind, Query.answer_ofExcept, read, Except.bind,
          isNull_eq_false rest.isContainer]
        rfl
      rw [Site.leaf?, Query.answer_bind, follows]
      simp only [Except.bind, Query.answer_bind, found']
      exact resolved

/-- A path is walked to the owner of the member at its end. -/
theorem answer_walk (walks : Walks registryOf d h deep c names owner leaf) (segments : List String) :
    (MemberPath.walk ⟨d, segments, deep⟩ h names c).answer registryOf = .ok (owner, leaf) := by
  have segment : ∀ {c name t},
      (d.templateOf? h c name deep).answer registryOf = .ok (some t) →
        (MemberPath.segment ⟨d, segments, deep⟩ h c name).answer registryOf = .ok t := by
    intro c name t found
    rw [MemberPath.segment, Query.answer_bind, Query.answer_mapError, found]
    rfl
  induction walks with
  | here found =>
      rw [MemberPath.walk, Query.answer_bind, segment found]
      rfl
  | @through c w owner name names t leaf found read rest ih =>
      obtain ⟨next, later, rfl⟩ := List.exists_cons_of_ne_nil rest.ne_nil
      rw [MemberPath.walk, Query.answer_bind, segment found]
      · simp only [Except.bind, Query.answer_bind, Query.answer_mapError, Query.answer_ofExcept,
          read, mapError_ok, isNull_eq_false rest.isContainer]
        exact ih
      · rintro ⟨⟩

theorem answer_readIn_ofTemplate (registryOf : CatalogRef → Registry) (target : Option Value) :
    ((Member.ofTemplate t target).readIn h c).answer registryOf = t.read h c := by
  have readable : (Member.ofTemplate t target).readable = t.readable := rfl
  rw [Member.readIn, Template.read, readable]
  cases t.readable with
  | true => rfl
  | false => rfl

/-- What a selector finds under the path of a walk stands for the member at its end. -/
theorem exists_find? (walks : Walks registryOf d h deep c names owner leaf)
    (plain : ∀ n ∈ names, isPath n = false) :
    ∃ m, (Selector.find? ⟨d, [], deep⟩ h (joinPath names) c).answer registryOf = .ok (some m) ∧
      m.StandsFor registryOf h c (joinPath names) owner leaf := by
  rw [Selector.answer_find?]
  cases walks with
  | @here c name t found =>
      have single : isPath (joinPath [name]) = false := plain name (List.mem_singleton_self _)
      rw [if_neg (by simp [single]), joinPath, CatalogRef.answer_memberOf?, found]
      exact ⟨.ofTemplate leaf (some c), rfl,
        { name := CatalogRef.name_of_templateOf? found
          target := rfl
          readable := rfl
          tags := rfl
          reads := fun v read => (answer_readIn_ofTemplate _ _).trans read }⟩
  | @through c w owner name names t leaf found read rest =>
      have walks := Walks.through found read rest
      have several : isPath (joinPath (name :: names)) = true := by
        rw [joinPath_cons rest.ne_nil]
        exact isPath_join _ _
      obtain ⟨_, _, first, same, found, resolved⟩ := walks.exists_first
      cases same
      have resolves : (d.resolvePath? h (joinPath (name :: names)) (some c) c.type deep).answer
          registryOf = .ok (some ⟨⟨joinPath (name :: names), leaf.declaredType,
            first.declaringType, leaf.readable, leaf.writable, leaf.tags⟩,
            .path ⟨d, name :: names, deep⟩, some c⟩) := by
        rw [CatalogRef.resolvePath?, pathSegments_joinPath walks.ne_nil plain]
        simp only [Option.elim_some, Query.answer_bind, found, Except.bind, resolved]
        rfl
      rw [if_pos several, resolves]
      refine ⟨_, rfl, rfl, rfl, rfl, rfl, ?_⟩
      intro v read
      rw [Member.readIn, if_pos (readable_of_read read), Query.answer_mapError, mapError_eq_ok,
        Member.readRoute, MemberPath.read, Query.answer_bind, walks.answer_walk]
      simp only [Except.bind, Query.answer_mapError, Query.answer_ofExcept, read, mapError_ok]

end Walks

end Walking

end Memberwise
