import Memberwise.Constraint.Engine
import Memberwise.Pattern.Engine
import Memberwise.Proofs.Answers
import Memberwise.Proofs.Verdicts

/-!
# What a validation finds

`Violation` says what there is to be found in a container: the tags that its own
members violate, and through members that are to be valid inside, what there is
to be found in the containers there.  An engine that comes to a report reports
all this and nothing else (`findings_eq_violations`).
-/

namespace Memberwise

/-- Going through a list with what each of its elements gives joined in order. -/
theorem Query.exists_parts {ε α β : Type} {registryOf : CatalogRef → Registry}
    (each : α → Query ε (List β)) {all : List α → Query ε (List β)} (nil : all [] = pure [])
    (cons : ∀ a as, all (a :: as) = each a >>= fun part => all as >>= fun rest =>
      pure (part ++ rest)) {as : List α} {bs : List β}
    (done : (all as).answer registryOf = .ok bs) :
    ∃ parts, List.Forall₂ (fun a part => (each a).answer registryOf = .ok part) as parts ∧
      bs = parts.flatten := by
  induction as generalizing bs with
  | nil =>
      rw [nil] at done
      cases done
      exact ⟨[], .nil, rfl⟩
  | cons a as ih =>
      rw [cons, Query.answer_bind] at done
      obtain ⟨part, here, done⟩ := bind_eq_ok.1 done
      rw [Query.answer_bind] at done
      obtain ⟨rest, later, done⟩ := bind_eq_ok.1 done
      cases done
      obtain ⟨parts, hparts, rfl⟩ := ih later
      exact ⟨part :: parts, .cons here hparts, rfl⟩

namespace Engine

variable (registryOf : CatalogRef → Registry) (h : Heap)

/-- The context in which the checker of a tag on a member is resolved. -/
def contextOf (e : Engine) (target : Value) (m : Member) (t : Tag) : Context :=
  ⟨t, some m, some target, e.asRunning h, e.factory.create h⟩

/-- The engine looks at a member, which has a value. -/
structure Looks (e : Engine) (target : Value) (m : Member) (v : Value) : Prop where
  listed : ∃ ms, (e.catalog.membersOf h target e.config.deep).answer registryOf = .ok ms ∧ m ∈ ms
  accepted : e.accepts m = true
  readable : m.readable = true
  read : (m.readIn h target).answer registryOf = .ok v

/-- A tag of some name is violated under a path below a container. -/
inductive Violation : Engine → Value → String → String → Prop
  /-- The validator of the tag does not find the value of a member valid. -/
  | own {e : Engine} {target v : Value} {m : Member} {t : Tag} {verdict : Verdict}
      (looks : e.Looks registryOf h target m v) (tagged : t ∈ m.tags)
      (gives : e.factory.Gives registryOf (e.contextOf h target m t) h v verdict)
      (invalid : verdict.isValid = false) : Violation e target m.name t.name
  /-- The value of a member is to be valid inside. -/
  | valid {e inner : Engine} {target v : Value} {m : Member} {t : Tag} {leaf : Leaf}
      {verdict : Verdict} {path name : String}
      (looks : e.Looks registryOf h target m v) (tagged : t ∈ m.tags)
      (decides : e.factory.Decides registryOf (e.contextOf h target m t) h v leaf verdict)
      (validator : leaf.validator = BuiltIn.valid)
      (merges : (registryOf e.catalog).mergesElements t = true) (nested : e.nested = .ok inner)
      (found : Violation inner v path name) : Violation e target (m.name ++ "." ++ path) name
  /-- The items of the value of a member are to be valid inside. -/
  | valids {e inner : Engine} {target v : Value} {m : Member} {t : Tag} {leaf : Leaf}
      {verdict : Verdict} {items : List Member} {item : Member} {w : Value} {path name : String}
      (looks : e.Looks registryOf h target m v) (tagged : t ∈ m.tags)
      (decides : e.factory.Decides registryOf (e.contextOf h target m t) h v leaf verdict)
      (validator : leaf.validator = BuiltIn.valids)
      (merges : (registryOf e.catalog).mergesElements t = true) (nested : e.nested = .ok inner)
      (itemized : (e.catalog.membersOf h v false).answer registryOf = .ok items)
      (listed : item ∈ items) (read : (item.read h).answer registryOf = .ok w)
      (container : w.isContainer = true) (found : Violation inner w path name) :
      Violation e target (m.name ++ "." ++ (item.name ++ "." ++ path)) name

variable {registryOf h}

/-- What the checkers of tags say in turn. -/
theorem mem_judge {f : Factory} {ctx : Tag → Context} {v : Value} {tags : List Tag}
    {js : List Judgement} (judged : (judge f ctx h v tags).answer registryOf = .ok js)
    {j : Judgement} : j ∈ js ↔
      j.tag ∈ tags ∧ f.Gives registryOf (ctx j.tag) h v j.verdict := by
  induction tags generalizing js with
  | nil =>
      cases judged
      simp
  | cons t tags ih =>
      rw [judge, Query.answer_bind] at judged
      obtain ⟨checker, resolved, judged⟩ := bind_eq_ok.1 judged
      cases checker with
      | none =>
          rw [ih judged, List.mem_cons]
          constructor
          · rintro ⟨tagged, gives⟩
            exact ⟨Or.inr tagged, gives⟩
          · rintro ⟨rfl | tagged, gives⟩
            · obtain ⟨c, other, -⟩ := gives
              cases resolved.symm.trans other
            · exact ⟨tagged, gives⟩
      | some c =>
          rw [Query.answer_bind] at judged
          obtain ⟨verdict, said, judged⟩ := bind_eq_ok.1 judged
          rw [Query.answer_bind] at judged
          obtain ⟨rest, later, judged⟩ := bind_eq_ok.1 judged
          cases judged
          rw [List.mem_cons, ih later, List.mem_cons]
          constructor
          · rintro (rfl | ⟨tagged, gives⟩)
            · exact ⟨Or.inl rfl, c, resolved, said⟩
            · exact ⟨Or.inr tagged, gives⟩
          · rintro ⟨same | tagged, gives⟩
            · obtain ⟨tag, spoken⟩ := j
              cases same
              obtain ⟨c', again, said'⟩ := gives
              cases resolved.symm.trans again
              cases said.symm.trans said'
              exact Or.inl rfl
            · exact Or.inr ⟨tagged, gives⟩

/-- Every tag that is judged was resolved, and its checker gave a verdict. -/
theorem exists_resolved_of_judge {f : Factory} {ctx : Tag → Context} {v : Value}
    {tags : List Tag} {js : List Judgement}
    (judged : (judge f ctx h v tags).answer registryOf = .ok js) {t : Tag} (tagged : t ∈ tags) :
    ∃ checker, (f.resolve (ctx t)).answer registryOf = .ok checker ∧
      ∀ c ∈ checker, ∃ verdict, (c h v).answer registryOf = .ok verdict := by
  induction tags generalizing js with
  | nil => cases tagged
  | cons s tags ih =>
      rw [judge, Query.answer_bind] at judged
      obtain ⟨checker, resolved, judged⟩ := bind_eq_ok.1 judged
      cases checker with
      | none =>
          rcases List.mem_cons.1 tagged with rfl | tagged
          · exact ⟨none, resolved, by simp⟩
          · exact ih judged tagged
      | some c =>
          rw [Query.answer_bind] at judged
          obtain ⟨verdict, said, judged⟩ := bind_eq_ok.1 judged
          rcases List.mem_cons.1 tagged with rfl | tagged
          · refine ⟨some c, resolved, ?_⟩
            intro c' same
            cases Option.mem_some_iff.1 same
            exact ⟨verdict, said⟩
          · rw [Query.answer_bind] at judged
            obtain ⟨rest, later, -⟩ := bind_eq_ok.1 judged
            exact ih later tagged

/-- A tag that is judged is judged by its leaves. -/
theorem exists_firstInvalid_of_judge {f : Factory} {ctx : Tag → Context} {v : Value}
    {tags : List Tag} {js : List Judgement}
    (judged : (judge f ctx h v tags).answer registryOf = .ok js) {t : Tag} (tagged : t ∈ tags) :
    ∃ verdict, firstInvalid (f.leafVerdict registryOf (ctx t) h v)
      (leavesAmong (registryOf f.catalog).tags (ctx t).tag) = .ok verdict := by
  obtain ⟨checker, resolved, said⟩ := exists_resolved_of_judge judged tagged
  obtain ⟨judges, -⟩ := f.resolve_eq_ok registryOf (ctx t) h v resolved
  cases checker with
  | none => exact ⟨.valid, judges.symm⟩
  | some c =>
      obtain ⟨verdict, said⟩ := said c rfl
      exact ⟨verdict, judges.symm.trans said⟩

theorem mem_violated {js : List Judgement} {t : Tag} :
    t ∈ violated js ↔ ∃ j ∈ js, j.verdict.isValid = false ∧ j.tag = t := by
  simp only [violated, List.mem_map, List.mem_filter, Bool.not_eq_true', and_assoc]

theorem isValid_of_mem_elements {verdict : Verdict} {e : InvalidElement}
    (h : e ∈ verdict.elements) : verdict.isValid = false := by
  cases verdict with
  | nested es => rfl
  | _ => cases h

/-- What is reported of a member: the findings inside its value for tags that
report them, and the member itself if it violates tags. -/
theorem mem_reported {r : Registry} {m : Member} {v : Value} {js : List Judgement}
    {el : InvalidElement} : el ∈ reported r m v js ↔
    (∃ j ∈ js, r.mergesElements j.tag = true ∧ ∃ f ∈ j.verdict.elements, el = f.under m.name) ∨
      violated js ≠ [] ∧ el = .ofMember m v (violated js) := by
  have inside : el ∈ (inside r js).map (·.under m.name) ↔
      ∃ j ∈ js, r.mergesElements j.tag = true ∧ ∃ f ∈ j.verdict.elements, el = f.under m.name := by
    rw [List.mem_map]
    constructor
    · rintro ⟨f, hf, rfl⟩
      obtain ⟨j, hj, hf⟩ := List.mem_flatMap.1 hf
      cases merges : r.mergesElements j.tag with
      | true =>
          rw [merges] at hf
          exact ⟨j, hj, merges, f, hf, rfl⟩
      | false =>
          rw [merges] at hf
          cases hf
    · rintro ⟨j, hj, merges, f, hf, rfl⟩
      refine ⟨f, List.mem_flatMap.2 ⟨j, hj, ?_⟩, rfl⟩
      rw [merges]
      exact hf
  have own : (el ∈ if (violated js).isEmpty then [] else [.ofMember m v (violated js)]) ↔
      violated js ≠ [] ∧ el = .ofMember m v (violated js) := by
    cases violated js with
    | nil => simp
    | cons t ts => simp
  rw [reported, List.mem_append, inside, own]

/-- What is reported of a member, path by path and tag by tag. -/
theorem exists_mem_reported {r : Registry} {m : Member} {v : Value} {js : List Judgement}
    {path name : String} :
    (∃ e ∈ reported r m v js, e.path = path ∧ e.violates name = true) ↔
      ∃ j ∈ js, j.verdict.isValid = false ∧ (path = m.name ∧ name = j.tag.name ∨
        r.mergesElements j.tag = true ∧
          ∃ e ∈ j.verdict.elements, path = m.name ++ "." ++ e.path ∧ e.violates name = true) := by
  have own : ∀ name, (InvalidElement.ofMember m v (violated js)).violates name = true ↔
      ∃ t ∈ violated js, name = t.name := by
    intro name
    rw [InvalidElement.violates_ofMember, List.any_eq_true]
    simp only [beq_iff_eq]
  constructor
  · rintro ⟨e, he, rfl, found⟩
    rcases mem_reported.1 he with ⟨j, hj, merges, f, hf, rfl⟩ | ⟨-, rfl⟩
    · exact ⟨j, hj, isValid_of_mem_elements hf, Or.inr ⟨merges, f, hf, rfl, found⟩⟩
    · obtain ⟨t, ht, rfl⟩ := (own name).1 found
      obtain ⟨j, hj, invalid, rfl⟩ := mem_violated.1 ht
      exact ⟨j, hj, invalid, Or.inl ⟨InvalidElement.path_violateAll _ _, rfl⟩⟩
  · rintro ⟨j, hj, invalid, ⟨rfl, rfl⟩ | ⟨merges, f, hf, rfl, found⟩⟩
    · have some : j.tag ∈ violated js := mem_violated.2 ⟨j, hj, invalid, rfl⟩
      refine ⟨.ofMember m v (violated js), ?_, InvalidElement.path_violateAll _ _, ?_⟩
      · exact mem_reported.2 (Or.inr ⟨List.ne_nil_of_mem some, rfl⟩)
      · exact (own _).2 ⟨j.tag, some, rfl⟩
    · exact ⟨f.under m.name, mem_reported.2 (Or.inl ⟨j, hj, merges, f, hf, rfl⟩), rfl, found⟩

section Member

variable {e : Engine} {target v : Value} {m : Member} {es : List InvalidElement}
  {path name : String} {t : Tag} {leaf : Leaf} {verdict : Verdict}

/-- A member is passed over, or its tags are judged. -/
theorem memberElements_eq_ok
    (done : (e.memberElements (e.factory.create h) (e.asRunning h) h target m).answer registryOf =
      .ok es) :
    (m.tags.any (registryOf e.catalog).isConstraint && m.readable) = false ∧ es = [] ∨
    m.readable = true ∧ ∃ v js, (m.readIn h target).answer registryOf = .ok v ∧
      (judge e.factory (e.contextOf h target m) h v m.tags).answer registryOf = .ok js ∧
      es = reported (registryOf e.catalog) m v js := by
  rw [memberElements, Query.answer_bind, Query.answer_registry] at done
  cases able : m.tags.any (registryOf e.catalog).isConstraint && m.readable with
  | false =>
      simp only [Except.bind, able] at done
      cases done
      exact Or.inl ⟨rfl, rfl⟩
  | true =>
      simp only [Except.bind, able, if_true] at done
      rw [Query.answer_bind, Query.answer_mapError] at done
      obtain ⟨v, read, done⟩ := bind_eq_ok.1 done
      rw [Query.answer_bind] at done
      obtain ⟨js, judged, done⟩ := bind_eq_ok.1 done
      cases done
      exact Or.inr ⟨(Bool.and_eq_true_iff.1 able).2, v, js, mapError_eq_ok.1 read, judged, rfl⟩

theorem gives_of_memberElements
    (done : (e.memberElements (e.factory.create h) (e.asRunning h) h target m).answer registryOf =
      .ok es) (readable : m.readable = true) (tagged : t ∈ m.tags)
    (decides : e.factory.Decides registryOf (e.contextOf h target m t) h v leaf verdict) :
    e.factory.Gives registryOf (e.contextOf h target m t) h v verdict := by
  rcases memberElements_eq_ok done with ⟨unable, rfl⟩ | ⟨-, v', js, read', judged, -⟩
  · have constraint : m.tags.any (registryOf e.catalog).isConstraint = true :=
      List.any_eq_true.2 ⟨t, tagged, decides.isConstraint⟩
    rw [constraint, readable] at unable
    cases unable
  · obtain ⟨checker, resolved, -⟩ := exists_resolved_of_judge judged tagged
    exact decides.gives resolved

/-- What is found at a member is what its tags decide on its value. -/
theorem exists_mem_memberElements
    (done : (e.memberElements (e.factory.create h) (e.asRunning h) h target m).answer registryOf =
      .ok es) :
    (∃ f ∈ es, f.path = path ∧ f.violates name = true) ↔
      m.readable = true ∧ ∃ v, (m.readIn h target).answer registryOf = .ok v ∧
        ∃ t ∈ m.tags, ∃ leaf verdict,
          e.factory.Decides registryOf (e.contextOf h target m t) h v leaf verdict ∧
          (path = m.name ∧ name = t.name ∨ (registryOf e.catalog).mergesElements t = true ∧
            ∃ f ∈ verdict.elements, path = m.name ++ "." ++ f.path ∧ f.violates name = true) := by
  rcases memberElements_eq_ok done with ⟨unable, rfl⟩ | ⟨readable, v, js, read, judged, rfl⟩
  · simp only [List.not_mem_nil, false_and, exists_false, false_iff]
    rintro ⟨readable, v, -, t, tagged, leaf, verdict, decides, -⟩
    have constraint : m.tags.any (registryOf e.catalog).isConstraint = true :=
      List.any_eq_true.2 ⟨t, tagged, decides.isConstraint⟩
    rw [constraint, readable] at unable
    cases unable
  · rw [exists_mem_reported]
    constructor
    · rintro ⟨j, hj, invalid, found⟩
      obtain ⟨tagged, gives⟩ := (mem_judge judged).1 hj
      obtain ⟨leaf, decides⟩ := gives.exists_decides invalid
      exact ⟨readable, v, read, j.tag, tagged, leaf, j.verdict, decides, found⟩
    · rintro ⟨-, v', read', t, tagged, leaf, verdict, decides, found⟩
      cases read.symm.trans read'
      have gives := gives_of_memberElements done readable tagged decides
      exact ⟨⟨t, verdict⟩, (mem_judge judged).2 ⟨tagged, gives⟩, decides.1, found⟩

end Member

section Run

variable {e : Engine} {target v : Value} {r : Report} {path name : String}

theorem elementsOf_eq_ok {create : Creator} {running : Running} {ms : List Member}
    {es : List InvalidElement}
    (done : (e.elementsOf create running h target ms).answer registryOf = .ok es) :
    ∃ parts, List.Forall₂ (fun m part =>
      (e.memberElements create running h target m).answer registryOf = .ok part) ms parts ∧
        es = parts.flatten :=
  Query.exists_parts (e.memberElements create running h target) rfl (fun _ _ => rfl) done

/-- A run that comes to a report goes through the members that are listed and
that the filter lets pass. -/
theorem validate_eq_ok (done : (e.validate h target).answer registryOf = .ok r) :
    ∃ ms parts, (e.catalog.membersOf h target e.config.deep).answer registryOf = .ok ms ∧
      List.Forall₂ (fun m part => (e.memberElements (e.factory.create h) (e.asRunning h) h target
        m).answer registryOf = .ok part) (ms.filter e.accepts) parts ∧
      r = .ofElements target parts.flatten := by
  rw [validate, runWith, Query.answer_bind, Query.answer_mapError] at done
  obtain ⟨ms, listed, done⟩ := bind_eq_ok.1 done
  rw [Query.answer_bind] at done
  obtain ⟨es, found, done⟩ := bind_eq_ok.1 done
  cases done
  obtain ⟨parts, hparts, rfl⟩ := elementsOf_eq_ok found
  exact ⟨ms, parts, mapError_eq_ok.1 listed, hparts, rfl⟩

/-- A run goes through every member that the engine looks at. -/
theorem Looks.exists_part {m : Member} (looks : e.Looks registryOf h target m v) {ms : List Member}
    {parts : List (List InvalidElement)}
    (listed : (e.catalog.membersOf h target e.config.deep).answer registryOf = .ok ms)
    (hparts : List.Forall₂ (fun m part => (e.memberElements (e.factory.create h) (e.asRunning h) h
      target m).answer registryOf = .ok part) (ms.filter e.accepts) parts) :
    ∃ part ∈ parts, (e.memberElements (e.factory.create h) (e.asRunning h) h target m).answer
      registryOf = .ok part := by
  obtain ⟨ms', listed', member⟩ := looks.listed
  cases listed.symm.trans listed'
  exact exists_of_forall₂ hparts.flip (List.mem_filter.2 ⟨member, looks.accepted⟩)

/-- The findings of a run are what the tags on the members decide. -/
theorem mem_findings_iff (done : (e.validate h target).answer registryOf = .ok r) :
    (path, name) ∈ r.findings ↔ ∃ m v, e.Looks registryOf h target m v ∧
      ∃ t ∈ m.tags, ∃ leaf verdict,
        e.factory.Decides registryOf (e.contextOf h target m t) h v leaf verdict ∧
        (path = m.name ∧ name = t.name ∨ (registryOf e.catalog).mergesElements t = true ∧
          ∃ f ∈ verdict.elements, path = m.name ++ "." ++ f.path ∧ f.violates name = true) := by
  obtain ⟨ms, parts, listed, hparts, rfl⟩ := validate_eq_ok done
  rw [Report.mem_findings_ofElements]
  constructor
  · rintro ⟨f, hf, found⟩
    obtain ⟨part, hpart, hf⟩ := List.mem_flatten.1 hf
    obtain ⟨m, hm, here⟩ := exists_of_forall₂ hparts hpart
    obtain ⟨member, accepted⟩ := List.mem_filter.1 hm
    obtain ⟨readable, v, read, t, tagged, leaf, verdict, decides, said⟩ :=
      (exists_mem_memberElements here).1 ⟨f, hf, found⟩
    exact ⟨m, v, ⟨⟨ms, listed, member⟩, accepted, readable, read⟩, t, tagged, leaf, verdict,
      decides, said⟩
  · rintro ⟨m, v, looks, t, tagged, leaf, verdict, decides, said⟩
    obtain ⟨part, hpart, here⟩ := looks.exists_part listed hparts
    obtain ⟨f, hf, found⟩ := (exists_mem_memberElements here).2
      ⟨looks.readable, v, looks.read, t, tagged, leaf, verdict, decides, said⟩
    exact ⟨f, List.mem_flatten.2 ⟨part, hpart, hf⟩, found⟩

/-- Where a run comes to a report, the deciding leaf of a tag speaks for it. -/
theorem gives_of_validate (done : (e.validate h target).answer registryOf = .ok r) {m : Member}
    (looks : e.Looks registryOf h target m v) {t : Tag} (tagged : t ∈ m.tags) {leaf : Leaf}
    {verdict : Verdict}
    (decides : e.factory.Decides registryOf (e.contextOf h target m t) h v leaf verdict) :
    e.factory.Gives registryOf (e.contextOf h target m t) h v verdict := by
  obtain ⟨ms, parts, listed, hparts, -⟩ := validate_eq_ok done
  obtain ⟨part, -, here⟩ := looks.exists_part listed hparts
  exact gives_of_memberElements here looks.readable tagged decides

/-- Going down is a run of the engine one level further down. -/
theorem descend_eq_ok {run : Run} (down : (e.asRunning h).descend = .ok run) :
    ∃ below, e.nested = .ok below ∧ run h = below.validate h := by
  have down : inner (e.factory.create h) e.levels e e.filter = .ok run := down
  cases left : e.levels with
  | zero =>
      rw [left] at down
      cases down
  | succ n =>
      rw [left] at down
      cases down
      have lt : e.depth < e.config.maxDepth := by
        simp only [Engine.levels] at left
        omega
      have levels : ({ e with depth := e.depth + 1 } : Engine).levels = n := by
        simp only [Engine.levels] at left ⊢
        omega
      refine ⟨{ e with depth := e.depth + 1 }, by rw [nested, if_pos lt], ?_⟩
      funext target
      rw [validate, levels]

/-- Containers are judged by what the engine further down reports of them. -/
theorem valid_container_eq_ok {verdict : Verdict} (container : v.isContainer = true)
    (said : (Rule.valid (e.asRunning h) h v).answer registryOf = .ok verdict) :
    ∃ inner r, e.nested = .ok inner ∧ (inner.validate h v).answer registryOf = .ok r ∧
      verdict = .ofElements r.elements := by
  rw [Rule.valid] at said
  simp only [container, if_true, Query.answer_bind, Query.answer_ofExcept] at said
  obtain ⟨run, down, said⟩ := bind_eq_ok.1 said
  obtain ⟨r, done, said⟩ := bind_eq_ok.1 said
  cases said
  obtain ⟨inner, nested, same⟩ := descend_eq_ok down
  exact ⟨inner, r, nested, same ▸ done, rfl⟩

/-- What is found inside a value is what the engine further down finds in it. -/
theorem valid_eq_ok {verdict : Verdict}
    (said : (Rule.valid (e.asRunning h) h v).answer registryOf = .ok verdict)
    (invalid : verdict.isValid = false) : ∃ inner r, e.nested = .ok inner ∧
      (inner.validate h v).answer registryOf = .ok r ∧ verdict.elements = r.elements := by
  cases container : v.isContainer with
  | false =>
      rw [Rule.valid, container] at said
      cases said
      cases invalid
  | true =>
      obtain ⟨inner, r, nested, done, rfl⟩ := valid_container_eq_ok container said
      exact ⟨inner, r, nested, done, Verdict.elements_ofElements _⟩

theorem allItemElements_eq_ok {run : Run} {items : List Member} {es : List InvalidElement}
    (done : (Rule.allItemElements run h items).answer registryOf = .ok es) :
    ∃ parts, List.Forall₂ (fun item part =>
      (Rule.itemElements run h item).answer registryOf = .ok part) items parts ∧
        es = parts.flatten :=
  Query.exists_parts (Rule.itemElements run h) rfl (fun _ _ => rfl) done

theorem itemElements_eq_ok {run : Run} {item : Member} {part : List InvalidElement}
    (done : (Rule.itemElements run h item).answer registryOf = .ok part) :
    ∃ w, (item.read h).answer registryOf = .ok w ∧
      (w.isContainer = true ∧ (∃ r, (run h w).answer registryOf = .ok r ∧
        part = r.elements.map (·.under item.name)) ∨ w.isContainer = false ∧ part = []) := by
  rw [Rule.itemElements, Query.answer_bind, Query.answer_mapError] at done
  obtain ⟨w, read, done⟩ := bind_eq_ok.1 done
  refine ⟨w, mapError_eq_ok.1 read, ?_⟩
  cases container : w.isContainer with
  | false =>
      rw [container] at done
      cases done
      exact Or.inr ⟨rfl, rfl⟩
  | true =>
      simp only [container, if_true, Query.answer_bind] at done
      obtain ⟨r, ran, done⟩ := bind_eq_ok.1 done
      cases done
      exact Or.inl ⟨rfl, r, ran, rfl⟩

/-- Lists and maps are judged by what the engine further down reports of their items. -/
theorem valids_items_eq_ok {verdict : Verdict} (iterates : v.iterates = true)
    (said : (Rule.valids (e.asRunning h) h v).answer registryOf = .ok verdict) :
    ∃ below items parts, e.nested = .ok below ∧
      (e.catalog.membersOf h v false).answer registryOf = .ok items ∧
      List.Forall₂ (fun item part =>
        (Rule.itemElements below.validate h item).answer registryOf = .ok part) items parts ∧
      verdict = .ofElements parts.flatten := by
  rw [Rule.valids_of_iterates iterates, Query.answer_bind, Query.answer_ofExcept] at said
  obtain ⟨run, down, said⟩ := bind_eq_ok.1 said
  rw [Query.answer_bind, Query.answer_mapError] at said
  obtain ⟨items, itemized, said⟩ := bind_eq_ok.1 said
  rw [Query.answer_bind] at said
  obtain ⟨es, found, said⟩ := bind_eq_ok.1 said
  cases said
  obtain ⟨below, nested, same⟩ := descend_eq_ok down
  obtain ⟨parts, hparts, rfl⟩ := allItemElements_eq_ok found
  refine ⟨below, items, parts, nested, mapError_eq_ok.1 itemized, hparts.imp ?_, rfl⟩
  intro item part here
  rw [Rule.itemElements, ← same]
  exact here

theorem iterates_of_valids {verdict : Verdict}
    (said : (Rule.valids (e.asRunning h) h v).answer registryOf = .ok verdict)
    (invalid : verdict.isValid = false) : v.iterates = true := by
  cases iterates : v.iterates with
  | true => rfl
  | false =>
      rw [Rule.valids_of_not_iterates iterates] at said
      cases said
      cases invalid

/-- What is found inside items is what the engine further down finds in them. -/
theorem valids_eq_ok {verdict : Verdict}
    (said : (Rule.valids (e.asRunning h) h v).answer registryOf = .ok verdict)
    (invalid : verdict.isValid = false) : ∃ below items parts, e.nested = .ok below ∧
      (e.catalog.membersOf h v false).answer registryOf = .ok items ∧
      List.Forall₂ (fun item part =>
        (Rule.itemElements below.validate h item).answer registryOf = .ok part) items parts ∧
      verdict.elements = parts.flatten := by
  obtain ⟨below, items, parts, nested, itemized, hparts, rfl⟩ :=
    valids_items_eq_ok (iterates_of_valids said invalid) said
  exact ⟨below, items, parts, nested, itemized, hparts, Verdict.elements_ofElements _⟩

end Run

section Whole

variable {patterns : PatternEngine} {e : Engine} {d : CatalogRef} {target : Value} {r : Report}
  {path name : String}

theorem levels_lt_of_nested {below : Engine} (nested : e.nested = .ok below) :
    below.levels < e.levels ∧ below.factory = e.factory := by
  rw [Engine.nested] at nested
  split at nested
  · cases nested
    refine ⟨?_, rfl⟩
    simp only [levels]
    omega
  · cases nested

/-- What a run of the engine below finds in a value, or in the value of an item,
on behalf of a validator. -/
inductive FoundInside (registryOf : CatalogRef → Registry) (h : Heap) (e below : Engine)
    (v : Value) : String → InvalidElement → Prop
  | valid {r : Report} {el : InvalidElement} (done : (below.validate h v).answer registryOf = .ok r)
      (found : el ∈ r.elements) : FoundInside registryOf h e below v BuiltIn.valid el
  | valids {items : List Member} {item : Member} {w : Value} {r : Report} {el : InvalidElement}
      (iterates : v.iterates = true)
      (itemized : (e.catalog.membersOf h v false).answer registryOf = .ok items)
      (listed : item ∈ items) (read : (item.read h).answer registryOf = .ok w)
      (container : w.isContainer = true)
      (done : (below.validate h w).answer registryOf = .ok r) (found : el ∈ r.elements) :
      FoundInside registryOf h e below v BuiltIn.valids (el.under item.name)

/-- Whatever the deciding leaf of a tag holds is found one level further down. -/
theorem exists_foundInside (builtIn : e.factory = .ofCatalog d) {m : Member} {t : Tag} {v : Value}
    {leaf : Leaf} {verdict : Verdict} {el : InvalidElement}
    (decides : e.factory.Decides registryOf (e.contextOf h target m t) h v leaf verdict)
    (hel : el ∈ verdict.elements) :
    ∃ below, e.nested = .ok below ∧ FoundInside registryOf h e below v leaf.validator el := by
  have spoken := decides.leafVerdict_eq_ok
  rw [builtIn] at spoken
  rcases Factory.leafVerdict_cases spoken with
    ⟨-, -, b, rfl⟩ | ⟨validator, looked⟩ | ⟨validator, looked⟩
  · rw [Verdict.elements_ofBool] at hel
    cases hel
  · obtain ⟨below, r, nested, done, same⟩ := valid_eq_ok looked decides.1
    rw [validator]
    exact ⟨below, nested, .valid done (same ▸ hel)⟩
  · obtain ⟨below, items, parts, nested, itemized, hparts, same⟩ := valids_eq_ok looked decides.1
    rw [same] at hel
    obtain ⟨part, hpart, hel⟩ := List.mem_flatten.1 hel
    obtain ⟨item, listed, here⟩ := exists_of_forall₂ hparts hpart
    obtain ⟨w, read, ⟨container, r, done, rfl⟩ | ⟨-, rfl⟩⟩ := itemElements_eq_ok here
    · obtain ⟨g, hg, rfl⟩ := List.mem_map.1 hel
      have iterates := iterates_of_valids looked decides.1
      rw [validator]
      exact ⟨below, nested, .valids iterates itemized listed read container done hg⟩
    · cases hel

/-- A report holds nothing but what is there to be found. -/
theorem violation_of_mem_findings (builtIn : e.factory = .ofCatalog d)
    (done : (e.validate h target).answer registryOf = .ok r)
    (reported : (path, name) ∈ r.findings) :
    Violation registryOf h e target path name := by
  induction left : e.levels using Nat.strongRecOn generalizing e target r path name with
  | _ n ih =>
      obtain ⟨m, v, looks, t, tagged, leaf, verdict, decides, said⟩ :=
        (mem_findings_iff done).1 reported
      rcases said with ⟨rfl, rfl⟩ | ⟨merges, f, hf, rfl, violated⟩
      · exact .own looks tagged (gives_of_validate done looks tagged decides) decides.1
      · obtain ⟨below, nested, inside⟩ := exists_foundInside builtIn decides hf
        obtain ⟨lt, factory⟩ := levels_lt_of_nested nested
        generalize validator : leaf.validator = id at inside
        cases inside with
        | valid done' found =>
            refine .valid looks tagged decides validator merges nested ?_
            exact ih below.levels (left ▸ lt) (factory.trans builtIn) done'
              ⟨f, found, rfl, violated⟩ rfl
        | valids iterates itemized listed read container done' found =>
            refine .valids looks tagged decides validator merges nested itemized listed read
              container ?_
            exact ih below.levels (left ▸ lt) (factory.trans builtIn) done'
              ⟨_, found, rfl, violated⟩ rfl

/-- A report holds everything that is there to be found. -/
theorem mem_findings_of_violation (violation : Violation registryOf h e target path name)
    (builtIn : e.factory = .ofCatalog d)
    (done : (e.validate h target).answer registryOf = .ok r) : (path, name) ∈ r.findings := by
  induction violation generalizing r with
  | own looks tagged gives invalid =>
      obtain ⟨leaf, decides⟩ := gives.exists_decides invalid
      exact (mem_findings_iff done).2
        ⟨_, _, looks, _, tagged, leaf, _, decides, Or.inl ⟨rfl, rfl⟩⟩
  | valid looks tagged decides validator merges nested found ih =>
      have spoken := decides.leafVerdict_eq_ok
      rw [builtIn] at spoken
      have looked := Factory.valid_of_leafVerdict spoken validator
      obtain ⟨below, r', nested', done', same⟩ := valid_eq_ok looked decides.1
      cases nested.symm.trans nested'
      obtain ⟨f, hf, rfl, violated⟩ := ih ((levels_lt_of_nested nested).2.trans builtIn) done'
      exact (mem_findings_iff done).2 ⟨_, _, looks, _, tagged, _, _, decides,
        Or.inr ⟨merges, f, same ▸ hf, rfl, violated⟩⟩
  | valids looks tagged decides validator merges nested itemized listed read container found ih =>
      have spoken := decides.leafVerdict_eq_ok
      rw [builtIn] at spoken
      have looked := Factory.valids_of_leafVerdict spoken validator
      obtain ⟨below, items, parts, nested', itemized', hparts, same⟩ :=
        valids_eq_ok looked decides.1
      cases nested.symm.trans nested'
      cases itemized.symm.trans itemized'
      obtain ⟨part, hpart, here⟩ := exists_of_forall₂ hparts.flip listed
      obtain ⟨w, read', ⟨-, r', done', rfl⟩ | ⟨scalar, -⟩⟩ := itemElements_eq_ok here
      · cases read.symm.trans read'
        obtain ⟨g, hg, rfl, violated⟩ :=
          ih ((levels_lt_of_nested nested).2.trans builtIn) done'
        refine (mem_findings_iff done).2 ⟨_, _, looks, _, tagged, _, _, decides,
          Or.inr ⟨merges, g.under _, ?_, rfl, violated⟩⟩
        rw [same]
        exact List.mem_flatten.2 ⟨_, hpart, List.mem_map_of_mem hg⟩
      · cases read.symm.trans read'
        rw [scalar] at container
        cases container

end Whole

end Engine

/-- What a run reports is what there is to be found. -/
theorem findings_eq_violations [PatternEngine] {w : World} {e : Engine} {d : CatalogRef}
    (builtIn : e.factory = .ofCatalog d) {target : Value} {r : Report}
    (done : (Query.run w fun h => e.validate h target).1 = .ok r) :
    r.findings = {q | Engine.Violation w.catalogs.registry w.heap e target q.1 q.2} := by
  rw [Query.run_fst] at done
  ext ⟨path, name⟩
  constructor
  · exact Engine.violation_of_mem_findings builtIn done
  · intro violation
    exact Engine.mem_findings_of_violation violation builtIn done

/-- A whole with a part that is to be valid inside, and a mark that the part must have. -/
def assembly : List Definition :=
  BuiltIn.drafts.map .tag ++
    [.type ((TypeDraft.plain "Part").withField
      { Field.plain "mark" .string with tags := [.plain BuiltIn.notNull] }),
     .type ((TypeDraft.plain "Whole").withField
      { Field.plain "part" .any with tags := [.plain BuiltIn.valid] })]

def whole : Value := .object ⟨0, "Whole", []⟩

/-- The whole has a part, which has no mark. -/
def assemblyWorld : World :=
  ⟨{ Heap.empty with objects :=
      ⟨#[.ofList [("part", .object ⟨1, "Part", []⟩)], .empty]⟩ },
   (Catalogs.empty.add (Builder.empty.declareAll assembly).build).2⟩

def assemblyEngine : Engine := .unchecked (.ofCatalog ⟨0⟩) .standard

theorem whole_misses_mark_of_part :
    Engine.Violation assemblyWorld.catalogs.registry assemblyWorld.heap assemblyEngine whole
      "part.mark" BuiltIn.notNull := by
  have reported : ∃ r, (Query.run assemblyWorld fun h => assemblyEngine.validate h whole).1 =
      .ok r ∧ ("part.mark", BuiltIn.notNull) ∈ r.findings :=
    ⟨_, rfl, _, List.mem_cons_of_mem _ List.mem_cons_self, rfl, rfl⟩
  obtain ⟨r, done, found⟩ := reported
  rw [findings_eq_violations rfl done] at found
  exact found

end Memberwise
