import Memberwise.Constraint.Factory
import Memberwise.Proofs.Building

/-!
# What tags come down to

A tag that is composed of others comes down to tags with validators, its leaves,
in a fixed order.  The checker that is resolved for it says what its first leaf
says that is not satisfied (`resolveAmong_eq_ok`).
-/

namespace Memberwise

/-- A tag with the validator that enforces it. -/
structure Leaf where
  tag : Tag
  validator : String

/-- The leaves of a tag, by definitions with the latest first. -/
def leavesAmong : List TagDefinition → Tag → List Leaf
  | [], _ => []
  | d :: older, t =>
    if d.name == t.name then
      match d.validator with
      | some id => [⟨t, id⟩]
      | none => d.metaTags.flatMap (leavesAmong older)
    else leavesAmong older t

/-- The first verdict of some leaves that is not valid, if all before it are. -/
def firstInvalid {ε : Type} (judge : Leaf → Except ε Verdict) : List Leaf → Except ε Verdict
  | [] => .ok .valid
  | leaf :: rest => (judge leaf).bind fun verdict =>
    if verdict.isValid then firstInvalid judge rest else .ok verdict

theorem Verdict.isValid_eq_true {verdict : Verdict} :
    verdict.isValid = true ↔ verdict = .valid := by
  cases verdict <;> simp [isValid]

section FirstInvalid

variable {ε : Type} {judge : Leaf → Except ε Verdict} {leaves : List Leaf} {verdict : Verdict}

theorem firstInvalid_singleton (leaf : Leaf) : firstInvalid judge [leaf] = judge leaf := by
  rw [firstInvalid]
  cases judge leaf with
  | error e => rfl
  | ok verdict =>
      cases verdict with
      | valid => rfl
      | _ => rfl

theorem firstInvalid_append (xs ys : List Leaf) : firstInvalid judge (xs ++ ys) =
    (firstInvalid judge xs).bind fun verdict =>
      if verdict.isValid then firstInvalid judge ys else .ok verdict := by
  induction xs with
  | nil => rfl
  | cons leaf xs ih =>
      rw [List.cons_append, firstInvalid, firstInvalid, ih]
      cases judge leaf with
      | error e => rfl
      | ok verdict =>
          cases verdict with
          | valid => rfl
          | _ => rfl

theorem firstInvalid_eq_ok_iff (invalid : verdict.isValid = false) :
    firstInvalid judge leaves = .ok verdict ↔ ∃ before leaf after,
      leaves = before ++ leaf :: after ∧ (∀ l ∈ before, judge l = .ok .valid) ∧
        judge leaf = .ok verdict := by
  induction leaves with
  | nil =>
      simp only [firstInvalid, List.nil_eq_append_iff, reduceCtorEq, and_false, false_and,
        exists_false, iff_false]
      intro e
      cases e
      cases invalid
  | cons first rest ih =>
      rw [firstInvalid]
      constructor
      · intro h
        cases said : judge first with
        | error e =>
            rw [said] at h
            cases h
        | ok v =>
            rw [said] at h
            cases valid : v.isValid with
            | true =>
                have later : firstInvalid judge rest = .ok verdict := by
                  simpa [Except.bind, valid] using h
                obtain ⟨before, leaf, after, rfl, hbefore, hleaf⟩ := ih.1 later
                refine ⟨first :: before, leaf, after, rfl, ?_, hleaf⟩
                intro l hl
                rcases List.mem_cons.1 hl with rfl | hl
                · rw [said, Verdict.isValid_eq_true.1 valid]
                · exact hbefore l hl
            | false =>
                have now : v = verdict := by simpa [Except.bind, valid] using h
                exact ⟨[], first, rest, rfl, by simp, now ▸ said⟩
      · rintro ⟨before, leaf, after, e, hbefore, hleaf⟩
        cases before with
        | nil =>
            cases e
            simp [hleaf, Except.bind, invalid]
        | cons b before =>
            cases e
            rw [hbefore first List.mem_cons_self]
            exact ih.2 ⟨before, leaf, after, rfl,
              fun l hl => hbefore l (List.mem_cons_of_mem _ hl), hleaf⟩

theorem firstInvalid_eq_valid_iff :
    firstInvalid judge leaves = .ok .valid ↔ ∀ leaf ∈ leaves, judge leaf = .ok .valid := by
  induction leaves with
  | nil => simp [firstInvalid]
  | cons leaf rest ih =>
      rw [firstInvalid, List.forall_mem_cons, ← ih]
      cases judge leaf with
      | error e => simp [Except.bind]
      | ok verdict => cases verdict <;> simp [Except.bind, Verdict.isValid]

/-- Leaves that answer yes or no say yes together if all of them do. -/
theorem firstInvalid_ofBool {yes : Leaf → Bool}
    (said : ∀ leaf ∈ leaves, judge leaf = .ok (.ofBool (yes leaf))) :
    firstInvalid judge leaves = .ok (.ofBool (leaves.all yes)) := by
  induction leaves with
  | nil => rfl
  | cons leaf rest ih =>
      obtain ⟨first, later⟩ := List.forall_mem_cons.1 said
      rw [firstInvalid, first, ih later, List.all_cons]
      cases yes leaf with
      | true => rfl
      | false => rfl

end FirstInvalid

theorem Query.answer_mapM {ε α β : Type} (registryOf : CatalogRef → Registry)
    (f : α → Query ε β) (as : List α) :
    (as.mapM f).answer registryOf = as.mapM fun a => (f a).answer registryOf := by
  induction as with
  | nil => rfl
  | cons a as ih =>
      rw [List.mapM_cons, List.mapM_cons, Query.answer_bind]
      refine congrArg _ (funext fun b => ?_)
      rw [Query.answer_bind, ih]
      rfl

namespace Factory

variable (registryOf : CatalogRef → Registry) (f : Factory) (ctx : Context) (h : Heap)
  (v : Value)

/-- What the validator of a leaf says about a value. -/
def leafVerdict (leaf : Leaf) : Except ConstraintError Verdict :=
  ((f.construct (ctx.withTag leaf.tag) leaf.validator).answer registryOf).bind fun checker =>
    (checker h v).answer registryOf

/-- What the checkers of parts say in turn is what their leaves say in turn. -/
theorem answer_all {parts : List Tag} {checkers : List (Option Checker)} {leaves : Tag → List Leaf}
    (said : List.Forall₂ (fun part checker =>
      (checker.elim (.ok .valid) fun c : Checker => (c h v).answer registryOf) =
        firstInvalid (f.leafVerdict registryOf ctx h v) (leaves part)) parts checkers) :
    (Rule.all (checkers.filterMap id) h v).answer registryOf =
      firstInvalid (f.leafVerdict registryOf ctx h v) (parts.flatMap leaves) := by
  induction said with
  | nil => rfl
  | @cons part checker parts checkers same rest ih =>
      rw [List.flatMap_cons, firstInvalid_append, ← same, ← ih]
      cases checker with
      | none => rfl
      | some c =>
          rw [List.filterMap_cons, id, Rule.all_cons, Query.answer_bind]
          refine congrArg _ (funext fun verdict => ?_)
          cases verdict.isValid with
          | true => rfl
          | false => rfl

/-- A tag that can be resolved is judged by its leaves; a mark has none. -/
theorem resolveAmong_eq_ok {defs : List TagDefinition} {t : Tag} {checker : Option Checker}
    (resolved : (f.resolveAmong ctx defs t).answer registryOf = .ok checker) :
    (checker.elim (.ok .valid) fun c : Checker => (c h v).answer registryOf) =
        firstInvalid (f.leafVerdict registryOf ctx h v) (leavesAmong defs t) ∧
      (checker = none → leavesAmong defs t = []) := by
  induction defs generalizing t checker with
  | nil => cases resolved
  | cons d older ih =>
      rw [resolveAmong] at resolved
      rw [leavesAmong]
      cases named : d.name == t.name with
      | false =>
          simp only [named] at resolved
          exact ih resolved
      | true =>
          simp only [named, if_true] at resolved ⊢
          cases validated : d.validator with
          | some id =>
              simp only [validated] at resolved ⊢
              rw [Query.answer_bind] at resolved
              obtain ⟨c, made, same⟩ := bind_eq_ok.1 resolved
              cases same
              refine ⟨?_, by rintro ⟨⟩⟩
              rw [firstInvalid_singleton, leafVerdict, made]
              rfl
          | none =>
              simp only [validated] at resolved ⊢
              cases composite : d.isComposite with
              | false =>
                  have mark : d.metaTags = [] := by
                    simpa [TagDefinition.isComposite] using composite
                  simp only [composite] at resolved
                  cases resolved
                  rw [mark]
                  exact ⟨rfl, fun _ => rfl⟩
              | true =>
                  simp only [composite, if_true] at resolved
                  rw [Query.answer_bind, Query.answer_mapM] at resolved
                  obtain ⟨checkers, made, same⟩ := bind_eq_ok.1 resolved
                  cases same
                  refine ⟨?_, by rintro ⟨⟩⟩
                  refine answer_all registryOf f ctx h v ((mapM_eq_ok.1 made).imp ?_)
                  intro part checker resolved
                  exact (ih resolved).1

theorem answer_resolve_eq : (f.resolve ctx).answer registryOf =
    (f.resolveAmong ctx (registryOf f.catalog).tags ctx.tag).answer registryOf := by
  rw [resolve, Query.answer_bind, Query.answer_registry]
  rfl

/-- The tag of a context is judged by its leaves among all definitions. -/
theorem resolve_eq_ok {checker : Option Checker}
    (resolved : (f.resolve ctx).answer registryOf = .ok checker) :
    (checker.elim (.ok .valid) fun c : Checker => (c h v).answer registryOf) =
        firstInvalid (f.leafVerdict registryOf ctx h v)
          (leavesAmong (registryOf f.catalog).tags ctx.tag) ∧
      (checker = none → leavesAmong (registryOf f.catalog).tags ctx.tag = []) := by
  rw [answer_resolve_eq] at resolved
  exact f.resolveAmong_eq_ok registryOf ctx h v resolved

/-- A tag that is no constraint has no leaves. -/
theorem leavesAmong_eq_nil {defs : List TagDefinition} {t : Tag}
    (mark : (defs.find? (·.name == t.name)).any (·.isConstraint) = false) :
    leavesAmong defs t = [] := by
  induction defs with
  | nil => rfl
  | cons d older ih =>
      rw [leavesAmong]
      rw [List.find?_cons] at mark
      cases named : d.name == t.name with
      | false =>
          rw [named] at mark
          exact ih mark
      | true =>
          simp only [named, Option.any_some, TagDefinition.isConstraint, TagDefinition.isComposite,
            Bool.or_eq_false_iff, Option.isSome_eq_false_iff, Option.isNone_iff_eq_none,
            Bool.not_eq_false', List.isEmpty_iff] at mark
          simp only [if_true, mark.1, mark.2, List.flatMap_nil]

/-- A tag with a validator of its own is its only leaf. -/
theorem leavesAmong_of_validator {defs : List TagDefinition} {t : Tag} {d : TagDefinition}
    {id : String} (found : defs.find? (·.name == t.name) = some d)
    (validator : d.validator = some id) : leavesAmong defs t = [⟨t, id⟩] := by
  induction defs with
  | nil => cases found
  | cons first older ih =>
      rw [leavesAmong]
      rw [List.find?_cons] at found
      cases named : first.name == t.name with
      | false =>
          rw [named] at found
          exact ih found
      | true =>
          rw [named] at found
          cases found
          simp only [if_true, validator]

/-- The checker that is resolved in a context gives a verdict on a value. -/
def Gives (verdict : Verdict) : Prop :=
  ∃ checker, (f.resolve ctx).answer registryOf = .ok (some checker) ∧
    (checker h v).answer registryOf = .ok verdict

/-- A leaf of the tag in question is not satisfied, and all before it are. -/
def Decides (leaf : Leaf) (verdict : Verdict) : Prop :=
  verdict.isValid = false ∧ ∃ before after,
    leavesAmong (registryOf f.catalog).tags ctx.tag = before ++ leaf :: after ∧
      (∀ l ∈ before, f.leafVerdict registryOf ctx h v l = .ok .valid) ∧
      f.leafVerdict registryOf ctx h v leaf = .ok verdict

variable {registryOf f ctx h v} {verdict : Verdict} {leaf : Leaf}

theorem Gives.exists_decides (gives : f.Gives registryOf ctx h v verdict)
    (invalid : verdict.isValid = false) : ∃ leaf, f.Decides registryOf ctx h v leaf verdict := by
  obtain ⟨checker, resolved, said⟩ := gives
  obtain ⟨judged, -⟩ := f.resolve_eq_ok registryOf ctx h v resolved
  obtain ⟨before, leaf, after, leaves, hbefore, hleaf⟩ :=
    (firstInvalid_eq_ok_iff invalid).1 (judged.symm.trans said)
  exact ⟨leaf, invalid, before, after, leaves, hbefore, hleaf⟩

theorem Decides.leafVerdict_eq_ok (decides : f.Decides registryOf ctx h v leaf verdict) :
    f.leafVerdict registryOf ctx h v leaf = .ok verdict := by
  obtain ⟨-, before, after, -, -, said⟩ := decides
  exact said

theorem Decides.isConstraint (decides : f.Decides registryOf ctx h v leaf verdict) :
    (registryOf f.catalog).isConstraint ctx.tag = true := by
  obtain ⟨-, before, after, leaves, -⟩ := decides
  cases constraint : (registryOf f.catalog).isConstraint ctx.tag with
  | true => rfl
  | false =>
      rw [leavesAmong_eq_nil constraint] at leaves
      simp at leaves

/-- Where a tag can be resolved, its deciding leaf speaks for it. -/
theorem Decides.gives (decides : f.Decides registryOf ctx h v leaf verdict)
    {checker : Option Checker} (resolved : (f.resolve ctx).answer registryOf = .ok checker) :
    f.Gives registryOf ctx h v verdict := by
  obtain ⟨invalid, before, after, leaves, hbefore, hleaf⟩ := decides
  obtain ⟨judged, mark⟩ := f.resolve_eq_ok registryOf ctx h v resolved
  cases checker with
  | none =>
      rw [mark rfl] at leaves
      simp at leaves
  | some c =>
      have first := (firstInvalid_eq_ok_iff invalid).2 ⟨before, leaf, after, leaves, hbefore, hleaf⟩
      exact ⟨c, resolved, judged.trans first⟩

end Factory

end Memberwise
