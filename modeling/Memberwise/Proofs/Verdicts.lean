import Memberwise.Proofs.Leaves
import Memberwise.Proofs.Reports

/-!
# Verdicts of the built-in validators

Two of the built-in validators look inside a value, and only their verdicts hold
elements.  All others answer yes or no (`leafVerdict_cases`).
-/

namespace Memberwise

/-- Whether items of the value are validated one by one. -/
def Value.iterates : Value → Bool
  | list _ | map _ => true
  | _ => false

namespace Rule

theorem valids_of_iterates {v : Value} (iterates : v.iterates = true) (e : Running) (h : Heap) :
    valids e h v = do
      let run ← Query.ofExcept e.descend
      let items ← (e.catalog.membersOf h v false).mapError .element
      return .ofElements (← allItemElements run h items) := by
  cases v with
  | list l => rfl
  | map k => rfl
  | _ => cases iterates

theorem valids_of_not_iterates {v : Value} (scalar : v.iterates = false) (e : Running) (h : Heap) :
    valids e h v = pure .valid := by
  cases v with
  | list l => cases scalar
  | map k => cases scalar
  | _ => rfl

/-- Checkers that answer yes or no, or cannot check a value of its sort. -/
def Decisive (checker : Checker) : Prop :=
  ∀ h v, (∃ b, checker h v = pure (.ofBool b)) ∨
    ∃ id, checker h v = throw (.unsupportedValue id v.sortName)

theorem decisive_notNull : Decisive notNull :=
  fun _ _ => Or.inl ⟨_, rfl⟩

theorem decisive_notEmpty : Decisive notEmpty := by
  intro h v
  rw [notEmpty]
  cases isEmpty? h v with
  | none => exact Or.inr ⟨_, rfl⟩
  | some empty => exact Or.inl ⟨_, rfl⟩

theorem decisive_bound (b : Bound) : Decisive b.checker := by
  intro h v
  rw [Bound.checker]
  cases v.isNull with
  | true => exact Or.inl ⟨true, rfl⟩
  | false =>
      cases v.asNumber with
      | none => exact Or.inr ⟨_, rfl⟩
      | some n => exact Or.inl ⟨_, rfl⟩

theorem decisive_length (l : Length) : Decisive l.checker := by
  intro h v
  rw [Length.checker]
  cases v.isNull with
  | true => exact Or.inl ⟨true, rfl⟩
  | false =>
      cases l.measure? h v with
      | none => exact Or.inr ⟨_, rfl⟩
      | some length => exact Or.inl ⟨_, rfl⟩

theorem decisive_matching [PatternEngine] (p : PatternEngine.Compiled) :
    Decisive (matching p) := by
  intro h v
  cases v with
  | null => exact Or.inl ⟨true, rfl⟩
  | string s => exact Or.inl ⟨_, rfl⟩
  | _ => exact Or.inr ⟨_, rfl⟩

theorem Decisive.eq_ofBool {checker : Checker} (decisive : Decisive checker)
    {registryOf : CatalogRef → Registry} {h : Heap} {v : Value} {verdict : Verdict}
    (said : (checker h v).answer registryOf = .ok verdict) : ∃ b, verdict = .ofBool b := by
  rcases decisive h v with ⟨b, answers⟩ | ⟨id, refuses⟩
  · rw [answers] at said
    cases said
    exact ⟨b, rfl⟩
  · rw [refuses] at said
    cases said

end Rule

/-- A tag lacks a parameter, or has one that is no pattern. -/
def ConstraintError.OfParams (err : ConstraintError) : Prop :=
  (∃ tag param, err = .missingParam tag param) ∨ ∃ pattern, err = .invalidPattern pattern

theorem Rule.ofParams_of_bound {kind : BoundKind} {t : Tag} {err : ConstraintError}
    (failed : Bound.ofTag kind t = .error err) : err.OfParams := by
  rw [Bound.ofTag] at failed
  cases stated : t.number? "value" with
  | some limit =>
      rw [stated] at failed
      cases failed
  | none =>
      rw [stated] at failed
      cases failed
      exact Or.inl ⟨_, _, rfl⟩

theorem Rule.ofParams_of_pattern [PatternEngine] {t : Tag} {err : ConstraintError}
    (failed : patternOfTag t = .error err) : err.OfParams := by
  rw [patternOfTag] at failed
  cases stated : t.string? "regex" with
  | none =>
      rw [stated] at failed
      cases failed
      exact Or.inl ⟨_, _, rfl⟩
  | some text =>
      simp only [stated, readPattern] at failed
      cases known : PatternEngine.read? (anchored text) with
      | some p =>
          rw [known] at failed
          cases failed
      | none =>
          rw [known] at failed
          cases failed
          exact Or.inr ⟨_, rfl⟩

namespace Registration

/-- Registrations whose checkers follow from the tag and find nothing inside a value. -/
def Shallow (r : Registration) : Prop :=
  ∃ make : Tag → Except ConstraintError Checker,
    (∀ ctx, r.build ctx = Query.ofExcept (make ctx.tag)) ∧
      (∀ t checker, make t = .ok checker → Rule.Decisive checker) ∧
      ∀ t err, make t = .error err → err.OfParams

theorem shallow_always {c : Checker} (decisive : Rule.Decisive c) : (always c).Shallow := by
  refine ⟨fun _ => .ok c, fun _ => rfl, ?_, ?_⟩
  · rintro t checker ⟨⟩
    exact decisive
  · rintro t err ⟨⟩

theorem shallow_ofTag {α : Type} {f : Tag → Except ConstraintError α} {make : α → Checker}
    (decisive : ∀ a, Rule.Decisive (make a))
    (stated : ∀ t err, f t = .error err → err.OfParams) :
    (ofTag fun t => (f t).map make).Shallow := by
  refine ⟨fun t => (f t).map make, fun _ => rfl, ?_, ?_⟩
  · intro t checker made
    have made : (f t).map make = .ok checker := made
    cases given : f t with
    | error e =>
        rw [given] at made
        cases made
    | ok a =>
        rw [given] at made
        cases made
        exact decisive a
  · intro t err failed
    have failed : (f t).map make = .error err := failed
    cases given : f t with
    | error e =>
        rw [given] at failed
        cases failed
        exact stated t _ given
    | ok a =>
        rw [given] at failed
        cases failed

end Registration

/-- What the built-in validators need is always there.  The two that look inside
a value are registered under their names alone. -/
theorem Rule.builtIn_cases [PatternEngine] {id : String} {r : Registration}
    (registered : (id, r) ∈ builtIn) :
    (∀ ctx : Context, (r.requires.find? fun c => !ctx.provides c) = none) ∧
      ((id ≠ BuiltIn.valid ∧ id ≠ BuiltIn.valids ∧ r.Shallow) ∨
        (id = BuiltIn.valid ∧ ∀ ctx, r.build ctx = pure (valid ctx.engine)) ∨
        (id = BuiltIn.valids ∧ ∀ ctx, r.build ctx = pure (valids ctx.engine))) := by
  have noError : ∀ (t : Tag) err, (Except.ok (Length.ofTag t)) = .error err →
      ConstraintError.OfParams err := by
    intro t err failed
    cases failed
  simp only [builtIn, List.mem_cons, List.not_mem_nil, or_false, Prod.mk.injEq] at registered
  rcases registered with ⟨rfl, rfl⟩ | ⟨rfl, rfl⟩ | ⟨rfl, rfl⟩ | ⟨rfl, rfl⟩ | ⟨rfl, rfl⟩ |
    ⟨rfl, rfl⟩ | ⟨rfl, rfl⟩ | ⟨rfl, rfl⟩
  · exact ⟨fun _ => rfl, Or.inl ⟨by decide, by decide,
      Registration.shallow_always decisive_notNull⟩⟩
  · exact ⟨fun _ => rfl, Or.inl ⟨by decide, by decide,
      Registration.shallow_always decisive_notEmpty⟩⟩
  · exact ⟨fun _ => rfl, Or.inl ⟨by decide, by decide,
      Registration.shallow_ofTag decisive_bound fun _ _ => ofParams_of_bound⟩⟩
  · exact ⟨fun _ => rfl, Or.inl ⟨by decide, by decide,
      Registration.shallow_ofTag decisive_bound fun _ _ => ofParams_of_bound⟩⟩
  · exact ⟨fun _ => rfl, Or.inl ⟨by decide, by decide,
      Registration.shallow_ofTag decisive_length noError⟩⟩
  · exact ⟨fun _ => rfl, Or.inl ⟨by decide, by decide,
      Registration.shallow_ofTag decisive_matching fun _ _ => ofParams_of_pattern⟩⟩
  · exact ⟨fun _ => rfl, Or.inr (Or.inl ⟨rfl, fun _ => rfl⟩)⟩
  · exact ⟨fun _ => rfl, Or.inr (Or.inr ⟨rfl, fun _ => rfl⟩)⟩

namespace Factory

variable {patterns : PatternEngine} {registryOf : CatalogRef → Registry} {d : CatalogRef}
  {ctx : Context} {h : Heap} {v : Value} {leaf : Leaf} {verdict : Verdict}

/-- Without further registrations, what is found is built in. -/
theorem mem_builtIn_of_get? {id : String} {r : Registration}
    (found : (ofCatalog d).registrations.get? id = some r) : (id, r) ∈ Rule.builtIn :=
  Pairs.mem_of_mem_ofList (Pairs.mem_of_get? found)

/-- No identifier is built in twice. -/
theorem get?_of_mem_builtIn {id : String} {r : Registration}
    (registered : (id, r) ∈ Rule.builtIn) : (ofCatalog d).registrations.get? id = some r := by
  refine Pairs.get?_ofList_of_mem ?_ registered
  show [BuiltIn.notNull, BuiltIn.notEmpty, BuiltIn.min, BuiltIn.max, BuiltIn.length,
    BuiltIn.pattern, BuiltIn.valid, BuiltIn.valids].Nodup
  decide

theorem construct_eq_ok {f : Factory} {id : String} {checker : Checker}
    (made : (f.construct ctx id).answer registryOf = .ok checker) :
    ∃ r, f.registrations.get? id = some r ∧ (r.build ctx).answer registryOf = .ok checker := by
  rw [construct, Query.answer_bind, Query.answer_ofExcept, registration] at made
  cases found : f.registrations.get? id with
  | none =>
      rw [found] at made
      cases made
  | some r =>
      rw [found] at made
      refine ⟨r, rfl, ?_⟩
      cases missing : r.requires.find? fun c => !ctx.provides c with
      | none => simpa [Except.bind, missing] using made
      | some c =>
          simp only [Except.bind, missing] at made
          cases made

/-- What the built-in validators say. -/
theorem leafVerdict_cases
    (said : (ofCatalog d).leafVerdict registryOf ctx h v leaf = .ok verdict) :
    (leaf.validator ≠ BuiltIn.valid ∧ leaf.validator ≠ BuiltIn.valids ∧
      ∃ b, verdict = .ofBool b) ∨
    (leaf.validator = BuiltIn.valid ∧
      (Rule.valid ctx.engine h v).answer registryOf = .ok verdict) ∨
    (leaf.validator = BuiltIn.valids ∧
      (Rule.valids ctx.engine h v).answer registryOf = .ok verdict) := by
  obtain ⟨checker, made, judged⟩ := bind_eq_ok.1 said
  obtain ⟨r, found, built⟩ := construct_eq_ok made
  rcases (Rule.builtIn_cases (mem_builtIn_of_get? found)).2 with
    ⟨other, others, make, build, decisive, -⟩ | ⟨id, build⟩ | ⟨id, build⟩
  · rw [build] at built
    exact Or.inl ⟨other, others, (decisive _ checker built).eq_ofBool judged⟩
  · rw [build] at built
    cases built
    exact Or.inr (Or.inl ⟨id, judged⟩)
  · rw [build] at built
    cases built
    exact Or.inr (Or.inr ⟨id, judged⟩)

theorem valid_of_leafVerdict
    (said : (ofCatalog d).leafVerdict registryOf ctx h v leaf = .ok verdict)
    (validator : leaf.validator = BuiltIn.valid) :
    (Rule.valid ctx.engine h v).answer registryOf = .ok verdict := by
  rcases leafVerdict_cases said with ⟨other, -, -⟩ | ⟨-, looked⟩ | ⟨other, -⟩
  · exact absurd validator other
  · exact looked
  · rw [validator] at other
    exact absurd other (by decide)

theorem valids_of_leafVerdict
    (said : (ofCatalog d).leafVerdict registryOf ctx h v leaf = .ok verdict)
    (validator : leaf.validator = BuiltIn.valids) :
    (Rule.valids ctx.engine h v).answer registryOf = .ok verdict := by
  rcases leafVerdict_cases said with ⟨-, other, -⟩ | ⟨other, -⟩ | ⟨-, looked⟩
  · exact absurd validator other
  · rw [validator] at other
    exact absurd other (by decide)
  · exact looked

end Factory

end Memberwise
