import Memberwise.Proofs.Refinement

/-!
# Outcomes that are cut off

Of two outcomes the first is cut off by a bound, or they are the same.  The laws of
`Cut` follow what is done one after another, and carry along the reason for which the
first is cut off.  Building checkers is not cut off (`Factory.cut_resolve`), and
what they say depends on the context only where they look inside a value
(`Factory.leafVerdict_eq_or`).
-/

namespace Memberwise

/-- Two outcomes, the first under a bound and the second under a wider one.  Both are
related results or the same failure, or the first is the failure of the bound, and
there is a reason for it. -/
inductive Cut {α β : Type} (bound : Nat) (why : Prop) (R : α → β → Prop) :
    Except ConstraintError α → Except ConstraintError β → Prop
  | exceeded {wider : Except ConstraintError β} (reason : why) :
      Cut bound why R (.error (.depthExceeded bound)) wider
  | failed {err : ConstraintError} (other : ∀ k, err ≠ .depthExceeded k) :
      Cut bound why R (.error err) (.error err)
  | done {a : α} {b : β} (related : R a b) : Cut bound why R (.ok a) (.ok b)

namespace Cut

variable {α β γ δ : Type} {bound : Nat} {why why' : Prop} {R : α → β → Prop} {S : γ → δ → Prop}
  {registryOf : CatalogRef → Registry}

theorem imp {R' : α → β → Prop} {x : Except ConstraintError α} {y : Except ConstraintError β}
    (cut : Cut bound why R x y) (reason : why → why')
    (related : ∀ a b, x = .ok a → y = .ok b → R a b → R' a b) : Cut bound why' R' x y := by
  cases cut with
  | exceeded given => exact .exceeded (reason given)
  | failed other => exact .failed other
  | done given => exact .done (related _ _ rfl rfl given)

theorem because {x : Except ConstraintError α} {y : Except ConstraintError β}
    (cut : Cut bound why R x y) (reason : why → why') : Cut bound why' R x y :=
  cut.imp reason fun _ _ _ _ related => related

theorem bind {x : Except ConstraintError α} {y : Except ConstraintError β}
    {f : α → Except ConstraintError γ} {g : β → Except ConstraintError δ}
    (first : Cut bound why R x y) (rest : ∀ a b, R a b → Cut bound why S (f a) (g b)) :
    Cut bound why S (x.bind f) (y.bind g) := by
  cases first with
  | exceeded reason => exact .exceeded reason
  | failed other => exact .failed other
  | done related => exact rest _ _ related

theorem result {a : α} {b : β} (related : R a b) :
    Cut bound why R ((pure a : Query ConstraintError α).answer registryOf)
      ((pure b : Query ConstraintError β).answer registryOf) :=
  .done related

theorem answer_bind {q : Query ConstraintError α} {q' : Query ConstraintError β}
    {f : α → Query ConstraintError γ} {g : β → Query ConstraintError δ}
    (first : Cut bound why R (q.answer registryOf) (q'.answer registryOf))
    (rest : ∀ a b, R a b → Cut bound why S ((f a).answer registryOf) ((g b).answer registryOf)) :
    Cut bound why S ((q >>= f).answer registryOf) ((q' >>= g).answer registryOf) := by
  rw [Query.answer_bind, Query.answer_bind]
  exact first.bind rest

/-- Looking at members is no matter of levels. -/
theorem element (q : Query MemberError α) :
    Cut bound why (fun a b => a = b ∧ q.answer registryOf = .ok a)
      ((q.mapError ConstraintError.element).answer registryOf)
      ((q.mapError ConstraintError.element).answer registryOf) := by
  rw [Query.answer_mapError]
  cases q.answer registryOf with
  | error err => exact .failed (by rintro k ⟨⟩)
  | ok a => exact .done ⟨rfl, rfl⟩

theorem mapM {f : γ → Query ConstraintError α} {g : γ → Query ConstraintError β}
    (each : ∀ c, Cut bound why R ((f c).answer registryOf) ((g c).answer registryOf))
    (cs : List γ) :
    Cut bound why (List.Forall₂ R) ((cs.mapM f).answer registryOf)
      ((cs.mapM g).answer registryOf) := by
  induction cs with
  | nil => exact result .nil
  | cons c cs ih =>
      rw [List.mapM_cons, List.mapM_cons]
      refine (each c).answer_bind fun a b here => ?_
      refine ih.answer_bind fun as bs later => ?_
      exact result (.cons here later)

/-- Going through a list with what each of its elements gives joined in order. -/
theorem parts (each each' : α → Query ConstraintError (List β))
    {all all' : List α → Query ConstraintError (List β)} (nil : all [] = pure [])
    (nil' : all' [] = pure [])
    (cons : ∀ a as, all (a :: as) = each a >>= fun part => all as >>= fun rest =>
      pure (part ++ rest))
    (cons' : ∀ a as, all' (a :: as) = each' a >>= fun part => all' as >>= fun rest =>
      pure (part ++ rest))
    {reason : α → Prop} {as : List α}
    (cut : ∀ a ∈ as, Cut bound (reason a) Eq ((each a).answer registryOf)
      ((each' a).answer registryOf)) :
    Cut bound (∃ a ∈ as, reason a) Eq ((all as).answer registryOf)
      ((all' as).answer registryOf) := by
  induction as with
  | nil =>
      rw [nil, nil']
      exact result rfl
  | cons a as ih =>
      obtain ⟨here, later⟩ := List.forall_mem_cons.1 cut
      rw [cons, cons']
      refine (here.because fun given => ⟨a, List.mem_cons_self, given⟩).answer_bind ?_
      rintro part _ rfl
      refine ((ih later).because ?_).answer_bind ?_
      · rintro ⟨b, hb, given⟩
        exact ⟨b, List.mem_cons_of_mem _ hb, given⟩
      · rintro rest _ rfl
        exact result rfl

/-- Leaves are asked one after another until one is not satisfied. -/
theorem firstInvalid {judge judge' : Leaf → Except ConstraintError Verdict} {reason : Leaf → Prop}
    (each : ∀ leaf, Cut bound (reason leaf) Eq (judge leaf) (judge' leaf)) (leaves : List Leaf) :
    Cut bound (∃ before leaf after, leaves = before ++ leaf :: after ∧
        (∀ l ∈ before, judge l = .ok .valid) ∧ reason leaf) Eq
      (Memberwise.firstInvalid judge leaves) (Memberwise.firstInvalid judge' leaves) := by
  -- A leaf is the reason only if all before it are satisfied, so these are kept on the way.
  induction leaves with
  | nil => exact .done rfl
  | cons leaf rest ih =>
      rw [Memberwise.firstInvalid, Memberwise.firstInvalid]
      have here := each leaf
      generalize said : judge leaf = x, judge' leaf = y at here
      cases here with
      | exceeded given => exact .exceeded ⟨[], leaf, rest, rfl, by simp, given⟩
      | failed other => exact .failed other
      | @done verdict _ same =>
          cases same
          cases valid : verdict.isValid with
          | false =>
              simp only [Except.bind, valid]
              exact .done rfl
          | true =>
              simp only [Except.bind, valid, if_true]
              refine ih.because ?_
              rintro ⟨before, l, after, rfl, satisfied, given⟩
              refine ⟨leaf :: before, l, after, rfl, ?_, given⟩
              intro other hother
              rcases List.mem_cons.1 hother with rfl | hother
              · rw [said, Verdict.isValid_eq_true.1 valid]
              · exact satisfied other hother

end Cut

theorem ConstraintError.OfParams.ne_depthExceeded {err : ConstraintError} (stated : err.OfParams)
    (k : Nat) : err ≠ .depthExceeded k := by
  rcases stated with ⟨tag, param, rfl⟩ | ⟨pattern, rfl⟩
  · rintro ⟨⟩
  · rintro ⟨⟩

namespace Factory

variable {patterns : PatternEngine} {registryOf : CatalogRef → Registry} {d : CatalogRef} {h : Heap}
  {v : Value} {bound : Nat} {why : Prop}

/-- Whether a built-in validator can be built depends on the tag alone. -/
theorem cut_construct (ctx ctx' : Context) (t : Tag) (id : String) :
    Cut bound why (fun _ _ => True)
      (((ofCatalog d).construct (ctx.withTag t) id).answer registryOf)
      (((ofCatalog d).construct (ctx'.withTag t) id).answer registryOf) := by
  cases found : (ofCatalog d).registrations.get? id with
  | none =>
      rw [construct, construct, registration, registration, found]
      exact .failed (by rintro k ⟨⟩)
  | some r =>
      rw [construct_ofCatalog found, construct_ofCatalog found]
      rcases (Rule.builtIn_cases (mem_builtIn_of_get? found)).2 with
        ⟨-, -, make, build, -, stated⟩ | ⟨-, build⟩ | ⟨-, build⟩
      · rw [build, build, Context.withTag, Context.withTag, Query.answer_ofExcept]
        cases made : make t with
        | error err => exact .failed (stated t err made).ne_depthExceeded
        | ok c => exact .done trivial
      · rw [build, build]
        exact .result trivial
      · rw [build, build]
        exact .result trivial

/-- Whether a tag can be resolved, and to a checker, does not depend on the context. -/
theorem cut_resolveAmong (ctx ctx' : Context) (defs : List TagDefinition) (t : Tag) :
    Cut bound why (Option.Rel fun _ _ => True)
      (((ofCatalog d).resolveAmong ctx defs t).answer registryOf)
      (((ofCatalog d).resolveAmong ctx' defs t).answer registryOf) := by
  induction defs generalizing t with
  | nil => exact .failed (by rintro k ⟨⟩)
  | cons def' older ih =>
      rw [resolveAmong, resolveAmong]
      cases def'.name == t.name with
      | false => exact ih t
      | true =>
          simp only [if_true]
          cases def'.validator with
          | some id =>
              refine (cut_construct ctx ctx' t id).answer_bind fun c c' _ => ?_
              exact .result (.some trivial)
          | none =>
              cases def'.isComposite with
              | false => exact .result .none
              | true =>
                  refine (Cut.mapM ih def'.metaTags).answer_bind fun cs cs' _ => ?_
                  exact .result (.some trivial)

theorem cut_resolve (ctx ctx' : Context) (tag : ctx'.tag = ctx.tag) :
    Cut bound why (Option.Rel fun _ _ => True) (((ofCatalog d).resolve ctx).answer registryOf)
      (((ofCatalog d).resolve ctx').answer registryOf) := by
  rw [answer_resolve_eq, answer_resolve_eq, tag]
  exact cut_resolveAmong ctx ctx' _ _

/-- What a built-in validator says is the same in every context, or is what it says of
the inside of the value. -/
theorem leafVerdict_eq_or (registryOf : CatalogRef → Registry) (d : CatalogRef) (h : Heap)
    (v : Value) (leaf : Leaf) :
    (∃ said, (∀ k, said ≠ .error (.depthExceeded k)) ∧
      ∀ ctx, (ofCatalog d).leafVerdict registryOf ctx h v leaf = said) ∨
    (leaf.validator = BuiltIn.valid ∧ ∀ ctx, (ofCatalog d).leafVerdict registryOf ctx h v leaf =
      (Rule.valid ctx.engine h v).answer registryOf) ∨
    (leaf.validator = BuiltIn.valids ∧ ∀ ctx, (ofCatalog d).leafVerdict registryOf ctx h v leaf =
      (Rule.valids ctx.engine h v).answer registryOf) := by
  cases found : (ofCatalog d).registrations.get? leaf.validator with
  | none =>
      refine Or.inl ⟨.error (.unknownValidator leaf.tag.name leaf.validator), ?_, fun ctx => ?_⟩
      · rintro k ⟨⟩
      · rw [leafVerdict, construct, registration, found]
        rfl
  | some r =>
      rcases (Rule.builtIn_cases (mem_builtIn_of_get? found)).2 with
        ⟨-, -, make, build, decisive, stated⟩ | ⟨validator, build⟩ | ⟨validator, build⟩
      · refine Or.inl ⟨(make leaf.tag).bind fun c => (c h v).answer registryOf, ?_, fun ctx => ?_⟩
        · intro k
          cases made : make leaf.tag with
          | error err =>
              intro same
              exact (stated _ err made).ne_depthExceeded k (Except.error.inj same)
          | ok c =>
              rcases decisive _ c made h v with ⟨b, answers⟩ | ⟨id, refuses⟩
              · rw [Except.bind, answers]
                rintro ⟨⟩
              · rw [Except.bind, refuses]
                rintro ⟨⟩
        · rw [leafVerdict, construct_ofCatalog found, build, Query.answer_ofExcept, Context.withTag]
      · refine Or.inr (Or.inl ⟨validator, fun ctx => ?_⟩)
        rw [leafVerdict, construct_ofCatalog found, build]
        rfl
      · refine Or.inr (Or.inr ⟨validator, fun ctx => ?_⟩)
        rw [leafVerdict, construct_ofCatalog found, build]
        rfl

end Factory

end Memberwise
