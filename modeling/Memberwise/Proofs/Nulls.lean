import Memberwise.Proofs.Conjunctions
import Memberwise.Proofs.Verdicts

/-!
# Constraints and null

Constraints are about values that are there.  Each built-in validator lets null pass
before it looks at a value at all, but for the one that asks for presence
(`Rule.judgesNull_of_mem_builtIn`).  A conjunction of validators that answer yes or no
answers yes if all of them do, so a tag turns null down exactly if presence is asked for
by one of its leaves (`null_is_invalid_iff_presence_required`).
-/

namespace Memberwise

namespace Rule

/-- The checker gives one verdict on null, whatever there is besides. -/
def JudgesNull (verdict : Verdict) (checker : Checker) : Prop :=
  ∀ h, checker h .null = pure verdict

theorem judgesNull_notNull : JudgesNull .invalid notNull := fun _ => rfl

theorem judgesNull_notEmpty : JudgesNull .valid notEmpty := fun _ => rfl

theorem judgesNull_bound (b : Bound) : JudgesNull .valid b.checker := fun _ => rfl

theorem judgesNull_length (l : Length) : JudgesNull .valid l.checker := fun _ => rfl

theorem judgesNull_matching [PatternEngine] (p : PatternEngine.Compiled) :
    JudgesNull .valid (matching p) := fun _ => rfl

theorem judgesNull_valid (e : Running) : JudgesNull .valid (valid e) := fun _ => rfl

theorem judgesNull_valids (e : Running) : JudgesNull .valid (valids e) := fun _ => rfl

end Rule

namespace Registration

/-- All checkers of a registration give one verdict on null. -/
def JudgesNull (verdict : Verdict) (r : Registration) : Prop :=
  ∀ registryOf ctx checker, (r.build ctx).answer registryOf = .ok checker →
    Rule.JudgesNull verdict checker

variable {verdict : Verdict}

theorem judgesNull_plain {make : Context → Checker}
    (same : ∀ ctx, Rule.JudgesNull verdict (make ctx)) :
    (plain fun ctx => pure (make ctx)).JudgesNull verdict := by
  rintro registryOf ctx checker ⟨⟩
  exact same ctx

theorem judgesNull_ofTag {α : Type} {f : Tag → Except ConstraintError α} {make : α → Checker}
    (same : ∀ a, Rule.JudgesNull verdict (make a)) :
    (ofTag fun t => (f t).map make).JudgesNull verdict := by
  intro registryOf ctx checker built
  obtain ⟨a, -, rfl⟩ := map_eq_ok.1 ((Query.answer_ofExcept registryOf _).symm.trans built)
  exact same a

end Registration

/-- Among the built-in validators only presence turns null down. -/
theorem Rule.judgesNull_of_mem_builtIn [PatternEngine] {id : String} {r : Registration}
    (registered : (id, r) ∈ builtIn) : r.JudgesNull (.ofBool (id != BuiltIn.notNull)) := by
  simp only [builtIn, List.mem_cons, List.not_mem_nil, or_false, Prod.mk.injEq] at registered
  rcases registered with ⟨rfl, rfl⟩ | ⟨rfl, rfl⟩ | ⟨rfl, rfl⟩ | ⟨rfl, rfl⟩ | ⟨rfl, rfl⟩ |
    ⟨rfl, rfl⟩ | ⟨rfl, rfl⟩ | ⟨rfl, rfl⟩
  · exact Registration.judgesNull_plain fun _ => judgesNull_notNull
  · exact Registration.judgesNull_plain fun _ => judgesNull_notEmpty
  · exact Registration.judgesNull_ofTag judgesNull_bound
  · exact Registration.judgesNull_ofTag judgesNull_bound
  · exact Registration.judgesNull_ofTag (f := fun t => .ok (Length.ofTag t)) judgesNull_length
  · exact Registration.judgesNull_ofTag judgesNull_matching
  · exact Registration.judgesNull_plain fun ctx => judgesNull_valid ctx.engine
  · exact Registration.judgesNull_plain fun ctx => judgesNull_valids ctx.engine

namespace Factory

variable {patterns : PatternEngine} {registryOf : CatalogRef → Registry} {f : Factory}
  {ctx : Context} {h : Heap} {leaf : Leaf}

/-- An identifier is registered with what is built in under it. -/
def IsBuiltIn [PatternEngine] (f : Factory) (id : String) : Prop :=
  ∃ r, f.registrations.get? id = some r ∧ (id, r) ∈ Rule.builtIn

/-- A factory to which nothing is added has built-in validators only. -/
theorem isBuiltIn_ofCatalog {d : CatalogRef} {id : String} {r : Registration}
    (found : (ofCatalog d).registrations.get? id = some r) : (ofCatalog d).IsBuiltIn id :=
  ⟨r, found, mem_builtIn_of_get? found⟩

theorem leafVerdict_null (builtIn : f.IsBuiltIn leaf.validator) {own : Checker}
    (made : (f.construct (ctx.withTag leaf.tag) leaf.validator).answer registryOf = .ok own) :
    f.leafVerdict registryOf ctx h .null leaf =
      .ok (.ofBool (leaf.validator != BuiltIn.notNull)) := by
  obtain ⟨r, found, registered⟩ := builtIn
  obtain ⟨r', found', built⟩ := construct_eq_ok made
  cases found.symm.trans found'
  rw [leafVerdict, made]
  show (own h .null).answer registryOf = _
  rw [Rule.judgesNull_of_mem_builtIn registered registryOf _ own built h]
  rfl

/-- A tag of built-in validators lets null pass if presence is not among its leaves. -/
theorem answer_null (built : (registryOf f.catalog).Built) {d : TagDefinition}
    (known : (registryOf f.catalog).tag? ctx.tag.name = some d)
    (builtIn : ∀ leaf ∈ leavesAmong (registryOf f.catalog).tags ctx.tag,
      f.IsBuiltIn leaf.validator)
    {checker : Checker} (resolved : (f.resolve ctx).answer registryOf = .ok (some checker)) :
    (checker h .null).answer registryOf =
      .ok (.ofBool ((leavesAmong (registryOf f.catalog).tags ctx.tag).all fun leaf =>
        leaf.validator != BuiltIn.notNull)) := by
  have judged := (f.resolve_eq_ok registryOf ctx h .null resolved).1
  rw [Option.elim_some] at judged
  rw [judged]
  refine firstInvalid_ofBool fun leaf hl => ?_
  obtain ⟨own, made, -⟩ :=
    exists_own_of_resolve (t := ctx.tag) built (built.hasLeaves known) resolved leaf hl
  exact leafVerdict_null (builtIn leaf hl) made

end Factory

/-- In a registry that was built a stored tag is known, and what it says of null follows from
its leaves, if their validators are built in.  Where it resolves to a checker, that does not
fail on null, and it is invalid exactly if one of the leaves asks for presence. -/
theorem null_is_invalid_iff_presence_required [PatternEngine] {w : World} {f : Factory}
    (built : (w.catalogs.registry f.catalog).Built) :
    let r := w.catalogs.registry f.catalog
    (∀ t ∈ r.storedTags, ∃ d, r.tag? t.name = some d) ∧
    ∀ t d, r.tag? t.name = some d →
      ∃ leaves, (∀ others, r.HasLeaves t others ↔ others = leaves) ∧
        ((∀ leaf ∈ leaves, f.IsBuiltIn leaf.validator) →
          ∀ ctx : Context, ctx.tag = t → ∀ checker,
            (f.resolve ctx).answer w.catalogs.registry = .ok (some checker) → ∀ h,
              (checker h .null).answer w.catalogs.registry =
                .ok (if ∃ leaf ∈ leaves, leaf.validator = BuiltIn.notNull then .invalid
                  else .valid)) := by
  intro r
  refine ⟨fun t stored => built.exists_tag?_of_mem_storedTags stored, ?_⟩
  intro t d known
  refine ⟨leavesAmong r.tags t, ?_, ?_⟩
  · exact fun others => built.hasLeaves_iff known
  · rintro builtIn ctx rfl checker resolved h
    rw [Factory.answer_null built known builtIn resolved]
    split
    · rename_i refused
      obtain ⟨leaf, hl, refuses⟩ := refused
      rw [List.all_eq_false.2 ⟨leaf, hl, by simp [refuses]⟩]
      rfl
    · rename_i passed
      rw [List.all_eq_true.2 fun leaf hl => bne_iff_ne.2 fun refuses => passed ⟨leaf, hl, refuses⟩]
      rfl

/-- Titles must be there, but names need not be. -/
theorem null_is_no_title_but_a_name :
    (∃ checker, ((Factory.ofCatalog ⟨0⟩).resolve titleContext).answer
        namingWorld.catalogs.registry = .ok (some checker) ∧
      (checker .empty .null).answer namingWorld.catalogs.registry = .ok .invalid) ∧
    ∃ checker, ((Factory.ofCatalog ⟨0⟩).resolve (titleContext.withTag (.plain "naming"))).answer
        namingWorld.catalogs.registry = .ok (some checker) ∧
      (checker .empty .null).answer namingWorld.catalogs.registry = .ok .valid := by
  have built : (namingWorld.catalogs.registry ⟨0⟩).Built := ⟨naming, rfl⟩
  obtain ⟨-, known⟩ :=
    null_is_invalid_iff_presence_required (w := namingWorld) (f := Factory.ofCatalog ⟨0⟩) built
  obtain ⟨d, title⟩ : ∃ d, (namingWorld.catalogs.registry ⟨0⟩).tag? "title" = some d := ⟨_, rfl⟩
  obtain ⟨e, name⟩ : ∃ d, (namingWorld.catalogs.registry ⟨0⟩).tag? "naming" = some d := ⟨_, rfl⟩
  have notNull : (Factory.ofCatalog ⟨0⟩).IsBuiltIn BuiltIn.notNull :=
    Factory.isBuiltIn_ofCatalog rfl
  have notEmpty : (Factory.ofCatalog ⟨0⟩).IsBuiltIn BuiltIn.notEmpty :=
    Factory.isBuiltIn_ofCatalog rfl
  constructor
  · obtain ⟨leaves, has, refused⟩ := known (.plain "title") d title
    obtain rfl : [⟨.plain BuiltIn.notNull, BuiltIn.notNull⟩,
        ⟨.plain BuiltIn.notEmpty, BuiltIn.notEmpty⟩] = leaves := (has _).1 (built.hasLeaves title)
    obtain ⟨checker, resolved⟩ : ∃ checker, ((Factory.ofCatalog ⟨0⟩).resolve titleContext).answer
        namingWorld.catalogs.registry = .ok (some checker) := ⟨_, rfl⟩
    refine ⟨checker, resolved, ?_⟩
    rw [refused (by simp [notNull, notEmpty]) titleContext rfl checker resolved .empty,
      if_pos ⟨_, List.mem_cons_self, rfl⟩]
  · obtain ⟨leaves, has, passed⟩ := known (.plain "naming") e name
    obtain rfl : [⟨.plain BuiltIn.notEmpty, BuiltIn.notEmpty⟩] = leaves :=
      (has _).1 (built.hasLeaves name)
    obtain ⟨checker, resolved⟩ : ∃ checker, ((Factory.ofCatalog ⟨0⟩).resolve
        (titleContext.withTag (.plain "naming"))).answer namingWorld.catalogs.registry =
          .ok (some checker) := ⟨_, rfl⟩
    refine ⟨checker, resolved, ?_⟩
    rw [passed (by simp [notEmpty]) _ rfl checker resolved .empty]
    rfl

end Memberwise
