import Memberwise.Proofs.Conjunctions
import Memberwise.Proofs.Redeclaring
import Memberwise.Proofs.Units

/-!
# Bounds on integers

A bound compares doubles, also where the limit and the number are integers.  Integers that
are rounded to one double are the same to it, so what a bound without a tolerance decides is
whether one rounded integer may stand on its side of another (`Bound.admits_eq`).  Up to 53
digits nothing is rounded, and rounding never puts one integer on the other side of another:
only integers that become equal are judged otherwise than they would be as integers, and
they are 1024 apart at most (`integer_bounds_compare_doubles`).
-/

namespace Memberwise

/-! ### Numbers -/

theorem stands_zero_of_beq {x : Float} (zero : (x == 0) = true) : Stands x.toModel.unpack 0 := by
  obtain ⟨-, -, rfl | ⟨rfl, -⟩ | ⟨rfl, -⟩⟩ := Float.beq_iff_ne_nan_and_eq.1 zero
  · exact .zero .positive
  · exact .zero .positive
  · exact .zero .negative

theorem natAbs_toInt_le (x : Int64) : x.toInt.natAbs ≤ 2 ^ 63 := by
  have least := x.le_toInt
  have most := x.toInt_lt
  omega

theorem natAbs_rounded_le {i : Int} (bounded : i.natAbs ≤ 2 ^ 63) :
    (rounded i).natAbs ≤ 2 ^ 63 := by
  rw [natAbs_rounded]
  exact nearest_two_pow 63 ▸ nearest_mono bounded

namespace Rule

/-- What a bound on integers lets through. -/
def BoundKind.allows (kind : BoundKind) (inclusive : Bool) (limit n : Int) : Bool :=
  match kind with
  | min => decide (limit < n) || inclusive && decide (n = limit)
  | max => decide (n < limit) || inclusive && decide (n = limit)

/-- Without a tolerance a bound is one on what the doubles stand for. -/
theorem Bound.admits_eq {b : Bound} {n : Float} {i j : Int}
    (number : Stands n.toModel.unpack (i * units))
    (limit : Stands b.limit.toModel.unpack (j * units)) (exact : Stands b.delta.toModel.unpack 0)
    (bounded : (i - j).natAbs ≤ 2 ^ 64) : b.admits n = b.kind.allows b.inclusive j i := by
  have pos : (0 : Int) < units := Int.natCast_pos.2 units_pos
  have near : (n - b.limit).abs ≤ b.delta ↔ i = j := by
    have limited : (i * units - j * units).natAbs ≤ 2 ^ 2000 := by
      rw [← Int.sub_mul, Int.natAbs_mul, Int.natAbs_natCast]
      exact mul_units_le bounded
    rw [(number.float_sub limit limited).float_abs.le_iff exact, Int.natCast_nonpos_iff,
      Int.natAbs_eq_zero, rounded_eq_zero_iff, ← Int.sub_mul, Int.mul_eq_zero,
      or_iff_left pos.ne', Int.sub_eq_zero]
  have above : n > b.limit ↔ j < i := by
    rw [gt_iff_lt, limit.lt_iff number, Int.mul_lt_mul_right pos]
  have below : n < b.limit ↔ i < j := by
    rw [number.lt_iff limit, Int.mul_lt_mul_right pos]
  rw [admits]
  by_cases same : i = j
  · rw [if_pos (near.2 same), same]
    cases b.kind with
    | min => simp [BoundKind.allows]
    | max => simp [BoundKind.allows]
  · rw [if_neg (mt near.1 same)]
    cases b.kind with
    | min => simp [BoundKind.allows, above, same]
    | max => simp [BoundKind.allows, below, same]

/-- Integers are allowed for what they are unless they are rounded to the limit. -/
theorem BoundKind.allows_rounded (kind : BoundKind) (inclusive : Bool) {limit n : Int}
    (apart : rounded n ≠ rounded limit) :
    kind.allows inclusive (rounded limit) (rounded n) = kind.allows inclusive limit n := by
  have other : n ≠ limit := by
    rintro rfl
    exact apart rfl
  cases kind with
  | min => simp [allows, apart, other, rounded_lt_iff apart.symm]
  | max => simp [allows, apart, other, rounded_lt_iff apart]

end Rule

/-! ### Tags -/

namespace Builder

variable {b : Builder} {s t : Tag} {d : TagDefinition} {p : TagParameter}

theorem or_default_of_fillParam {q : String × Value} (filled : fillParam d s p = .ok q) :
    q.1 = p.name ∧ (s.get? p.name).or p.default = some q.2 := by
  rw [fillParam] at filled
  cases given : s.get? p.name with
  | some value =>
      rw [given] at filled
      cases filled
      exact ⟨rfl, rfl⟩
  | none =>
      rw [given] at filled
      cases default : p.default with
      | some value =>
          rw [default] at filled
          cases filled
          exact ⟨rfl, rfl⟩
      | none =>
          rw [default] at filled
          cases filled

/-- In normal form a parameter has the value that is given for it, and else its default. -/
theorem get?_of_normalize (normalized : b.normalize s = .ok t) (known : b.tag? s.name = some d)
    (distinct : (d.params.map (·.name)).Nodup) (hp : p ∈ d.params) :
    t.get? p.name = (s.get? p.name).or p.default := by
  obtain ⟨d', params, known', -, filled, rfl⟩ := normalize_eq_ok normalized
  cases known.symm.trans known'
  have names := map_fst_of_fillParam filled
  obtain ⟨q, hq, done⟩ := exists_of_forall₂ filled.flip hp
  obtain ⟨called, given⟩ := or_default_of_fillParam done
  rw [given]
  exact Pairs.get?_ofList_of_mem (names ▸ distinct) (called ▸ hq)

/-- The definition of a built-in bound stays, whatever is declared besides. -/
theorem exists_tag?_bound (kind : Rule.BoundKind) (ds : List Definition) :
    ∃ d, (BuiltIn.builder.declareAll ds).tag? kind.name = some d ∧ d.name = kind.name ∧
      d.params = BuiltIn.boundParams ∧ d.validator = some kind.name := by
  have declared : ∃ d, BuiltIn.builder.tag? kind.name = some d ∧ d.name = kind.name ∧
      d.params = BuiltIn.boundParams ∧ d.validator = some kind.name := by
    cases kind with
    | min => exact ⟨_, rfl, rfl, rfl, rfl⟩
    | max => exact ⟨_, rfl, rfl, rfl, rfl⟩
  obtain ⟨d, known, params⟩ := declared
  exact ⟨d, tag?_declareAll known ds, params⟩

end Builder

/-- A tag for a bound on integers, as it is written: its limit is an integer, and it has no
tolerance, or one of zero. -/
structure Tag.BoundsIntegers (s : Tag) (kind : Rule.BoundKind) (limit : Int64) : Prop where
  name : s.name = kind.name
  limit : s.get? "value" = some (.int limit)
  exact : ∀ delta, s.number? "delta" = some delta → (delta == 0) = true

/-- Whether the limit itself is allowed, which it is if the tag says nothing about it. -/
def Tag.isInclusive (s : Tag) : Bool :=
  (s.bool? "inclusive").getD true

/-- In normal form the tag states the same bound, with what it left out filled in. -/
theorem Rule.exists_bound_of_normalize {ds : List Definition} {kind : BoundKind} {s t : Tag}
    {limit : Int64} (normalized : (BuiltIn.builder.declareAll ds).normalize s = .ok t)
    (bounds : s.BoundsIntegers kind limit) :
    ∃ b : Bound, Bound.ofTag kind t = .ok b ∧ b.kind = kind ∧ b.inclusive = s.isInclusive ∧
      b.limit = Float.ofInt limit.toInt ∧ Stands b.delta.toModel.unpack 0 := by
  obtain ⟨d, known, -, params, -⟩ := Builder.exists_tag?_bound kind ds
  rw [← bounds.name] at known
  have given : ∀ p ∈ d.params, t.get? p.name = (s.get? p.name).or p.default := by
    intro p hp
    refine Builder.get?_of_normalize normalized known ?_ hp
    rw [params]
    decide
  rw [params] at given
  have value : t.get? "value" = (s.get? "value").or none := given _ List.mem_cons_self
  have delta : t.get? "delta" = (s.get? "delta").or (some (.float 0)) :=
    given _ (List.mem_cons_of_mem _ List.mem_cons_self)
  have inclusive : t.get? "inclusive" = (s.get? "inclusive").or (some (.bool true)) :=
    given _ (List.mem_cons_of_mem _ (List.mem_cons_of_mem _ List.mem_cons_self))
  have stated : t.number? "value" = some (Float.ofInt limit.toInt) := by
    rw [TagOf.number?, value, bounds.limit]
    rfl
  have included : (t.bool? "inclusive").getD true = s.isInclusive := by
    rw [TagOf.bool?, inclusive, Tag.isInclusive, TagOf.bool?]
    cases s.get? "inclusive" with
    | some v => rfl
    | none => rfl
  have exact : ((t.number? "delta").getD 0 == 0) = true := by
    have own := bounds.exact
    rw [TagOf.number?] at own
    rw [TagOf.number?, delta]
    cases tolerance : s.get? "delta" with
    | some v =>
        rw [tolerance] at own
        show ((v.asNumber).getD 0 == 0) = true
        cases number : v.asNumber with
        | some x => exact own x number
        | none => rfl
    | none => rfl
  refine ⟨⟨kind, Float.ofInt limit.toInt, ((t.number? "delta").getD 0).abs,
    (t.bool? "inclusive").getD true⟩, ?_, rfl, included, rfl, (stands_zero_of_beq exact).float_abs⟩
  rw [Bound.ofTag, stated]

theorem Rule.answer_checker_int {registryOf : CatalogRef → Registry} {b : Bound} {limit : Int64}
    (integer : b.limit = Float.ofInt limit.toInt) (exact : Stands b.delta.toModel.unpack 0)
    (h : Heap) (n : Int64) :
    (b.checker h (.int n)).answer registryOf =
      .ok (.ofBool (b.kind.allows b.inclusive (rounded limit.toInt) (rounded n.toInt))) := by
  have sides : (rounded n.toInt - rounded limit.toInt).natAbs ≤ 2 ^ 64 := by
    have left := natAbs_rounded_le (natAbs_toInt_le n)
    have right := natAbs_rounded_le (natAbs_toInt_le limit)
    omega
  have judged := Bound.admits_eq (stands_float_ofInt (natAbs_toInt_le n))
    (integer ▸ stands_float_ofInt (natAbs_toInt_le limit)) exact sides
  rw [← judged]
  rfl

/-- The tag is enforced by the bound that it states, in whatever context. -/
theorem Factory.answer_resolve_bound [PatternEngine] {registryOf : CatalogRef → Registry}
    {c : CatalogRef} {ds : List Definition}
    (registered : registryOf c = (BuiltIn.builder.declareAll ds).build)
    {kind : Rule.BoundKind} {ctx : Context} (named : ctx.tag.name = kind.name) :
    ((ofCatalog c).resolve ctx).answer registryOf =
      (Rule.Bound.ofTag kind ctx.tag).map fun b => some b.checker := by
  obtain ⟨d, known, -, -, validator⟩ := Builder.exists_tag?_bound kind ds
  have found : (ofCatalog c).registrations.get? kind.name = some (Rule.bound kind) := by
    refine get?_of_mem_builtIn ?_
    cases kind with
    | min => simp [Rule.builtIn, Rule.BoundKind.name]
    | max => simp [Rule.builtIn, Rule.BoundKind.name]
  have built : (registryOf c).Built := by
    rw [registered, BuiltIn.builder, ← Builder.declareAll_append]
    exact Registry.built_build _
  have known' : (registryOf c).tag? ctx.tag.name = some d := by
    rw [registered, named]
    exact known
  rw [answer_resolve (f := ofCatalog c) built known', resolution, validator]
  show (((ofCatalog c).construct (ctx.withTag ctx.tag) kind.name).answer registryOf).map some = _
  rw [construct_ofCatalog found]
  show ((Rule.Bound.ofTag kind ctx.tag).map (·.checker)).map some = _
  cases Rule.Bound.ofTag kind ctx.tag with
  | ok b => rfl
  | error e => rfl

/-- A built-in bound without a tolerance, whose limit is an integer, compares an integer with
it as doubles do: both are rounded, and if they are the same then it matters whether the limit
itself is allowed.  Integers of up to 53 digits, and all that are not rounded to the limit,
are judged for what they are.  Those that are rounded to the limit are at most 1024 away. -/
theorem integer_bounds_compare_doubles [PatternEngine] {w : World} {c : CatalogRef}
    {ds : List Definition}
    (registered : w.catalogs.registry c = (BuiltIn.builder.declareAll ds).build)
    {kind : Rule.BoundKind} {s t : Tag} {limit : Int64}
    (normalized : (BuiltIn.builder.declareAll ds).normalize s = .ok t)
    (bounds : s.BoundsIntegers kind limit) {ctx : Context} (placed : ctx.tag = t) :
    ∃ checker,
      (Query.run w fun _ => (Factory.ofCatalog c).resolve ctx).1 = .ok (some checker) ∧
      ∀ n : Int64,
        let said := kind.allows s.isInclusive (rounded limit.toInt) (rounded n.toInt)
        (Query.run w fun h => checker h (.int n)).1 = .ok (.ofBool said) ∧
        (limit.toInt.natAbs ≤ 2 ^ 53 ∧ n.toInt.natAbs ≤ 2 ^ 53 ∨
            rounded n.toInt ≠ rounded limit.toInt →
          said = kind.allows s.isInclusive limit.toInt n.toInt) ∧
        (rounded n.toInt = rounded limit.toInt → (n.toInt - limit.toInt).natAbs ≤ 1024) := by
  subst placed
  obtain ⟨b, stated, rfl, inclusive, integer, exact⟩ :=
    Rule.exists_bound_of_normalize normalized bounds
  have named : ctx.tag.name = b.kind.name := by
    obtain ⟨d, known, name, -⟩ := Builder.exists_tag?_bound b.kind ds
    obtain ⟨d', params, known', -, -, whole⟩ := Builder.normalize_eq_ok normalized
    rw [bounds.name, known] at known'
    cases known'
    rw [whole]
    exact name
  refine ⟨b.checker, ?_, ?_⟩
  · rw [Query.run_fst, Factory.answer_resolve_bound registered named, stated]
    rfl
  · intro n said
    refine ⟨?_, ?_, ?_⟩
    · rw [Query.run_fst, Rule.answer_checker_int integer exact, inclusive]
    · rintro (⟨few, few'⟩ | apart)
      · show b.kind.allows _ (rounded _) (rounded _) = _
        rw [rounded_of_natAbs_le few, rounded_of_natAbs_le few']
      · exact b.kind.allows_rounded _ apart
    · intro same
      have left := natAbs_sub_rounded_le (natAbs_toInt_le n)
      have right := natAbs_sub_rounded_le (natAbs_toInt_le limit)
      omega

/-- A tag with a limit that is not allowed itself. -/
def above (limit : Int64) : Tag :=
  ((TagOf.plain BuiltIn.min).withParam "value" (.int limit)).withParam "inclusive" (.bool false)

/-- The same in normal form. -/
def normalAbove (limit : Int64) : Tag :=
  ⟨BuiltIn.min, [("delta", .float 0), ("inclusive", .bool false), ("value", .int limit)]⟩

theorem boundsIntegers_above (limit : Int64) : (above limit).BoundsIntegers .min limit :=
  ⟨rfl, rfl, fun _ given => nomatch given⟩

def boundedWorld : World :=
  ⟨.empty, (Catalogs.empty.add (BuiltIn.builder.declareAll []).build).2⟩

theorem registry_boundedWorld :
    boundedWorld.catalogs.registry ⟨0⟩ = (BuiltIn.builder.declareAll []).build := rfl

def aboveContext (limit : Int64) : Context where
  tag := normalAbove limit
  member := none
  target := none
  engine := (Engine.unchecked (.ofCatalog ⟨0⟩) .standard).asRunning .empty
  create := fun _ => pure none

theorem eleven_is_above_ten_and_ten_is_not :
    ∃ checker, (Query.run boundedWorld fun _ =>
        (Factory.ofCatalog ⟨0⟩).resolve (aboveContext 10)).1 = .ok (some checker) ∧
      (Query.run boundedWorld fun h => checker h (.int 10)).1 = .ok .invalid ∧
      (Query.run boundedWorld fun h => checker h (.int 11)).1 = .ok .valid := by
  have normalized : (BuiltIn.builder.declareAll []).normalize (above 10) = .ok (normalAbove 10) :=
    rfl
  have placed : (aboveContext 10).tag = normalAbove 10 := rfl
  obtain ⟨checker, resolved, judges⟩ :=
    integer_bounds_compare_doubles registry_boundedWorld normalized (boundsIntegers_above 10) placed
  have refused : Rule.BoundKind.min.allows (above 10).isInclusive (rounded (10 : Int64).toInt)
      (rounded (10 : Int64).toInt) = false := by decide
  have allowed : Rule.BoundKind.min.allows (above 10).isInclusive (rounded (10 : Int64).toInt)
      (rounded (11 : Int64).toInt) = true := by decide
  refine ⟨checker, resolved, ?_, ?_⟩
  · rw [(judges 10).1, refused]
    rfl
  · rw [(judges 11).1, allowed]
    rfl

/-- The integer next to the first one of 54 digits is greater, and does not pass for it. -/
theorem next_to_two_pow_is_not_above_it :
    (BuiltIn.builder.declareAll []).normalize (above 9007199254740992) =
        .ok (normalAbove 9007199254740992) ∧
      (9007199254740992 : Int64) < 9007199254740993 ∧
      ∃ checker, (Query.run boundedWorld fun _ =>
          (Factory.ofCatalog ⟨0⟩).resolve (aboveContext 9007199254740992)).1 =
            .ok (some checker) ∧
        (Query.run boundedWorld fun h => checker h (.int 9007199254740993)).1 =
          .ok .invalid := by
  have normalized : (BuiltIn.builder.declareAll []).normalize (above 9007199254740992) =
      .ok (normalAbove 9007199254740992) := rfl
  have named : (aboveContext 9007199254740992).tag.name = Rule.BoundKind.min.name := rfl
  obtain ⟨b, stated, kind, inclusive, integer, exact⟩ :=
    Rule.exists_bound_of_normalize normalized (boundsIntegers_above 9007199254740992)
  have included : b.inclusive = false := inclusive
  have refused : Rule.BoundKind.min.allows false (rounded (9007199254740992 : Int64).toInt)
      (rounded (9007199254740993 : Int64).toInt) = false := by decide
  refine ⟨normalized, by decide, b.checker, ?_, ?_⟩
  · rw [Query.run_fst, Factory.answer_resolve_bound registry_boundedWorld named]
    show (Rule.Bound.ofTag .min (normalAbove 9007199254740992)).map _ = _
    rw [stated]
    rfl
  · rw [Query.run_fst, Rule.answer_checker_int integer exact, kind, included, refused]
    rfl

end Memberwise
