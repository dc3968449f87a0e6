import Mathlib
import Memberwise.Registry.Builder
import Memberwise.World

/-!
# Members that are the same

Members are compared by name, by declaring type and by what they are bound to, and that is
compared as values are: containers by identity, all else by structure.  The structure of a
tag goes through its parameters down to numbers, and there is one number that is not equal to
itself.  So members are equal to themselves as long as no NaN is in what they are bound to;
all other laws hold without exception (`member_equality_laws`).
-/

namespace Memberwise

/-! ### Doubles -/

section

variable {x y z : Float}

theorem beq_float_symm (equal : (x == y) = true) : (y == x) = true := by
  obtain ⟨left, right, same | ⟨rfl, rfl⟩ | ⟨rfl, rfl⟩⟩ := Float.beq_iff_ne_nan_and_eq.1 equal
  · exact Float.beq_iff_ne_nan_and_eq.2 ⟨right, left, Or.inl same.symm⟩
  · exact Float.beq_iff_ne_nan_and_eq.2 ⟨right, left, Or.inr (Or.inr ⟨rfl, rfl⟩)⟩
  · exact Float.beq_iff_ne_nan_and_eq.2 ⟨right, left, Or.inr (Or.inl ⟨rfl, rfl⟩)⟩

theorem beq_float_trans (equal : (x == y) = true) (equal' : (y == z) = true) :
    (x == z) = true := by
  rw [Float.beq_iff_ne_nan_and_eq] at equal equal' ⊢
  grind

theorem beq_float_self_iff : (x == x) = true ↔ x.isNaN = false := by
  rw [Float.beq_self_iff, Float.isNaN_eq_decide_eq_nan, decide_eq_false_iff_not]

end

/-! ### Sameness by rules -/

namespace Value

mutual

/-- Values are the same by their structure, but numbers by comparison and containers by
identity. -/
inductive Same : Value → Value → Prop
  | null : Same .null .null
  | bool (b : Bool) : Same (.bool b) (.bool b)
  | int (i : Int64) : Same (.int i) (.int i)
  | float {x y : Float} (equal : (x == y) = true) : Same (.float x) (.float y)
  | string (s : String) : Same (.string s) (.string s)
  | object {a b : ObjectRef} (identical : a.id = b.id) : Same (.object a) (.object b)
  | list {a b : ListRef} (identical : a.id = b.id) : Same (.list a) (.list b)
  | map {a b : MapRef} (identical : a.id = b.id) : Same (.map a) (.map b)
  | properties {a b : PropertiesRef} (identical : a.id = b.id) :
    Same (.properties a) (.properties b)
  | cursor {a b : CursorRef} (identical : a.id = b.id) : Same (.cursor a) (.cursor b)
  | tag (name : String) {ps qs : List (String × Value)} (params : SameParams ps qs) :
    Same (.tag ⟨name, ps⟩) (.tag ⟨name, qs⟩)

/-- The same parameters in the same order. -/
inductive SameParams : List (String × Value) → List (String × Value) → Prop
  | nil : SameParams [] []
  | cons (name : String) {v w : Value} {ps qs : List (String × Value)} (head : Same v w)
    (tail : SameParams ps qs) : SameParams ((name, v) :: ps) ((name, w) :: qs)

end

/-- NaN is the value, or is in a parameter of it. -/
inductive HoldsNaN : Value → Prop
  | float {x : Float} (nan : x.isNaN = true) : HoldsNaN (.float x)
  | tag {t : Tag} {p : String × Value} (param : p ∈ t.params) (held : HoldsNaN p.2) :
    HoldsNaN (.tag t)

/-! ### Comparison decides it -/

mutual

theorem Same.same_eq_true : {v w : Value} → Same v w → v.same w = true
  | _, _, .null => rfl
  | _, _, .bool b => by rw [same, beq_self_eq_true]
  | _, _, .int i => by rw [same, beq_self_eq_true]
  | _, _, .float equal => equal
  | _, _, .string s => by rw [same, beq_self_eq_true]
  | _, _, .object identical => by rw [same, identical, beq_self_eq_true]
  | _, _, .list identical => by rw [same, identical, beq_self_eq_true]
  | _, _, .map identical => by rw [same, identical, beq_self_eq_true]
  | _, _, .properties identical => by rw [same, identical, beq_self_eq_true]
  | _, _, .cursor identical => by rw [same, identical, beq_self_eq_true]
  | _, _, .tag name params => by
      rw [same, sameTag, beq_self_eq_true, params.sameParams_eq_true, Bool.and_self]

theorem SameParams.sameParams_eq_true : {ps qs : List (String × Value)} → SameParams ps qs →
    sameParams ps qs = true
  | _, _, .nil => rfl
  | _, _, .cons name head tail => by
      rw [sameParams, sameParam, beq_self_eq_true, head.same_eq_true, tail.sameParams_eq_true]
      rfl

end

mutual

theorem same_of_same_eq_true : (v w : Value) → v.same w = true → Same v w
  | .null, w, h => by
      cases w with
      | null => exact .null
      | _ => cases h
  | .bool b, w, h => by
      cases w with
      | bool b' => exact eq_of_beq (a := b) h ▸ .bool b
      | _ => cases h
  | .int i, w, h => by
      cases w with
      | int i' => exact eq_of_beq (a := i) h ▸ .int i
      | _ => cases h
  | .float x, w, h => by
      cases w with
      | float y => exact .float h
      | _ => cases h
  | .string s, w, h => by
      cases w with
      | string s' => exact eq_of_beq (a := s) h ▸ .string s
      | _ => cases h
  | .object a, w, h => by
      cases w with
      | object b => exact .object (eq_of_beq h)
      | _ => cases h
  | .list a, w, h => by
      cases w with
      | list b => exact .list (eq_of_beq h)
      | _ => cases h
  | .map a, w, h => by
      cases w with
      | map b => exact .map (eq_of_beq h)
      | _ => cases h
  | .properties a, w, h => by
      cases w with
      | properties b => exact .properties (eq_of_beq h)
      | _ => cases h
  | .cursor a, w, h => by
      cases w with
      | cursor b => exact .cursor (eq_of_beq h)
      | _ => cases h
  | .tag ⟨name, ps⟩, w, h => by
      cases w with
      | tag t =>
          obtain ⟨name', qs⟩ := t
          have both : (name == name' && sameParams ps qs) = true := h
          obtain ⟨named, params⟩ := Bool.and_eq_true_iff.1 both
          exact eq_of_beq named ▸ .tag name (sameParams_of_sameParams_eq_true ps qs params)
      | _ => cases h

theorem sameParams_of_sameParams_eq_true : (ps qs : List (String × Value)) →
    sameParams ps qs = true → SameParams ps qs
  | [], [], _ => .nil
  | [], _ :: _, h => by cases h
  | _ :: _, [], h => by cases h
  | (name, v) :: ps, (name', w) :: qs, h => by
      have both : ((name == name' && v.same w) && sameParams ps qs) = true := h
      obtain ⟨first, tail⟩ := Bool.and_eq_true_iff.1 both
      obtain ⟨named, head⟩ := Bool.and_eq_true_iff.1 first
      exact eq_of_beq named ▸ .cons name (same_of_same_eq_true v w head)
        (sameParams_of_sameParams_eq_true ps qs tail)

end

theorem same_eq_true_iff {v w : Value} : v.same w = true ↔ Same v w :=
  ⟨same_of_same_eq_true v w, Same.same_eq_true⟩

/-! ### Laws -/

mutual

theorem Same.symm : {v w : Value} → Same v w → Same w v
  | _, _, .null => .null
  | _, _, .bool b => .bool b
  | _, _, .int i => .int i
  | _, _, .float equal => .float (beq_float_symm equal)
  | _, _, .string s => .string s
  | _, _, .object identical => .object identical.symm
  | _, _, .list identical => .list identical.symm
  | _, _, .map identical => .map identical.symm
  | _, _, .properties identical => .properties identical.symm
  | _, _, .cursor identical => .cursor identical.symm
  | _, _, .tag name params => .tag name params.symm

theorem SameParams.symm : {ps qs : List (String × Value)} → SameParams ps qs → SameParams qs ps
  | _, _, .nil => .nil
  | _, _, .cons name head tail => .cons name head.symm tail.symm

end

mutual

theorem Same.trans : {u v w : Value} → Same u v → Same v w → Same u w
  | _, _, _, .null, .null => .null
  | _, _, _, .bool b, .bool _ => .bool b
  | _, _, _, .int i, .int _ => .int i
  | _, _, _, .float equal, .float equal' => .float (beq_float_trans equal equal')
  | _, _, _, .string s, .string _ => .string s
  | _, _, _, .object same, .object same' => .object (same.trans same')
  | _, _, _, .list same, .list same' => .list (same.trans same')
  | _, _, _, .map same, .map same' => .map (same.trans same')
  | _, _, _, .properties same, .properties same' => .properties (same.trans same')
  | _, _, _, .cursor same, .cursor same' => .cursor (same.trans same')
  | _, _, _, .tag name params, .tag _ params' => .tag name (params.trans params')

theorem SameParams.trans : {ps qs rs : List (String × Value)} → SameParams ps qs →
    SameParams qs rs → SameParams ps rs
  | _, _, _, .nil, .nil => .nil
  | _, _, _, .cons name head tail, .cons _ head' tail' =>
      .cons name (head.trans head') (tail.trans tail')

end

theorem SameParams.same_of_mem {ps : List (String × Value)} {p : String × Value}
    (h : SameParams ps ps) (mem : p ∈ ps) : Same p.2 p.2 := by
  induction ps with
  | nil => cases mem
  | cons q ps ih =>
      cases h with
      | cons name head tail =>
          rcases List.mem_cons.1 mem with rfl | later
          · exact head
          · exact ih tail later

theorem HoldsNaN.not_same {v : Value} (h : HoldsNaN v) : ¬Same v v := by
  induction h with
  | float nan =>
      rintro ⟨⟩
      next equal => exact Bool.noConfusion (nan.symm.trans (beq_float_self_iff.1 equal))
  | tag param held ih =>
      rintro ⟨⟩
      next params => exact ih (params.same_of_mem param)

mutual

theorem same_of_not_holdsNaN : (v : Value) → ¬HoldsNaN v → Same v v
  | .null, _ => .null
  | .bool b, _ => .bool b
  | .int i, _ => .int i
  | .float _, h => .float (beq_float_self_iff.2 (Bool.not_eq_true _ ▸ fun nan => h (.float nan)))
  | .string s, _ => .string s
  | .object _, _ => .object rfl
  | .list _, _ => .list rfl
  | .map _, _ => .map rfl
  | .properties _, _ => .properties rfl
  | .cursor _, _ => .cursor rfl
  | .tag ⟨name, ps⟩, h =>
      .tag name (sameParams_of_not_holdsNaN ps fun _ param held => h (.tag param held))

theorem sameParams_of_not_holdsNaN : (ps : List (String × Value)) →
    (∀ p ∈ ps, ¬HoldsNaN p.2) → SameParams ps ps
  | [], _ => .nil
  | (name, v) :: ps, h => .cons name (same_of_not_holdsNaN v (h _ List.mem_cons_self))
      (sameParams_of_not_holdsNaN ps fun p mem => h p (List.mem_cons_of_mem _ mem))

end

/-- A value is the same as itself, unless there is NaN in it. -/
theorem same_self_iff {v : Value} : Same v v ↔ ¬HoldsNaN v :=
  ⟨fun same held => held.not_same same, same_of_not_holdsNaN v⟩

end Value

namespace Member

variable {m n o : Member}

theorem sameTarget_eq_true_iff {a b : Option Value} :
    sameTarget a b = true ↔ Option.Rel Value.Same a b := by
  cases a with
  | none =>
      cases b with
      | none => exact ⟨fun _ => .none, fun _ => rfl⟩
      | some w => exact ⟨nofun, nofun⟩
  | some v =>
      cases b with
      | none => exact ⟨nofun, nofun⟩
      | some w => exact Value.same_eq_true_iff.trans ⟨.some, fun | .some same => same⟩

theorem same_eq_true_iff : m.same n = true ↔
    Option.Rel Value.Same m.target n.target ∧ m.name = n.name ∧
      m.declaringType = n.declaringType := by
  rw [same, Bool.and_eq_true, Bool.and_eq_true, beq_iff_eq, beq_iff_eq, and_assoc,
    sameTarget_eq_true_iff]

theorem symm_targets {a b : Option Value} :
    Option.Rel Value.Same a b → Option.Rel Value.Same b a
  | .none => .none
  | .some same => .some same.symm

theorem trans_targets {a b c : Option Value} :
    Option.Rel Value.Same a b → Option.Rel Value.Same b c → Option.Rel Value.Same a c
  | .none, .none => .none
  | .some same, .some same' => .some (same.trans same')

theorem isSome_eq_of_targets {a b : Option Value} :
    Option.Rel Value.Same a b → a.isSome = b.isSome
  | .none => rfl
  | .some _ => rfl

theorem targets_self_iff {a : Option Value} :
    Option.Rel Value.Same a a ↔ ∀ v, a = some v → ¬v.HoldsNaN := by
  cases a with
  | none => exact ⟨fun _ _ => nofun, fun _ => .none⟩
  | some v =>
      rw [Option.rel_some_some, Value.same_self_iff]
      exact ⟨fun none _ e => Option.some.inj e ▸ none, fun none => none v rfl⟩

theorem same_symm (h : m.same n = true) : n.same m = true := by
  obtain ⟨targets, name, declaring⟩ := same_eq_true_iff.1 h
  exact same_eq_true_iff.2 ⟨symm_targets targets, name.symm, declaring.symm⟩

theorem same_trans (h : m.same n = true) (h' : n.same o = true) : m.same o = true := by
  obtain ⟨targets, name, declaring⟩ := same_eq_true_iff.1 h
  obtain ⟨targets', name', declaring'⟩ := same_eq_true_iff.1 h'
  exact same_eq_true_iff.2
    ⟨trans_targets targets targets', name.trans name', declaring.trans declaring'⟩

theorem hashKey_eq_of_same (h : m.same n = true) : m.hashKey = n.hashKey := by
  obtain ⟨targets, name, declaring⟩ := same_eq_true_iff.1 h
  have bound : m.isBound = n.isBound := isSome_eq_of_targets targets
  rw [hashKey, hashKey, name, declaring, bound]

theorem same_self_iff : m.same m = true ↔ ∀ v, m.target = some v → ¬v.HoldsNaN := by
  rw [same_eq_true_iff, and_iff_left ⟨rfl, rfl⟩]
  exact targets_self_iff

end Member

/-- Equality of members is symmetric and transitive, and equal members have equal hashes.
It is reflexive but for members that are bound to NaN, or to a tag that holds NaN. -/
theorem member_equality_laws (m n o : Member) :
    (m.same m = true ↔ ∀ v, m.target = some v → ¬v.HoldsNaN) ∧
    (m.same n = true → n.same m = true ∧ m.hashKey = n.hashKey) ∧
    (m.same n = true → n.same o = true → m.same o = true) := by
  refine ⟨Member.same_self_iff, ?_, Member.same_trans⟩
  intro same
  exact ⟨Member.same_symm same, Member.hashKey_eq_of_same same⟩

/-- A tag with a number. -/
def scores : List Definition :=
  [.tag { TagDraft.plain "score" with params := [⟨"value", .float, none⟩] }]

def scoresWorld : World :=
  ⟨.empty, (Catalogs.empty.add (Builder.empty.declareAll scores).build).2⟩

def score (x : Float) : Value := .tag ⟨"score", [("value", .float x)]⟩

/-- The number of a score, as it is found. -/
def numberOf (x : Float) : Member :=
  .ofTemplate (paramTemplate "score" ⟨"value", .float, none⟩) (some (score x))

/-- Scores of zero are equal, whatever the sign of zero is. -/
theorem scores_of_zero_are_same :
    (numberOf 0).same (numberOf (-0)) = true ∧ (numberOf (-0)).same (numberOf 0) = true ∧
      (numberOf 0).hashKey = (numberOf (-0)).hashKey ∧ (numberOf 0).same (numberOf 0) = true := by
  have same : (numberOf 0).same (numberOf (-0)) = true := rfl
  obtain ⟨-, symm, trans⟩ := member_equality_laws (numberOf 0) (numberOf (-0)) (numberOf 0)
  obtain ⟨back, hash⟩ := symm same
  exact ⟨same, back, hash, trans same back⟩

/-- A member is found on a score of NaN, and is not equal to itself. -/
theorem score_of_nan_is_not_itself :
    let nan := Float.ofBits 0x7ff8000000000000
    (Query.run scoresWorld fun h => CatalogRef.memberOf? ⟨0⟩ h (score nan) "value" true).1 =
      .ok (some (numberOf nan)) ∧
    (numberOf nan).same (numberOf nan) = false :=
  ⟨rfl, rfl⟩

end Memberwise
