import Memberwise.Copy.Basic
import Memberwise.Proofs.Answers

/-!
# The course of a copy

A copy goes along the members that it selects, and what becomes of each depends on what
is found to copy it into.  On the heap this is told question by question: where a member
of the source is not found, or cannot be read or written, or is not offered, the heap
stays as it is, and else it is the one after the write.
-/

namespace Memberwise

namespace CopySetting

variable {σ : Type} {x : CopySetting σ} {registryOf : CatalogRef → Registry}
  {source : Value} {src : Member} {s : σ}
  {p? q? : Member → EditOf σ MemberError (Option Member)}

/-- Where the same is found to copy into, the same becomes of a member. -/
theorem answer_copyMember_congr
    (same : (p? src).answer registryOf s = (q? src).answer registryOf s) :
    (x.copyMember p? source src).answer registryOf s =
      (x.copyMember q? source src).answer registryOf s := by
  rw [copyMember, copyMember, EditOf.answer_bind, EditOf.answer_bind, same]

/-- Where nothing is found to copy into, nothing happens. -/
theorem answer_copyMember_of_absent (absent : (p? src).answer registryOf s = (.ok none, s)) :
    (x.copyMember p? source src).answer registryOf s = (.ok false, s) := by
  rw [copyMember, EditOf.answer_bind, absent]
  rfl

/-- Neither does anything where the destination's member cannot be written. -/
theorem answer_copyMember_of_unwritable {dest : Member}
    (partner : (p? src).answer registryOf s = (.ok (some dest), s))
    (fixed : dest.writable = false) :
    (x.copyMember p? source src).answer registryOf s = (.ok false, s) := by
  rw [copyMember, EditOf.answer_bind, partner]
  simp only [fixed, Bool.and_false]
  rfl

/-- Members of which the same becomes one by one are copied alike. -/
theorem answer_copyMembers_congr {members : List Member}
    (same : ∀ src ∈ members, ∀ s, (x.copyMember p? source src).answer registryOf s =
      (x.copyMember q? source src).answer registryOf s) (count : Nat) (s : σ) :
    (x.copyMembers p? source members count).answer registryOf s =
      (x.copyMembers q? source members count).answer registryOf s := by
  induction members generalizing count s with
  | nil => rfl
  | cons src rest ih =>
      obtain ⟨head, tail⟩ := List.forall_mem_cons.1 same
      rw [copyMembers, copyMembers, EditOf.answer_bind, EditOf.answer_bind, head s]
      rcases (x.copyMember q? source src).answer registryOf s with ⟨_ | assigned, after⟩
      · rfl
      · exact ih tail _ after

/-- Members are listed for a container as it stands. -/
theorem answer_membersOf (d : CatalogRef) (deep : Bool) :
    (x.membersOf d source deep).answer registryOf s =
      (((d.templatesOf (x.heap s) (x.present s source) deep).answer registryOf).map fun ts =>
        ts.map fun t => .ofTemplate t (some source), s) := by
  rw [membersOf, EditOf.answer_look, Query.answer_bind_pure]

/-- What selects one member and then the others, step by step. -/
theorem selectAmong_cons_eq_ok {m : Member} {rest members : List Member} {after : σ}
    (selected : (x.selectAmong (m :: rest)).answer registryOf s = (.ok members, after)) :
    ∃ chosen mid others, (x.selects m).answer registryOf s = (.ok chosen, mid) ∧
      (x.selectAmong rest).answer registryOf mid = (.ok others, after) ∧
      members = if chosen then m :: others else others := by
  rw [selectAmong, EditOf.answer_bind] at selected
  rcases judged : (x.selects m).answer registryOf s with ⟨_ | chosen, mid⟩
  · rw [judged] at selected
    cases selected
  · simp only [judged, EditOf.answer_bind] at selected
    rcases later : (x.selectAmong rest).answer registryOf mid with ⟨_ | others, final⟩
    · rw [later] at selected
      cases selected
    · rw [later] at selected
      cases selected
      exact ⟨chosen, mid, others, rfl, later, rfl⟩

/-- What is selected is some of what is listed, in order. -/
theorem sublist_of_selectAmong {listed members : List Member} {after : σ}
    (selected : (x.selectAmong listed).answer registryOf s = (.ok members, after)) :
    members.Sublist listed := by
  induction listed generalizing s members after with
  | nil =>
      cases selected
      exact .refl _
  | cons m rest ih =>
      obtain ⟨chosen, mid, others, -, later, rfl⟩ := selectAmong_cons_eq_ok selected
      cases chosen with
      | true => exact (ih later).cons_cons m
      | false => exact (ih later).cons m

/-- Code that only looks at members to select them leaves the state as it is. -/
theorem eq_of_selectAmong (still : ∀ m s, ((x.selects m).answer registryOf s).2 = s)
    {listed members : List Member} {after : σ}
    (selected : (x.selectAmong listed).answer registryOf s = (.ok members, after)) : after = s := by
  induction listed generalizing s members after with
  | nil =>
      cases selected
      rfl
  | cons m rest ih =>
      obtain ⟨chosen, mid, others, judged, later, -⟩ := selectAmong_cons_eq_ok selected
      have kept : mid = s := by rw [← still m s, judged]
      exact (ih later).trans kept

end CopySetting

namespace Copier

variable (c : Copier)

/-! On the heap. -/

/-- The members to copy. -/
def sources (h : Heap) (source : Value) : Query MemberError (List Member) :=
  match c.options.selector with
  | some selector => selector.findAll h source
  | none => c.catalog.membersOf h source true

/-- The member to copy into. -/
def partner? (h : Heap) (shared : Bool) (destination : Value) (src : Member) :
    Query MemberError (Option Member) :=
  if shared then pure (some (src.bind destination))
  else c.catalog.memberOf? h destination src.name true

/-- Copies one member, and says whether it was assigned. -/
def copyMember (shared : Bool) (source destination : Value) (src : Member) :
    Edit MemberError Bool :=
  c.setting.copyMember (c.findPartner? c.setting shared destination) source src

/-- Copies members one after another, and counts those that were assigned. -/
def copyMembers (shared : Bool) (source destination : Value) (members : List Member)
    (count : Nat) : Edit MemberError Nat :=
  c.setting.copyMembers (c.findPartner? c.setting shared destination) source members count

variable {c} {shared : Bool} {source destination : Value}
  {registryOf : CatalogRef → Registry} {h : Heap} {src : Member}

theorem copyMembers_nil (count : Nat) :
    c.copyMembers shared source destination [] count = pure count := rfl

theorem copyMembers_cons (src : Member) (rest : List Member) (count : Nat) :
    c.copyMembers shared source destination (src :: rest) count =
      (c.copyMember shared source destination src >>= fun assigned =>
        c.copyMembers shared source destination rest (if assigned then count + 1 else count)) := rfl

/-- The predicates of a selector do nothing but choose. -/
theorem answer_selectAmong {selector : Selector} (chosen : c.options.selector = some selector)
    (listed : List Member) :
    (c.setting.selectAmong listed).answer registryOf h =
      (.ok (listed.filter selector.accepts), h) := by
  induction listed with
  | nil => rfl
  | cons m rest ih =>
      have judged : (c.setting.selects m).answer registryOf h = (.ok (selector.accepts m), h) := by
        rw [setting, chosen]
        rfl
      rw [CopySetting.selectAmong, EditOf.answer_bind, judged, List.filter_cons]
      dsimp only
      rw [EditOf.answer_bind, ih]
      rfl

theorem answer_membersOf (d : CatalogRef) (deep : Bool) :
    (c.setting.membersOf d source deep).answer registryOf h =
      ((d.membersOf h source deep).answer registryOf, h) :=
  EditOf.answer_look registryOf _ h

theorem answer_select : (c.select c.setting source).answer registryOf h =
    ((c.sources h source).answer registryOf, h) := by
  rw [select, sources]
  cases chosen : c.options.selector with
  | none => exact answer_membersOf c.catalog true
  | some selector =>
      dsimp only
      rw [EditOf.answer_bind, answer_membersOf, Selector.findAll, Query.answer_bind_pure]
      cases (selector.catalog.membersOf h source selector.deep).answer registryOf with
      | error e => rfl
      | ok listed => exact answer_selectAmong chosen listed

/-- A copy lists members, and then copies them. -/
theorem answer_copy : (c.copy source destination).answer registryOf h =
    match (c.sources h source).answer registryOf with
    | .error e => (.error e, h)
    | .ok members =>
      (c.copyMembers (sharesTemplates source destination) source destination members
        0).answer registryOf h := by
  rw [copy, copyIn, EditOf.answer_bind, answer_select]
  cases (c.sources h source).answer registryOf with
  | error e => rfl
  | ok members => rfl

/-- What becomes of a source member, question by question. -/
theorem answer_copyMember : (c.copyMember shared source destination src).answer registryOf h =
    match (c.partner? h shared destination src).answer registryOf with
    | .error e => (.error e, h)
    | .ok none => (.ok false, h)
    | .ok (some dest) =>
      if src.readable && dest.writable then
        match (src.readIn h source).answer registryOf with
        | .error e => (.error e, h)
        | .ok value =>
          match c.offer? h ⟨src, dest, value⟩ with
          | none => (.ok false, h)
          | some offered =>
            match (dest.write h offered).answer registryOf with
            | .error e => (.error e, h)
            | .ok h => (.ok true, h)
      else (.ok false, h) := by
  have partner : (c.findPartner? c.setting shared destination src).answer registryOf h =
      ((c.partner? h shared destination src).answer registryOf, h) :=
    EditOf.answer_look registryOf _ h
  rw [copyMember, CopySetting.copyMember, EditOf.answer_bind, partner]
  cases (c.partner? h shared destination src).answer registryOf with
  | error e => rfl
  | ok found =>
      cases found with
      | none => rfl
      | some dest =>
          by_cases able : (src.readable && dest.writable) = true
          · have read : (c.setting.read src source).answer registryOf h =
                ((src.readIn h source).answer registryOf, h) := EditOf.answer_look registryOf _ h
            simp only [able, if_true, EditOf.answer_bind, read]
            cases (src.readIn h source).answer registryOf with
            | error e => rfl
            | ok value =>
                have offer : (c.setting.offer ⟨src, dest, value⟩).answer registryOf h =
                    (.ok (c.offer? h ⟨src, dest, value⟩), h) := rfl
                simp only [offer]
                cases c.offer? h ⟨src, dest, value⟩ with
                | none => rfl
                | some offered =>
                    have assign : (c.setting.assign dest offered).answer registryOf h = _ :=
                      EditOf.answer_update registryOf (fun h => dest.write h offered) h
                    simp only [EditOf.answer_bind, assign]
                    cases (dest.write h offered).answer registryOf with
                    | error e => rfl
                    | ok changed => rfl
          · simp only [able]
            rfl

theorem answer_copyMembers_append (before after : List Member) (count : Nat) (h : Heap) :
    (c.copyMembers shared source destination (before ++ after) count).answer registryOf h =
      match (c.copyMembers shared source destination before count).answer registryOf h with
      | (.ok n, h) => (c.copyMembers shared source destination after n).answer registryOf h
      | (.error e, h) => (.error e, h) := by
  induction before generalizing count h with
  | nil => rfl
  | cons src before ih =>
      simp only [List.cons_append, copyMembers_cons, EditOf.answer_bind, ih]
      rcases (c.copyMember shared source destination src).answer registryOf h with ⟨_ | assigned, h⟩
      · rfl
      · rfl

end Copier

end Memberwise
