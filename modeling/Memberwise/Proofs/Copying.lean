import Mathlib.Data.List.Induction
import Memberwise.Proofs.Courses
import Memberwise.Proofs.Writing
import Memberwise.Registry.Builder

/-!
# Copying

A copy must not fail because two members of one name have incompatible types.
It decides by the declared type of the destination's member, which is the type
that is read, whereas a write is checked against the write path.  So the promise
is kept exactly where the two agree on every value that comes along
(`copy_keeps_promise_iff`), and a mutator that accepts something else than its
accessor returns breaks it.
-/

namespace Memberwise

mutual

/-- Whether an error comes from a value that does not fit. -/
def MemberError.fromMismatch : MemberError → Bool
  | .handling _ cause => cause.fromMismatch
  | _ => false

def Fault.fromMismatch : Fault → Bool
  | .access (.typeMismatch _ _) => true
  | .member error => error.fromMismatch
  | _ => false

end

/-- Whether the type of a container is registered. -/
def Registry.knows (r : Registry) : Value → Bool
  | .object o => (r.type? o.typeName).isSome
  | .tag t => (r.tag? t.name).isSome
  | .list _ | .map _ | .properties _ | .cursor _ => true
  | _ => false

namespace Member

/-- Whether the write path of a member takes a value into a container. -/
def admits (m : Member) (target value : Value) : Bool :=
  match m.route with
  | .direct access => access.admits target value
  | .path _ => false

def placed (m : Member) (h : Heap) (target : Value) : Bool :=
  match m.route with
  | .direct access => access.placed h target
  | .path _ => true

def SetterFails (m : Member) (h : Heap) (target value : Value) : Prop :=
  match m.route with
  | .direct access => access.SetterFails h target value
  | .path _ => False

end Member

namespace Copier

variable (c : Copier) (w : World) (source destination : Value)

/-- What becomes of one source member, with a heap in place of the world's. -/
def step (h : Heap) (src : Member) : Except MemberError Bool × World :=
  (c.copyMember (sharesTemplates source destination) source destination src).run ⟨h, w.catalogs⟩

/-- What becomes of some source members. -/
def steps (members : List Member) : Except MemberError Nat × World :=
  (c.copyMembers (sharesTemplates source destination) source destination members 0).run w

/-- The copy comes to a source member with a heap, after those before it. -/
def ComesTo (h : Heap) (src : Member) : Prop :=
  ∃ before after count,
    (Query.run w fun h => c.sources h source).1 = .ok (before ++ src :: after) ∧
      (c.steps w source destination before).1 = .ok count ∧
      (c.steps w source destination before).2.heap = h

/-- The copy comes to a pair with a heap: the source is read, and the
destination can be written. -/
structure Pairs (h : Heap) (pair : CopyCandidate) : Prop where
  comesTo : c.ComesTo w source destination h pair.source
  partner : (Query.run ⟨h, w.catalogs⟩ fun h =>
    c.partner? h (sharesTemplates source destination) destination pair.source).1 =
      .ok (some pair.destination)
  readable : pair.source.readable = true
  writable : pair.destination.writable = true
  read : (Query.run ⟨h, w.catalogs⟩ fun h => pair.source.readIn h source).1 = .ok pair.value

/-- Nulls that the options leave out. -/
def leavesOut (value : Value) : Bool :=
  c.options.skipNulls && value.isNull

/-- Nothing but the types of values can keep the copy from going through. -/
structure Ready : Prop where
  transform : c.options.transform = none
  filter : c.options.filter = none
  selector : c.options.selector = none
  listed : ∃ members, (Query.run w fun h => c.sources h source).1 = .ok members
  known : (w.catalogs.registry c.catalog).knows destination = true
  reads : ∀ h src, c.ComesTo w source destination h src → src.readable = true →
    ∃ v, (Query.run ⟨h, w.catalogs⟩ fun h => src.readIn h source).1 = .ok v
  sets : ∀ h pair, c.Pairs w source destination h pair →
    pair.destination.admits destination pair.value = true →
    ¬pair.destination.SetterFails h destination pair.value

/-- The copy does not fail for types, and assigns just what write paths accept. -/
structure Promise : Prop where
  neverMismatches : ∀ e, ((c.copy source destination).run w).1 = .error e →
    e.fromMismatch = false
  skips : ∀ h pair, c.Pairs w source destination h pair →
    pair.destination.admits destination pair.value = false →
    (c.step w source destination h pair.source).1 = .ok false ∧
      (c.step w source destination h pair.source).2.heap = h
  assigns : ∀ h pair, c.Pairs w source destination h pair → c.leavesOut pair.value = false →
    pair.destination.admits destination pair.value = true →
    (c.step w source destination h pair.source).1 = .ok true ∧
      ((pair.destination.assign pair.value).run ⟨h, w.catalogs⟩).1 = .ok () ∧
      (c.step w source destination h pair.source).2.heap =
        ((pair.destination.assign pair.value).run ⟨h, w.catalogs⟩).2.heap

/-- Declared types accept just what write paths accept, and what is accepted has a place. -/
def Agrees : Prop :=
  ∀ h pair, c.Pairs w source destination h pair → c.leavesOut pair.value = false →
    pair.destination.declaredType.accepts pair.value =
      pair.destination.admits destination pair.value ∧
    (pair.destination.admits destination pair.value = true →
      pair.destination.placed h destination = true)

variable {c w source destination} {registryOf : CatalogRef → Registry} {shared : Bool} {h : Heap}
  {src : Member} {pair : CopyCandidate}

/-- Without a transform and a filter the declared type decides, nulls that are
left out aside. -/
theorem offer?_plain (transform : c.options.transform = none) (filter : c.options.filter = none) :
    c.offer? h pair = if c.leavesOut pair.value then none
      else if pair.destination.declaredType.accepts pair.value then some pair.value else none := by
  unfold offer? leavesOut
  rw [transform, filter]
  cases null : pair.value.isNull with
  | false =>
      rw [Bool.and_false]
      rfl
  | true =>
      have value : pair.value = .null := by
        cases v : pair.value with
        | null => rfl
        | _ => simp [v, Value.isNull] at null
      simp [value, ValueType.accepts_null]

theorem exists_template_of_sources (selector : c.options.selector = none) {members : List Member}
    (listed : (c.sources h source).answer registryOf = .ok members) (hsrc : src ∈ members) :
    ∃ t : Template, src = .ofTemplate t (some source) ∧ t.Honest := by
  rw [sources, selector] at listed
  obtain ⟨ts, found, rfl⟩ := CatalogRef.membersOf_eq_ok listed
  obtain ⟨t, ht, rfl⟩ := List.mem_map.1 hsrc
  exact ⟨t, rfl, (CatalogRef.provided_of_templatesOf found t ht).honest⟩

/-- The partner of a listed member is bound to the destination and honest. -/
theorem exists_template_of_partner {t : Template} (honest : t.Honest) {dest : Member}
    (found : (c.partner? h shared destination (.ofTemplate t (some source))).answer registryOf =
      .ok (some dest)) : ∃ t : Template, dest = .ofTemplate t (some destination) ∧ t.Honest := by
  cases shared with
  | true =>
      cases found
      exact ⟨t, rfl, honest⟩
  | false =>
      obtain ⟨u, looked, rfl⟩ := CatalogRef.memberOf?_eq_some found
      exact ⟨u, rfl, (CatalogRef.provided_of_templateOf? looked).honest⟩

theorem answer_write {t : Template} {target value : Value} (writable : t.writable = true) :
    ((Member.ofTemplate t (some target)).write h value).answer registryOf =
      (t.access.write h target value).mapError (.handling t.name) := by
  simp only [Member.write, Member.writeIn, Member.ofTemplate, writable, if_true,
    Query.answer_mapError]
  rfl

section Steps

variable (ready : c.Ready w source destination) (hp : c.Pairs w source destination h pair)

include ready hp

/-- The destination's member is bound, with a way to write it. -/
theorem Pairs.exists_template : ∃ t : Template,
    pair.destination = .ofTemplate t (some destination) ∧ t.access.hasWritePath = true := by
  obtain ⟨before, after, count, listed, -⟩ := hp.comesTo
  rw [Query.run_fst] at listed
  obtain ⟨s, hs, honest⟩ := exists_template_of_sources ready.selector listed
    (List.mem_append_right _ List.mem_cons_self)
  have partner := hp.partner
  rw [Query.run_fst, hs] at partner
  obtain ⟨t, ht, honest⟩ := exists_template_of_partner honest partner
  have writable := hp.writable
  rw [ht] at writable
  exact ⟨t, ht, honest writable⟩

/-- What becomes of a pair: nothing if it is left out or declined, and else what
the write path makes of it. -/
theorem Pairs.answer_step :
    (c.copyMember (sharesTemplates source destination) source destination
      pair.source).answer w.catalogs.registry h =
    if c.leavesOut pair.value then (.ok false, h)
    else if pair.destination.declaredType.accepts pair.value then
      match (pair.destination.write h pair.value).answer w.catalogs.registry with
      | .error e => (.error e, h)
      | .ok changed => (.ok true, changed)
    else (.ok false, h) := by
  have partner := hp.partner
  have read := hp.read
  rw [Query.run_fst] at partner read
  have able : (pair.source.readable && pair.destination.writable) = true := by
    rw [hp.readable, hp.writable]
    rfl
  rw [answer_copyMember, partner]
  simp only [able, if_true, read]
  rw [offer?_plain ready.transform ready.filter]
  cases c.leavesOut pair.value with
  | true => rfl
  | false =>
      cases pair.destination.declaredType.accepts pair.value with
      | true => rfl
      | false => rfl

theorem Pairs.write_error (refused : pair.destination.admits destination pair.value = false ∨
    pair.destination.placed h destination = false) :
    ∃ e, (pair.destination.write h pair.value).answer w.catalogs.registry = .error e := by
  obtain ⟨t, ht, path⟩ := hp.exists_template ready
  have writable := hp.writable
  rw [ht] at writable refused ⊢
  rw [answer_write writable]
  cases place : t.access.placed h destination with
  | false =>
      obtain ⟨e, failed⟩ := Access.write_of_not_placed pair.value place
      rw [failed]
      exact ⟨_, rfl⟩
  | true =>
      have declined : t.access.admits destination pair.value = false :=
        refused.resolve_right (by simp [Member.placed, Member.ofTemplate, place])
      obtain ⟨expected, actual, failed⟩ := Access.write_of_not_admits path place declined
      rw [failed]
      exact ⟨_, rfl⟩

theorem Pairs.write_ok (admitted : pair.destination.admits destination pair.value = true)
    (place : pair.destination.placed h destination = true) :
    ∃ after, (pair.destination.write h pair.value).answer w.catalogs.registry = .ok after := by
  have works := ready.sets h pair hp admitted
  obtain ⟨t, ht, path⟩ := hp.exists_template ready
  have writable := hp.writable
  rw [ht] at writable admitted place works ⊢
  obtain ⟨after, written⟩ := Access.write_of_admits admitted place works
  rw [answer_write writable, written]
  exact ⟨after, rfl⟩

theorem Pairs.step_of_agrees (agrees : c.Agrees w source destination) :
    ∃ assigned after, (c.copyMember (sharesTemplates source destination) source destination
      pair.source).answer w.catalogs.registry h = (.ok assigned, after) := by
  rw [hp.answer_step ready]
  cases out : c.leavesOut pair.value with
  | true => exact ⟨false, h, rfl⟩
  | false =>
      obtain ⟨same, place⟩ := agrees h pair hp out
      cases admitted : pair.destination.admits destination pair.value with
      | false =>
          rw [same, admitted]
          exact ⟨false, h, rfl⟩
      | true =>
          obtain ⟨after, written⟩ := hp.write_ok ready admitted (place admitted)
          rw [same, admitted, written]
          exact ⟨true, after, rfl⟩

end Steps

theorem exists_partner (c : Copier) (registryOf : CatalogRef → Registry) (h : Heap)
    (shared : Bool) (src : Member) (known : (registryOf c.catalog).knows destination = true) :
    ∃ found, (c.partner? h shared destination src).answer registryOf = .ok found := by
  cases shared with
  | true => exact ⟨_, rfl⟩
  | false =>
      show ∃ found, (c.catalog.memberOf? h destination src.name true).answer registryOf = .ok found
      rw [CatalogRef.answer_memberOf?, CatalogRef.answer_templateOf?]
      cases destination with
      | object o =>
          obtain ⟨d, hd⟩ := Option.isSome_iff_exists.1 known
          simp only [Value.containerKind, ContainerKind.isTypeLevel, if_true, Value.type,
            discoverType, discoverObject, hd]
          exact ⟨_, rfl⟩
      | tag t =>
          obtain ⟨d, hd⟩ := Option.isSome_iff_exists.1 known
          simp only [Value.containerKind, ContainerKind.isTypeLevel, if_true, Value.type,
            discoverType, discoverTag, hd]
          exact ⟨_, rfl⟩
      | list l => exact ⟨_, rfl⟩
      | map m => exact ⟨_, rfl⟩
      | properties p => exact ⟨_, rfl⟩
      | cursor k => exact ⟨_, rfl⟩
      | _ => cases known

/-- Where one member is listed, the copy comes to it at once. -/
theorem comesTo_singleton {m : Member}
    (listed : (Query.run w fun h => c.sources h source).1 = .ok [m])
    (comes : c.ComesTo w source destination h src) : h = w.heap ∧ src = m := by
  obtain ⟨before, after, count, again, -, rfl⟩ := comes
  rw [listed] at again
  cases before with
  | nil =>
      cases Except.ok.inj again
      refine ⟨?_, rfl⟩
      rw [steps, Edit.heap_run]
      rfl
  | cons first before => simp at again

section Runs

variable (ready : c.Ready w source destination)

include ready

/-- A source member that the copy comes to does not end it, if types agree. -/
theorem ComesTo.step_of_agrees (agrees : c.Agrees w source destination)
    (comes : c.ComesTo w source destination h src) :
    ∃ assigned after, (c.copyMember (sharesTemplates source destination) source destination
      src).answer w.catalogs.registry h = (.ok assigned, after) := by
  obtain ⟨found, partner⟩ := exists_partner c w.catalogs.registry h
    (sharesTemplates source destination) src ready.known
  cases found with
  | none =>
      refine ⟨false, h, ?_⟩
      rw [answer_copyMember, partner]
  | some dest =>
      by_cases able : (src.readable && dest.writable) = true
      · obtain ⟨readable, writable⟩ := Bool.and_eq_true_iff.1 able
        obtain ⟨v, read⟩ := ready.reads h src comes readable
        have hp : c.Pairs w source destination h ⟨src, dest, v⟩ :=
          ⟨comes, by rw [Query.run_fst]; exact partner, readable, writable, read⟩
        obtain ⟨assigned, after, stepped⟩ := hp.step_of_agrees ready agrees
        exact ⟨assigned, after, stepped⟩
      · refine ⟨false, h, ?_⟩
        rw [answer_copyMember, partner]
        simp only [able]
        rfl

/-- Every beginning of the course is gone through, if types agree. -/
theorem Ready.prefix_of_agrees (agrees : c.Agrees w source destination) {before after : List Member}
    (listed : (Query.run w fun h => c.sources h source).1 = .ok (before ++ after)) :
    ∃ count h, (c.copyMembers (sharesTemplates source destination) source destination before
      0).answer w.catalogs.registry w.heap = (.ok count, h) := by
  induction before using List.reverseRecOn generalizing after with
  | nil => exact ⟨0, w.heap, rfl⟩
  | append_singleton before src ih =>
      rw [List.append_assoc] at listed
      obtain ⟨count, h, done⟩ := ih listed
      have comes : c.ComesTo w source destination h src := by
        refine ⟨before, after, count, listed, ?_, ?_⟩
        · rw [steps, Edit.run_fst, done]
        · rw [steps, Edit.heap_run, done]
      obtain ⟨assigned, h', stepped⟩ := comes.step_of_agrees ready agrees
      rw [answer_copyMembers_append, done]
      refine ⟨if assigned then count + 1 else count, h', ?_⟩
      simp only [copyMembers_cons, copyMembers_nil, EditOf.answer_bind, stepped, EditOf.answer_pure]

theorem Ready.run_of_agrees (agrees : c.Agrees w source destination) :
    ∃ count, ((c.copy source destination).run w).1 = .ok count := by
  obtain ⟨members, listed⟩ := ready.listed
  rw [← List.append_nil members] at listed
  obtain ⟨count, h, done⟩ := ready.prefix_of_agrees agrees listed
  rw [List.append_nil, Query.run_fst] at listed
  refine ⟨count, ?_⟩
  rw [Edit.run_fst, answer_copy, listed]
  simp only [done]

theorem Ready.promise_of_agrees (agrees : c.Agrees w source destination) :
    c.Promise w source destination where
  neverMismatches := by
    intro e raised
    obtain ⟨count, done⟩ := ready.run_of_agrees agrees
    rw [raised] at done
    cases done
  skips := by
    intro h pair hp refused
    rw [step, Edit.run_fst, Edit.heap_run, hp.answer_step ready]
    cases out : c.leavesOut pair.value with
    | true => exact ⟨rfl, rfl⟩
    | false =>
        rw [(agrees h pair hp out).1, refused]
        exact ⟨rfl, rfl⟩
  assigns := by
    intro h pair hp out admitted
    obtain ⟨same, place⟩ := agrees h pair hp out
    obtain ⟨after, written⟩ := hp.write_ok ready admitted (place admitted)
    rw [step, Edit.run_fst, Edit.heap_run, hp.answer_step ready, Edit.run_fst, Edit.heap_run,
      Member.assign, EditOf.answer_update]
    rw [out, same, admitted, written]
    exact ⟨rfl, rfl, rfl⟩

theorem Ready.agrees_of_promise (promise : c.Promise w source destination) :
    c.Agrees w source destination := by
  intro h pair hp out
  have stepped := hp.answer_step ready
  rw [out] at stepped
  cases admitted : pair.destination.admits destination pair.value with
  | false =>
      have skipped := (promise.skips h pair hp admitted).1
      rw [step, Edit.run_fst, stepped] at skipped
      refine ⟨?_, fun h => Bool.noConfusion h⟩
      cases declared : pair.destination.declaredType.accepts pair.value with
      | false => rfl
      | true =>
          obtain ⟨e, failed⟩ := hp.write_error ready (Or.inl admitted)
          rw [declared, failed] at skipped
          cases skipped
  | true =>
      have assigned := (promise.assigns h pair hp out admitted).1
      rw [step, Edit.run_fst, stepped] at assigned
      cases declared : pair.destination.declaredType.accepts pair.value with
      | false =>
          rw [declared] at assigned
          cases assigned
      | true =>
          refine ⟨rfl, fun _ => ?_⟩
          cases place : pair.destination.placed h destination with
          | true => rfl
          | false =>
              obtain ⟨e, failed⟩ := hp.write_error ready (Or.inr place)
              rw [declared, failed] at assigned
              cases assigned

end Runs

end Copier

/-- A copy keeps its promise exactly if, for every pair that it comes to, the
declared type of the destination accepts the value just in case the write path
does and has a place for it.  It then goes through without any error. -/
theorem copy_keeps_promise_iff {c : Copier} {w : World} {source destination : Value}
    (ready : c.Ready w source destination) :
    (c.Promise w source destination ↔ c.Agrees w source destination) ∧
      (c.Agrees w source destination →
        ∃ count, ((c.copy source destination).run w).1 = .ok count) :=
  ⟨⟨ready.agrees_of_promise, ready.promise_of_agrees⟩, ready.run_of_agrees⟩

/-- A note in text, and a gauge that reads as text but is set by number. -/
def office : List Definition :=
  [.type ((TypeDraft.plain "Note").withField (.plain "x" .string)),
   .type (((TypeDraft.plain "Gauge").withAccessor (.ofSlot "x" .string)).withMutator
     (.ofSlot "x" .int))]

def note : Value := .object ⟨0, "Note", []⟩

def gauge : Value := .object ⟨1, "Gauge", []⟩

def officeWorld : World :=
  ⟨{ Heap.empty with objects :=
      ⟨#[.ofList [("x", .string "abc")], .ofList [("x", .int 5)]]⟩ },
   (Catalogs.empty.add (Builder.empty.declareAll office).build).2⟩

def officeCopier : Copier := ⟨⟨0⟩, .plain⟩

theorem ready_office {source destination : Value}
    (known : (officeWorld.catalogs.registry ⟨0⟩).knows destination = true) {m dest : Member}
    {v : Value}
    (listed : (Query.run officeWorld fun h => officeCopier.sources h source).1 = .ok [m])
    (read : (Query.run officeWorld fun h => m.readIn h source).1 = .ok v)
    (partner : (Query.run officeWorld fun h => officeCopier.partner? h
      (Copier.sharesTemplates source destination) destination m).1 = .ok (some dest))
    (sets : ¬dest.SetterFails officeWorld.heap destination v) :
    officeCopier.Ready officeWorld source destination where
  transform := rfl
  filter := rfl
  selector := rfl
  listed := ⟨_, listed⟩
  known := known
  reads := by
    intro h src comes _
    obtain ⟨rfl, rfl⟩ := Copier.comesTo_singleton listed comes
    exact ⟨v, read⟩
  sets := by
    intro h pair hp _
    obtain ⟨rfl, e⟩ := Copier.comesTo_singleton listed hp.comesTo
    have found := hp.partner
    have value := hp.read
    rw [e] at found value
    cases found.symm.trans partner
    cases value.symm.trans read
    exact sets

/-- The gauge holds a number, which is no text on either way into a note. -/
theorem copy_of_gauge_keeps_promise :
    officeCopier.Promise officeWorld gauge note ∧
      ∃ count, ((officeCopier.copy gauge note).run officeWorld).1 = .ok count := by
  have ready : officeCopier.Ready officeWorld gauge note :=
    ready_office rfl rfl rfl rfl Access.not_setterFails_slot
  have agrees : officeCopier.Agrees officeWorld gauge note := by
    rintro h ⟨src, dest, v⟩ hp -
    obtain ⟨rfl, e⟩ := Copier.comesTo_singleton rfl hp.comesTo
    have found := hp.partner
    have value := hp.read
    rw [e] at found value
    cases found
    cases value
    exact ⟨rfl, fun _ => rfl⟩
  obtain ⟨promise, done⟩ := copy_keeps_promise_iff ready
  exact ⟨promise.2 agrees, done agrees⟩

/-- The text of a note is accepted by what the gauge reads, and refused by what sets it. -/
theorem copy_of_note_breaks_promise :
    officeCopier.Ready officeWorld note gauge ∧
      ((officeCopier.copy note gauge).run officeWorld).1 =
        .error (.handling "x" (.access (.typeMismatch "Int" "String"))) ∧
      ¬officeCopier.Promise officeWorld note gauge := by
  have raised : ((officeCopier.copy note gauge).run officeWorld).1 =
      .error (.handling "x" (.access (.typeMismatch "Int" "String"))) := rfl
  refine ⟨ready_office rfl rfl rfl rfl Access.not_setterFails_slot, raised, ?_⟩
  intro promise
  exact Bool.noConfusion (promise.neverMismatches _ raised)

end Memberwise
