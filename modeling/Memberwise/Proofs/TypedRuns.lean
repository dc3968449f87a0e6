import Memberwise.Proofs.Copying
import Memberwise.Proofs.Operations
import Memberwise.Proofs.Selecting
import Memberwise.Proofs.Typing

/-!
# Runs over typed containers

Containers are made, used directly, and written through members and by copying, in
any order and through any references to them.  A step that is given references as they
were handed out keeps the heap sound (`Deed.Fair.sound`), also if it fails half way, so
what lists and maps hold is accepted by their types after every run
(`containers_stay_typed`).
-/

namespace Memberwise

variable {registryOf : CatalogRef → Registry} {τ : Typing} {h changed : Heap} {d : CatalogRef}
  {r : Registry} {deep : Bool} {c target v : Value} {name : String} {t : Template}

/-! ### Members that are found -/

theorem Getter.keeps_slot (τ : Typing) (name : String) : (slot name).Keeps τ := by
  intro h slots v _ typed read
  cases read
  exact typed.getD name .null

theorem Setter.keeps_slot (τ : Typing) (name : String) : (slot name).Keeps τ := by
  intro h slots v after _ typed new set
  cases set
  exact typed.insert name new

/-- A member that is merged of registered declarations goes through their functions. -/
theorem Registry.Keeps.merge {line : List TypeDefinition} (keeps : r.Keeps τ)
    (known : ∀ u ∈ line, u ∈ r.types) (name : String) :
    ((Declarations.along line name).merge name).access.Keeps τ := by
  have accessor : ∀ a, firstAccessor? line name = some a → a.getter.Keeps τ := by
    intro a first
    obtain ⟨u, hu, found⟩ := List.exists_of_findSome?_eq_some first
    exact (keeps u (known u hu)).1 a (List.mem_of_find?_eq_some found)
  have mutator : ∀ m, firstMutator? line name = some m → m.setter.Keeps τ := by
    intro m first
    obtain ⟨u, hu, found⟩ := List.exists_of_findSome?_eq_some first
    exact (keeps u (known u hu)).2 m (List.mem_of_find?_eq_some found)
  refine ⟨?_, ?_⟩
  · intro get reads
    rw [Declarations.reader_along] at reads
    cases first : firstAccessor? line name with
    | some a =>
        rw [first] at reads
        cases reads
        exact accessor a first
    | none =>
        rw [first] at reads
        obtain ⟨f, -, rfl⟩ := Option.map_eq_some_iff.1 reads
        exact Getter.keeps_slot τ name
  · intro set accepted writes
    cases first : firstMutator? line name with
    | some m =>
        rw [Declarations.writer_along_of_mutator first] at writes
        cases writes
        exact mutator m first
    | none =>
        cases field : firstField? line name with
        | none =>
            rw [Declarations.writer_along_of_neither first field] at writes
            cases writes
        | some f =>
            rw [Declarations.writer_along_of_field first field] at writes
            split at writes
            · cases writes
            · cases writes
              exact Setter.keeps_slot τ name

theorem Registry.Keeps.of_discoverType {type : ValueType} {ts : List Template} (keeps : r.Keeps τ)
    (found : discoverType r type deep = .ok ts) : ∀ t ∈ ts, t.access.Keeps τ := by
  intro t ht
  cases type with
  | object n =>
      obtain ⟨line, known, rfl⟩ := discoverObject_eq_ok found
      obtain ⟨name, -, rfl⟩ := mem_membersAlong.1 ht
      exact keeps.merge known name
  | tag n =>
      obtain ⟨definition, -, rfl⟩ := discoverTag_eq_ok found
      obtain ⟨p, -, rfl⟩ := List.mem_map.1 ht
      exact trivial
  | _ => cases found

theorem keeps_of_findInstance (found : findInstance h target name = .ok (some t)) :
    t.access.Keeps τ := by
  cases target with
  | list l =>
      have listed := listTemplate?_of_findInList? (Except.ok.inj found)
      obtain ⟨p, -, rfl⟩ := Option.map_eq_some_iff.1 listed
      exact trivial
  | map m =>
      cases found
      exact trivial
  | properties p =>
      cases found
      exact trivial
  | cursor c =>
      cases found
      exact trivial
  | _ => cases found

theorem Registry.Keeps.of_templateOf? (keeps : (registryOf d).Keeps τ)
    (found : (d.templateOf? h target name deep).answer registryOf = .ok (some t)) :
    t.access.Keeps τ := by
  rw [CatalogRef.answer_templateOf?] at found
  split at found
  · split at found
    · obtain ⟨ts, listed, among⟩ := map_eq_ok.1 found
      exact keeps.of_discoverType listed t (of_atPlaceOf? among).1
    · exact keeps_of_findInstance found
  · cases found

theorem Registry.Keeps.of_templatesOf {ts : List Template} (keeps : (registryOf d).Keeps τ)
    (found : (d.templatesOf h target deep).answer registryOf = .ok ts) (ht : t ∈ ts) :
    t.access.Keeps τ := by
  cases CatalogRef.listed_of_templatesOf found ht with
  | declared known merged =>
      obtain ⟨name, -, rfl⟩ := mem_membersAlong.1 merged
      exact keeps.merge known name
  | _ => exact trivial

theorem Template.typed_of_read (keeps : t.access.Keeps τ) (sound : h.Sound τ)
    (typed : target.Typed τ) (read : t.read h target = .ok v) : v.Typed τ := by
  rw [Template.read] at read
  split at read
  · exact keeps.typed_of_read sound typed (mapError_eq_ok.1 read)
  · cases read

/-- The owner at the end of a walk is as recorded, and so is what its member gives. -/
theorem Walks.typed {names : List String} {owner : Value} {leaf : Template}
    (walks : Walks registryOf d h deep c names owner leaf) (keeps : (registryOf d).Keeps τ)
    (sound : h.Sound τ) (typed : c.Typed τ) : owner.Typed τ ∧ leaf.access.Keeps τ := by
  induction walks with
  | here found => exact ⟨typed, keeps.of_templateOf? found⟩
  | through found read _ ih =>
      exact ih (Template.typed_of_read (keeps.of_templateOf? found) sound typed read)

/-! ### Reading and writing members -/

namespace Member

/-- A member is bound to a container that is as recorded, if to any, and goes only
through functions that give back no other references. -/
structure Keeps (registryOf : CatalogRef → Registry) (τ : Typing) (m : Member) : Prop where
  target : ∀ v, m.target = some v → v.Typed τ
  direct : ∀ access, m.route = .direct access → access.Keeps τ
  path : ∀ p, m.route = .path p → (registryOf p.catalog).Keeps τ

variable {m : Member}

theorem keeps_ofTemplate (keeps : t.access.Keeps τ) (typed : target.Typed τ) :
    (ofTemplate t (some target)).Keeps registryOf τ where
  target := by
    rintro v ⟨⟩
    exact typed
  direct := by
    rintro access ⟨⟩
    exact keeps
  path := by rintro p ⟨⟩

theorem Keeps.bind (keeps : m.Keeps registryOf τ) (typed : target.Typed τ) :
    (m.bind target).Keeps registryOf τ where
  target := by
    rintro v ⟨⟩
    exact typed
  direct := keeps.direct
  path := keeps.path

theorem Keeps.typed_of_readIn (keeps : m.Keeps registryOf τ) (sound : h.Sound τ)
    (typed : target.Typed τ) (read : (m.readIn h target).answer registryOf = .ok v) :
    v.Typed τ := by
  rw [readIn] at read
  split at read
  · rw [Query.answer_mapError, mapError_eq_ok] at read
    cases route : m.route with
    | direct access =>
        rw [route] at read
        exact (keeps.direct access route).typed_of_read sound typed read
    | path p =>
        rw [route, readRoute, MemberPath.read, Query.answer_bind] at read
        obtain ⟨⟨owner, leaf⟩, walked, read⟩ := bind_eq_ok.1 read
        rw [Query.answer_mapError, Query.answer_ofExcept, mapError_eq_ok] at read
        obtain ⟨owned, leads⟩ := (MemberPath.walks_of_walk walked).typed (keeps.path p route) sound
          typed
        exact Template.typed_of_read leads sound owned read
  · cases read

/-- Writing a value that is as recorded keeps the heap sound, wherever a path leads. -/
theorem Keeps.sound_of_writeIn (keeps : m.Keeps registryOf τ) (sound : h.Sound τ)
    (typed : target.Typed τ) (new : v.Typed τ)
    (written : (m.writeIn h target v).answer registryOf = .ok changed) : changed.Sound τ := by
  rw [writeIn] at written
  split at written
  · rw [Query.answer_mapError, mapError_eq_ok] at written
    cases route : m.route with
    | direct access =>
        rw [route] at written
        exact sound.of_writes (keeps.direct access route) typed new (Access.writes_of_write written)
    | path p =>
        rw [route, writeRoute, MemberPath.write, Query.answer_bind] at written
        obtain ⟨⟨owner, leaf⟩, walked, written⟩ := bind_eq_ok.1 written
        rw [Query.answer_mapError, Query.answer_ofExcept, mapError_eq_ok, Template.write] at written
        obtain ⟨owned, leads⟩ := (MemberPath.walks_of_walk walked).typed (keeps.path p route) sound
          typed
        split at written
        · exact sound.of_writes leads owned new (Access.writes_of_write (mapError_eq_ok.1 written))
        · cases written
  · cases written

theorem Keeps.sound_of_write (keeps : m.Keeps registryOf τ) (sound : h.Sound τ) (new : v.Typed τ)
    (written : (m.write h v).answer registryOf = .ok changed) : changed.Sound τ := by
  rw [write] at written
  split at written
  · rename_i target bound
    exact keeps.sound_of_writeIn sound (keeps.target target bound) new written
  · cases written

end Member

theorem Registry.Keeps.of_membersOf {ms : List Member} (keeps : (registryOf d).Keeps τ)
    (typed : target.Typed τ)
    (listed : (d.membersOf h target deep).answer registryOf = .ok ms) :
    ∀ m ∈ ms, m.Keeps registryOf τ := by
  intro m hm
  obtain ⟨ts, found, rfl⟩ := CatalogRef.membersOf_eq_ok listed
  obtain ⟨t, ht, rfl⟩ := List.mem_map.1 hm
  exact Member.keeps_ofTemplate (keeps.of_templatesOf found ht) typed

theorem Registry.Keeps.of_memberOf? {m : Member} (keeps : (registryOf d).Keeps τ)
    (typed : target.Typed τ)
    (found : (d.memberOf? h target name deep).answer registryOf = .ok (some m)) :
    m.Keeps registryOf τ := by
  obtain ⟨t, looked, rfl⟩ := CatalogRef.memberOf?_eq_some found
  exact Member.keeps_ofTemplate (keeps.of_templateOf? looked) typed

/-! ### Copying -/

/-- A transform that gives back no references but such as it was given or found. -/
def Transform.Keeps (τ : Typing) (f : Transform) : Prop :=
  ∀ h v, h.Sound τ → v.Typed τ → (f h v).Typed τ

namespace Copier

/-- All that a copier goes through gives back no references but such as it found. -/
structure Keeps (registryOf : CatalogRef → Registry) (τ : Typing) (c : Copier) : Prop where
  catalog : (registryOf c.catalog).Keeps τ
  selector : ∀ s, c.options.selector = some s → (registryOf s.catalog).Keeps τ
  transform : ∀ f, c.options.transform = some f → f.Keeps τ

variable {c : Copier} {shared : Bool} {source destination : Value} {src : Member}

theorem Keeps.of_sources {ms : List Member} (keeps : c.Keeps registryOf τ)
    (typed : source.Typed τ) (listed : (c.sources h source).answer registryOf = .ok ms) :
    ∀ m ∈ ms, m.Keeps registryOf τ := by
  rw [sources] at listed
  cases selected : c.options.selector with
  | none =>
      rw [selected] at listed
      exact keeps.catalog.of_membersOf typed listed
  | some s =>
      rw [selected] at listed
      obtain ⟨all, found, among⟩ := s.findAll_eq_ok listed
      intro m hm
      exact (keeps.selector s selected).of_membersOf typed found m (among m hm).1

theorem Keeps.of_partner? {dest : Member} (keeps : c.Keeps registryOf τ)
    (member : src.Keeps registryOf τ) (typed : destination.Typed τ)
    (found : (c.partner? h shared destination src).answer registryOf = .ok (some dest)) :
    dest.Keeps registryOf τ := by
  rw [partner?] at found
  cases shared with
  | true =>
      cases found
      exact member.bind typed
  | false => exact keeps.catalog.of_memberOf? typed found

/-- What is offered is null, or what the transform makes of the value. -/
theorem Keeps.typed_of_offer? {pair : CopyCandidate} (keeps : c.Keeps registryOf τ)
    (sound : h.Sound τ) (typed : pair.value.Typed τ) (offered : c.offer? h pair = some v) :
    v.Typed τ := by
  rw [offer?] at offered
  split at offered
  · cases offered
  · split at offered
    · split at offered
      · cases offered
      · cases offered
        exact .null
    · dsimp only at offered
      split at offered
      · cases offered
        cases transformed : c.options.transform with
        | none => exact typed
        | some f => exact keeps.transform f transformed h pair.value sound typed
      · cases offered

/-- Copying one member keeps the heap sound, whether it is assigned, passed over or refused. -/
theorem Keeps.sound_copyMember (keeps : c.Keeps registryOf τ) (sound : h.Sound τ)
    (member : src.Keeps registryOf τ) (origin : source.Typed τ) (goal : destination.Typed τ) :
    ((c.copyMember shared source destination src).answer registryOf h).2.Sound τ := by
  rw [answer_copyMember]
  split
  · exact sound
  · exact sound
  · rename_i dest partner
    split
    · split
      · exact sound
      · rename_i value read
        split
        · exact sound
        · rename_i offered offer
          split
          · exact sound
          · rename_i after written
            have typed := member.typed_of_readIn sound origin read
            have new := keeps.typed_of_offer? sound typed offer
            exact (keeps.of_partner? member goal partner).sound_of_write sound new written
    · exact sound

theorem Keeps.sound_copyMembers {members : List Member} (keeps : c.Keeps registryOf τ)
    (sound : h.Sound τ) (all : ∀ m ∈ members, m.Keeps registryOf τ) (origin : source.Typed τ)
    (goal : destination.Typed τ) (count : Nat) :
    ((c.copyMembers shared source destination members count).answer registryOf h).2.Sound τ := by
  induction members generalizing count h with
  | nil => exact sound
  | cons src rest ih =>
      have here : ((c.copyMember shared source destination src).answer registryOf h).2.Sound τ :=
        keeps.sound_copyMember sound (all src List.mem_cons_self) origin goal
      rw [copyMembers_cons, EditOf.answer_bind]
      split
      · rename_i assigned after step
        rw [step] at here
        exact ih here (fun m hm => all m (List.mem_cons_of_mem _ hm)) _
      · rename_i e after step
        rw [step] at here
        exact here

/-- A copy keeps the heap sound, also if it fails midway. -/
theorem Keeps.sound_copy (keeps : c.Keeps registryOf τ) (sound : h.Sound τ)
    (origin : source.Typed τ) (goal : destination.Typed τ) :
    ((c.copy source destination).answer registryOf h).2.Sound τ := by
  rw [answer_copy]
  cases listed : (c.sources h source).answer registryOf with
  | error e => exact sound
  | ok members => exact keeps.sound_copyMembers sound (keeps.of_sources origin listed) origin goal 0

end Copier

/-! ### Operations -/

/-- The references that an operation is given are as recorded, and what it goes through
gives back no others. -/
def Operation.Fair (registryOf : CatalogRef → Registry) (τ : Typing) : Operation → Prop
  | write m v => m.Keeps registryOf τ ∧ v.Typed τ
  | writeIn m target v => m.Keeps registryOf τ ∧ target.Typed τ ∧ v.Typed τ
  | copy c source destination =>
    c.Keeps registryOf τ ∧ source.Typed τ ∧ destination.Typed τ
  | change _ => False
  | _ => True

theorem Edit.rediscover_answered {ε α : Type} (as : Except ε α → Answer) (e : Edit ε α) (h : Heap) :
    (e.answered as h).answer registryOf =
      (as (e.answer registryOf h).1, (e.answer registryOf h).2) := by
  rw [answered, map_eq_pure_bind, Lookup.answer_bind]
  rfl

theorem Edit.heap_answered_look {ε α : Type} (as : Except ε α → Answer) (f : Heap → Query ε α)
    (h : Heap) : (((look f).answered as h).answer registryOf).2 = h := by
  rw [rediscover_answered, EditOf.answer_look]

theorem Edit.sound_update {ε : Type} {f : Heap → Query ε Heap} (sound : h.Sound τ)
    (written : ∀ after, (f h).answer registryOf = .ok after → after.Sound τ)
    (as : Except ε Unit → Answer) :
    (((update f).answered as h).answer registryOf).2.Sound τ := by
  rw [rediscover_answered, EditOf.answer_update]
  cases outcome : (f h).answer registryOf with
  | error e => exact sound
  | ok after => exact written after outcome

theorem Operation.Fair.sound {op : Operation} (fair : op.Fair registryOf τ) (sound : h.Sound τ) :
    (op.rediscover registryOf h).2.Sound τ := by
  cases op with
  | write m v =>
      refine Edit.sound_update sound ?_ _
      intro after written
      exact fair.1.sound_of_write sound fair.2 written
  | writeIn m target v =>
      refine Edit.sound_update sound ?_ _
      intro after written
      exact fair.1.sound_of_writeIn sound fair.2.1 fair.2.2 written
  | copy c source destination =>
      rw [rediscover, course, Edit.rediscover_answered]
      exact fair.1.sound_copy sound fair.2.1 fair.2.2
  | change f => cases fair
  | bind m target => exact sound
  | unbind m => exact sound
  | _ =>
      rw [rediscover, course, Edit.heap_answered_look]
      exact sound

/-! ### Runs -/

/-- What can be done in one step. -/
inductive Deed where
  | newObject (typeName : String) (supertypes : List String) (slots : Dict Value)
  | newList (element : ValueType) (items : List Value)
  | newMap (value : ValueType)
  | newProperties (d : Dict String)
  | newCursor (c : Cursor)
  | setSlot (o : ObjectRef) (name : String) (v : Value)
  | setItem (l : ListRef) (index : Nat) (v : Value)
  | pushItem (l : ListRef) (v : Value)
  | insertEntry (m : MapRef) (key : String) (v : Value)
  | eraseEntry (m : MapRef) (key : String)
  | setProperty (p : PropertiesRef) (key text : String)
  | eraseProperty (p : PropertiesRef) (key : String)
  | nextRow (c : CursorRef)
  /-- Another registry is taken up. -/
  | catalog (r : Registry)
  /-- Members are found, read, written, copied or validated. -/
  | operate (op : Operation)

namespace Deed

/-- The heap after a direct call, the one of before if it fails. -/
def kept (h : Heap) (result : Except AccessError Heap) : Heap :=
  match result with
  | .ok after => after
  | .error _ => h

/-- What direct calls do to a heap. -/
def change (h : Heap) : Deed → Heap
  | newObject typeName supertypes slots => (h.newObject typeName supertypes slots).2
  | newList element items => (h.newList element items).2
  | newMap value => (h.newMap value).2
  | newProperties d => (h.newProperties d).2
  | newCursor c => (h.newCursor c).2
  | setSlot o name v => h.setSlot o name v
  | setItem l index v => kept h (h.setItem l index v)
  | pushItem l v => kept h (h.pushItem l v)
  | insertEntry m key v => kept h (h.insertEntry m key v)
  | eraseEntry m key => h.eraseEntry m key
  | setProperty p key text => h.setProperty p key text
  | eraseProperty p key => h.eraseProperty p key
  | nextRow c => (h.nextRow? c).elim h (·.2)
  | catalog _ | operate _ => h

def perform (w : World) : Deed → World
  | operate op => (op.run w).2
  | catalog r => { w with catalogs := (w.catalogs.add r).2 }
  | deed => { w with heap := deed.change w.heap }

/-- A deed records the type of the list or map that it makes. -/
def typing (τ : Typing) : Deed → Typing
  | newList element _ => τ.withList element
  | newMap value => τ.withMap value
  | _ => τ

/-- The references that a deed is given are as recorded, and a list is made with items
that its element type accepts. -/
def Fair (registryOf : CatalogRef → Registry) (τ : Typing) : Deed → Prop
  | newObject _ _ slots => slots.All (Value.Typed τ)
  | newList element items => ∀ v ∈ items, v.Typed τ ∧ element.accepts v = true
  | newCursor c => c.Typed τ
  | setSlot _ _ v => v.Typed τ
  | setItem l _ v | pushItem l v => (Value.list l).Typed τ ∧ v.Typed τ
  | insertEntry m _ v => (Value.map m).Typed τ ∧ v.Typed τ
  | operate op => op.Fair registryOf τ
  | _ => True

theorem sound_kept {result : Except AccessError Heap} (sound : h.Sound τ)
    (changed : ∀ after, result = .ok after → after.Sound τ) : (kept h result).Sound τ := by
  cases result with
  | error e => exact sound
  | ok after => exact changed after rfl

/-- A step keeps the heap sound, also if what is done fails. -/
theorem Fair.sound {w : World} {deed : Deed} (fair : deed.Fair w.catalogs.registry τ)
    (sound : w.heap.Sound τ) : (deed.perform w).heap.Sound (deed.typing τ) := by
  cases deed with
  | newObject typeName supertypes slots => exact sound.newObject fair typeName supertypes
  | newList element items => exact sound.newList fair
  | newMap value => exact sound.newMap value
  | newProperties d => exact sound.newProperties d
  | newCursor c => exact sound.newCursor fair
  | setSlot o name v => exact sound.setSlots o ((sound.typed_slots o).insert name fair)
  | setItem l index v =>
      refine sound_kept sound ?_
      intro after set
      exact sound.of_setItem fair.1 fair.2 set
  | pushItem l v =>
      refine sound_kept sound ?_
      intro after pushed
      exact sound.of_pushItem fair.1 fair.2 pushed
  | insertEntry m key v =>
      refine sound_kept sound ?_
      intro after inserted
      exact sound.of_insertEntry fair.1 fair.2 inserted
  | eraseEntry m key => exact sound.eraseEntry m key
  | setProperty p key text => exact sound.setPropertyDict p _
  | eraseProperty p key => exact sound.setPropertyDict p _
  | nextRow c =>
      show ((w.heap.nextRow? c).elim w.heap (·.2)).Sound τ
      cases moved : w.heap.nextRow? c with
      | none => exact sound
      | some step => exact sound.of_nextRow? moved
  | catalog r => exact sound
  | operate op =>
      rw [perform, (op.run_eq w).2]
      exact Operation.Fair.sound fair sound

/-! One deed after another. -/

def performAll (deeds : List Deed) (w : World) : World :=
  deeds.foldl (fun w deed => deed.perform w) w

def typingAll (deeds : List Deed) (τ : Typing) : Typing :=
  deeds.foldl (fun τ deed => deed.typing τ) τ

/-- Each deed is fair at its turn. -/
def FairAll : List Deed → World → Typing → Prop
  | [], _, _ => True
  | deed :: rest, w, τ =>
    deed.Fair w.catalogs.registry τ ∧ FairAll rest (deed.perform w) (deed.typing τ)

theorem FairAll.sound {w : World} {deeds : List Deed} (fair : FairAll deeds w τ)
    (sound : w.heap.Sound τ) : (performAll deeds w).heap.Sound (typingAll deeds τ) := by
  induction deeds generalizing w τ with
  | nil => exact sound
  | cons deed rest ih => exact ih fair.2 (fair.1.sound sound)

theorem performAll_append (first later : List Deed) (w : World) :
    performAll (first ++ later) w = performAll later (performAll first w) :=
  List.foldl_append

theorem typingAll_append (first later : List Deed) (τ : Typing) :
    typingAll (first ++ later) τ = typingAll later (typingAll first τ) :=
  List.foldl_append

theorem FairAll.append {w : World} {first later : List Deed} (fair : FairAll first w τ)
    (further : FairAll later (performAll first w) (typingAll first τ)) :
    FairAll (first ++ later) w τ := by
  induction first generalizing w τ with
  | nil => exact further
  | cons deed rest ih => exact ⟨fair.1, ih fair.2 further⟩

theorem grows_typing (deed : Deed) (τ : Typing) : τ.Grows (deed.typing τ) := by
  cases deed with
  | newList element items => exact τ.grows_withList element
  | newMap value => exact τ.grows_withMap value
  | _ => exact τ.grows_refl

theorem grows_typingAll (deeds : List Deed) (τ : Typing) : τ.Grows (typingAll deeds τ) := by
  induction deeds generalizing τ with
  | nil => exact τ.grows_refl
  | cons deed rest ih => exact (deed.grows_typing τ).trans (ih (deed.typing τ))

end Deed

/-! ### Objects of registered types -/

namespace Registry

variable {f : Field} (cs : Catalogs)

/-- What a field holds in a new object is given, or made by a fair deed. -/
theorem exists_deeds_of_initialValue (sound : h.Sound τ)
    (given : ∀ v, f.initial = some v → v.Typed τ) :
    ∃ deeds, Deed.FairAll deeds ⟨h, cs⟩ τ ∧
      Deed.performAll deeds ⟨h, cs⟩ = ⟨(initialValue h f).2, cs⟩ ∧
      (initialValue h f).1.Typed (Deed.typingAll deeds τ) := by
  rw [initialValue]
  split
  · rename_i v initial
    exact ⟨[], trivial, rfl, given v initial⟩
  · split
    · cases f.type with
      | list element =>
          refine ⟨[.newList element []], ⟨by simp [Deed.Fair], trivial⟩, rfl, .list ?_⟩
          simp [Deed.typingAll, Deed.typing, Typing.withList, ← sound.listCount]
      | map value =>
          refine ⟨[.newMap value], ⟨trivial, trivial⟩, rfl, .map ?_⟩
          simp [Deed.typingAll, Deed.typing, Typing.withMap, ← sound.mapCount]
      | properties => exact ⟨[.newProperties .empty], ⟨trivial, trivial⟩, rfl, .properties _⟩
      | _ => exact ⟨[], trivial, rfl, .null⟩
    · exact ⟨[], trivial, rfl, .null⟩

theorem exists_deeds_of_fillSlots {fields : List Field} {slots : Dict Value} (sound : h.Sound τ)
    (given : ∀ f ∈ fields, ∀ v, f.initial = some v → v.Typed τ)
    (typed : slots.All (Value.Typed τ)) :
    ∃ deeds, Deed.FairAll deeds ⟨h, cs⟩ τ ∧
      Deed.performAll deeds ⟨h, cs⟩ = ⟨(fillSlots (slots, h) fields).2, cs⟩ ∧
      (fillSlots (slots, h) fields).1.All (Value.Typed (Deed.typingAll deeds τ)) := by
  induction fields generalizing slots h τ with
  | nil => exact ⟨[], trivial, rfl, typed⟩
  | cons f rest ih =>
      obtain ⟨deeds, fair, made, initial⟩ := exists_deeds_of_initialValue cs sound
        (given f List.mem_cons_self)
      -- Making a container for one field adds to the typing under which the others are filled.
      have grows := Deed.grows_typingAll deeds τ
      have there := fair.sound sound
      rw [made] at there
      have given' : ∀ f ∈ rest, ∀ v, f.initial = some v → v.Typed (Deed.typingAll deeds τ) := by
        intro f hf v initial
        exact (given f (List.mem_cons_of_mem _ hf) v initial).grow grows
      have typed' : (slots.insert f.name (initialValue h f).1).All
          (Value.Typed (Deed.typingAll deeds τ)) := by
        refine Dict.All.insert ?_ f.name initial
        intro key v found
        exact (typed key v found).grow grows
      obtain ⟨more, fair', made', filled⟩ := ih there given' typed'
      refine ⟨deeds ++ more, fair.append (made ▸ fair'), ?_, ?_⟩
      · rw [Deed.performAll_append, made, made']
        rfl
      · rw [Deed.typingAll_append]
        exact filled

/-- A new object of a registered type is made by fair deeds, if the initial values that
its type declares are as recorded. -/
theorem exists_deeds_of_instantiate {o : ObjectRef} (sound : h.Sound τ)
    (given : ∀ u ∈ r.types, ∀ f ∈ u.fields, ∀ v, f.initial = some v → v.Typed τ)
    (made : r.instantiate h name = .ok (o, changed)) :
    ∃ deeds, Deed.FairAll deeds ⟨h, cs⟩ τ ∧ Deed.performAll deeds ⟨h, cs⟩ = ⟨changed, cs⟩ := by
  rw [instantiate] at made
  split at made
  · cases made
  · rename_i d known
    split at made
    · cases made
    · have initial : ∀ f ∈ (r.lineage name).reverse.flatMap (·.fields), ∀ v,
          f.initial = some v → v.Typed τ := by
        intro f hf
        obtain ⟨u, hu, declared⟩ := List.mem_flatMap.1 hf
        exact given u (mem_types_of_mem_lineage (List.mem_reverse.1 hu)) f declared
      obtain ⟨deeds, fair, filled, typed⟩ := exists_deeds_of_fillSlots cs sound initial
        Dict.all_empty
      rcases start : fillSlots (.empty, h) ((r.lineage name).reverse.flatMap (·.fields)) with
        ⟨slots, filledHeap⟩
      simp only [start] at made filled typed
      cases made
      have last : Deed.FairAll [.newObject d.name d.supertypes slots] ⟨filledHeap, cs⟩
          (Deed.typingAll deeds τ) := ⟨typed, trivial⟩
      refine ⟨deeds ++ [.newObject d.name d.supertypes slots], fair.append (filled ▸ last), ?_⟩
      rw [Deed.performAll_append, filled]
      rfl

end Registry

/-- A run of fair deeds goes on when an object of a registered type is made: the making is
further fair deeds, so the heap stays sound, and references stay as recorded. -/
theorem runs_go_on_with_instances {w : World} {deeds : List Deed} {o : ObjectRef}
    (fair : Deed.FairAll deeds w τ) (sound : w.heap.Sound τ)
    (given : ∀ u ∈ r.types, ∀ f ∈ u.fields, ∀ v, f.initial = some v →
      v.Typed (Deed.typingAll deeds τ))
    (made : r.instantiate (Deed.performAll deeds w).heap name = .ok (o, changed)) :
    ∃ more, Deed.FairAll (deeds ++ more) w τ ∧
      (Deed.performAll (deeds ++ more) w).heap = changed ∧
      (Deed.typingAll deeds τ).Grows (Deed.typingAll (deeds ++ more) τ) ∧
      changed.Sound (Deed.typingAll (deeds ++ more) τ) := by
  obtain ⟨more, further, done⟩ := Registry.exists_deeds_of_instantiate
    (Deed.performAll deeds w).catalogs (fair.sound sound) given made
  have all : Deed.FairAll (deeds ++ more) w τ := fair.append further
  have reached : (Deed.performAll (deeds ++ more) w).heap = changed := by
    rw [Deed.performAll_append, done]
  refine ⟨more, all, reached, ?_, reached ▸ all.sound sound⟩
  rw [Deed.typingAll_append]
  exact Deed.grows_typingAll more _

/-! ### What runs keep -/

theorem Heap.Sound.existsUnique_list {id : Nat} (sound : h.Sound τ) (made : id < h.lists.size) :
    ∃! type, (Value.list ⟨id, type⟩).Typed τ := by
  have recorded := List.getElem?_eq_getElem (sound.listCount ▸ made)
  refine ⟨_, .list recorded, ?_⟩
  intro other typed
  cases typed with
  | list same => exact Option.some.inj (same.symm.trans recorded)

theorem Heap.Sound.existsUnique_map {id : Nat} (sound : h.Sound τ) (made : id < h.maps.size) :
    ∃! type, (Value.map ⟨id, type⟩).Typed τ := by
  have recorded := List.getElem?_eq_getElem (sound.mapCount ▸ made)
  refine ⟨_, .map recorded, ?_⟩
  intro other typed
  cases typed with
  | map same => exact Option.some.inj (same.symm.trans recorded)

/-- Lists and maps hold what their types accept after every run of fair deeds.  There is
one type with which a container was made, and what it holds is itself as recorded,
whoever else holds it and whatever has been done to it. -/
theorem containers_stay_typed (catalogs : Catalogs) (deeds : List Deed)
    (fair : Deed.FairAll deeds ⟨.empty, catalogs⟩ .empty) :
    let h := (Deed.performAll deeds ⟨.empty, catalogs⟩).heap
    let τ := Deed.typingAll deeds .empty
    (∀ id < h.lists.size, ∃! type, (Value.list ⟨id, type⟩).Typed τ) ∧
    (∀ id < h.maps.size, ∃! type, (Value.map ⟨id, type⟩).Typed τ) ∧
    (∀ l, (Value.list l).Typed τ → ∀ v ∈ h.items l, v.Typed τ ∧ l.elementType.accepts v = true) ∧
    ∀ m, (Value.map m).Typed τ →
      (h.entries m).All fun v => v.Typed τ ∧ m.valueType.accepts v = true := by
  intro h τ
  have sound : h.Sound τ := fair.sound .empty
  refine ⟨fun id => sound.existsUnique_list, fun id => sound.existsUnique_map, ?_, ?_⟩
  · intro l made v hv
    exact (sound.fits_items l v hv).accepted_of_list made
  · intro m made key v found
    exact (sound.fits_entries m key v found).accepted_of_map made

/-- A list of integers that stands in a list and in a map. -/
def shared : ListRef := ⟨0, .int⟩

def outer : ListRef := ⟨1, .list .int⟩

def shelf : MapRef := ⟨0, .list .int⟩

/-- The first item of what the map holds under a key. -/
def firstOnShelf : Member where
  name := "a.0"
  declaredType := .int
  declaringType := .list .int
  readable := true
  writable := true
  tags := []
  route := .path ⟨⟨0⟩, ["a", "0"], true⟩
  target := none

/-- The shared list is filled, refuses a text, and is written through the map; the map is
written from the outer list. -/
def sharing : List Deed :=
  [.newList .int [], .newList (.list .int) [.list shared], .newMap (.list .int),
   .insertEntry shelf "a" (.list shared), .pushItem shared (.int 7),
   .pushItem shared (.string "x"), .operate (.writeIn firstOnShelf (.map shelf) (.int 3)),
   .operate (.copy ⟨⟨0⟩, .plain⟩ (.list outer) (.map shelf))]

theorem fair_sharing : Deed.FairAll sharing ⟨.empty, .empty⟩ .empty := by
  have nothing : ∀ τ, Registry.empty.Keeps τ := by
    intro τ u hu
    cases hu
  have items : ∀ v ∈ [Value.list shared],
      v.Typed (.withList .empty .int) ∧ (ValueType.list .int).accepts v = true := by
    intro v hv
    rw [List.mem_singleton.1 hv]
    exact ⟨.list rfl, rfl⟩
  refine ⟨?_, items, trivial, ⟨.map rfl, .list rfl⟩, ⟨.list rfl, .int 7⟩, ⟨.list rfl, .string "x"⟩,
    ⟨⟨?_, ?_, ?_⟩, .map rfl, .int 3⟩, ⟨⟨nothing _, ?_, ?_⟩, .list rfl, .map rfl⟩, trivial⟩
  · intro v hv
    cases hv
  · intro v bound
    cases bound
  · intro access route
    cases route
  · intro p _
    exact nothing _
  · intro s selected
    cases selected
  · intro f transformed
    cases transformed

theorem shared_list_keeps_its_type :
    let h := (Deed.performAll sharing ⟨.empty, .empty⟩).heap
    h.items shared = [.int 3] ∧ h.items outer = [.list shared] ∧
      (h.entries shelf).get? "0" = some (.list shared) ∧
      ∀ v ∈ h.items shared, shared.elementType.accepts v = true := by
  obtain ⟨-, -, lists, -⟩ := containers_stay_typed .empty sharing fair_sharing
  refine ⟨rfl, rfl, rfl, ?_⟩
  intro v hv
  exact (lists shared (.list rfl) v hv).2

end Memberwise
