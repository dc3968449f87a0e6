import Memberwise.Constraint.Engine
import Memberwise.Copy.Basic
import Memberwise.Proofs.Caching

/-!
# Operations one after another

Whatever is done with members, directly or by selecting, copying and validating, is
a course of questions, so a sequence of operations gives the same answers whether
members come from the caches or are discovered anew each time.  What a sequence
leaves in a cache is what it would have discovered (`Operation.grows_runAll`), and
`Kept` says this of a cache as a whole.
-/

namespace Memberwise

/-- What can be done with members.  Catalogs, members, selectors, copiers and
engines may be shared by operations in any way. -/
inductive Operation where
  | membersOfType (d : CatalogRef) (type : ValueType) (deep : Bool)
  | memberOfType (d : CatalogRef) (type : ValueType) (name : String) (deep : Bool)
  | membersOf (d : CatalogRef) (target : Value) (deep : Bool)
  | memberOf (d : CatalogRef) (target : Value) (name : String) (deep : Bool)
  /-- A look-up in the member cache itself. -/
  | lookUp (d : CatalogRef) (type : ValueType) (deep : Bool)
  | lookUpNamed (d : CatalogRef) (type : ValueType) (name : String) (deep : Bool)
  | find (s : Selector) (name : String) (target : Value)
  | findInType (s : Selector) (name : String) (type : ValueType)
  | findAll (s : Selector) (target : Value)
  | findAllInType (s : Selector) (type : ValueType)
  | findOne (s : Selector) (target : Value)
  | bind (m : Member) (target : Value)
  | unbind (m : Member)
  | read (m : Member)
  | readIn (m : Member) (target : Value)
  | write (m : Member) (value : Value)
  | writeIn (m : Member) (target value : Value)
  | copy (c : Copier) (source destination : Value)
  | construct (f : Factory) (config : EngineConfig)
  | validate (e : Engine) (target : Value)
  | validateMember (e : Engine) (m : Member)
  /-- Anything else that happens to containers in between. -/
  | change (f : Heap → Heap)

inductive Answer where
  | members (result : Except MemberError (List Member))
  | member (result : Except MemberError (Option Member))
  | templates (result : Except MemberError (List Template))
  | template (result : Except MemberError (Option Template))
  | bound (m : Member)
  | value (result : Except MemberError Value)
  | written (result : Except MemberError Unit)
  | copied (result : Except MemberError Nat)
  | engine (result : Except ConstraintError Engine)
  | report (result : Except ConstraintError Report)
  | changed

namespace Edit

variable {ε α : Type}

/-- The course of an edit, with its outcome as an answer. -/
def answered (as : Except ε α → Answer) (e : Edit ε α) (h : Heap) : Lookup (Answer × Heap) :=
  (fun p => (as p.1, p.2)) <$> StateT.run (ExceptT.run e) h

theorem discoveries_look (registryOf : CatalogRef → Registry) (as : Except ε α → Answer)
    (f : Heap → Query ε α) (h : Heap) :
    ((look f).answered as h).discoveries registryOf =
      Lookup.discoveries registryOf (ExceptT.run (f h)) := by
  rw [answered, Lookup.discoveries_map]
  refine (Lookup.discoveries_bind registryOf (ExceptT.run (f h)) _).trans ?_
  exact List.append_nil _

end Edit

namespace Operation

/-- The questions that an operation asks, and what it comes to. -/
def course : Operation → Heap → Lookup (Answer × Heap)
  | membersOfType d type deep => (Edit.look fun _ => d.membersOfType type deep).answered .members
  | memberOfType d type name deep =>
    (Edit.look fun _ => d.memberOfType? type name deep).answered .member
  | membersOf d target deep => (Edit.look fun h => d.membersOf h target deep).answered .members
  | memberOf d target name deep =>
    (Edit.look fun h => d.memberOf? h target name deep).answered .member
  | lookUp d type deep => (Edit.look fun _ => d.ask type deep).answered .templates
  | lookUpNamed d type name deep =>
    (Edit.look fun _ => return atPlaceOf? (← d.ask type deep) name).answered .template
  | find s name target => (Edit.look fun h => s.find? h name target).answered .member
  | findInType s name type => (Edit.look fun h => s.findInType? h name type).answered .member
  | findAll s target => (Edit.look fun h => s.findAll h target).answered .members
  | findAllInType s type => (Edit.look fun _ => s.findAllInType type).answered .members
  | findOne s target => (Edit.look fun h => s.findOne? h target).answered .member
  | bind m target => fun h => .done (.bound (m.bind target), h)
  | unbind m => fun h => .done (.bound m.unbound, h)
  | read m => (Edit.look fun h => m.read h).answered .value
  | readIn m target => (Edit.look fun h => m.readIn h target).answered .value
  | write m value => (m.assign value).answered .written
  | writeIn m target value => (m.assignIn target value).answered .written
  | copy c source destination => (c.copy source destination).answered .copied
  | construct f config => (Edit.look fun _ => Engine.withConfig f config).answered .engine
  | validate e target => (Edit.look fun h => e.validate h target).answered .report
  | validateMember e m => (Edit.look fun h => e.validateMember h m).answered .report
  | change f => fun h => .done (.changed, f h)

/-- Carries out an operation through the caches. -/
def run (op : Operation) (w : World) : Answer × World :=
  let ((answer, heap), catalogs) := (op.course w.heap).run w.catalogs
  (answer, ⟨heap, catalogs⟩)

/-- Carries out an operation with members discovered anew each time. -/
def rediscover (registryOf : CatalogRef → Registry) (op : Operation) (h : Heap) : Answer × Heap :=
  (op.course h).answer registryOf

/-- The types whose members an operation asks for, in order and with repeats. -/
def requests (registryOf : CatalogRef → Registry) (op : Operation) (h : Heap) :
    List (CatalogRef × CacheKey) :=
  (op.course h).discoveries registryOf

def runAll : List Operation → World → List Answer × World
  | [], w => ([], w)
  | op :: ops, w =>
    let (answer, next) := op.run w
    let (answers, last) := runAll ops next
    (answer :: answers, last)

def rediscoverAll (registryOf : CatalogRef → Registry) :
    List Operation → Heap → List Answer × Heap
  | [], h => ([], h)
  | op :: ops, h =>
    let (answer, next) := op.rediscover registryOf h
    let (answers, last) := rediscoverAll registryOf ops next
    (answer :: answers, last)

def requestsAll (registryOf : CatalogRef → Registry) :
    List Operation → Heap → List (CatalogRef × CacheKey)
  | [], _ => []
  | op :: ops, h =>
    op.requests registryOf h ++ requestsAll registryOf ops (op.rediscover registryOf h).2

variable {registryOf : CatalogRef → Registry} {w : World} {d : CatalogRef} {h : Heap}

/-! One operation. -/

theorem run_eq (op : Operation) (w : World) :
    (op.run w).1 = (op.rediscover w.catalogs.registry w.heap).1 ∧
      (op.run w).2.heap = (op.rediscover w.catalogs.registry w.heap).2 := by
  have same := Lookup.run_fst (op.course w.heap) w.catalogs
  exact ⟨congrArg Prod.fst same, congrArg Prod.snd same⟩

theorem registry_run (op : Operation) (w : World) :
    (op.run w).2.catalogs.registry = w.catalogs.registry :=
  Lookup.registry_run _ _

theorem grows_run (op : Operation) (live : d.id < w.catalogs.store.size) :
    Catalogs.Grows d (op.requests w.catalogs.registry w.heap) w.catalogs (op.run w).2.catalogs :=
  Catalogs.grows_run _ live

/-! A sequence of operations. -/

theorem runAll_append (ops more : List Operation) (w : World) :
    (runAll (ops ++ more) w).2 = (runAll more (runAll ops w).2).2 := by
  induction ops generalizing w with
  | nil => rfl
  | cons op ops ih => exact ih _

theorem runAll_eq (ops : List Operation) (w : World) :
    (runAll ops w).1 = (rediscoverAll w.catalogs.registry ops w.heap).1 ∧
      (runAll ops w).2.heap = (rediscoverAll w.catalogs.registry ops w.heap).2 := by
  induction ops generalizing w with
  | nil => exact ⟨rfl, rfl⟩
  | cons op ops ih =>
      obtain ⟨answer, heap⟩ := op.run_eq w
      obtain ⟨answers, last⟩ := ih (op.run w).2
      rw [registry_run, heap] at answers last
      exact ⟨congrArg₂ List.cons answer answers, last⟩

theorem registry_runAll (ops : List Operation) (w : World) :
    (runAll ops w).2.catalogs.registry = w.catalogs.registry := by
  induction ops generalizing w with
  | nil => rfl
  | cons op ops ih => exact (ih _).trans (op.registry_run w)

theorem grows_runAll (ops : List Operation) (live : d.id < w.catalogs.store.size) :
    Catalogs.Grows d (requestsAll w.catalogs.registry ops w.heap) w.catalogs
      (runAll ops w).2.catalogs := by
  induction ops generalizing w with
  | nil => exact Catalogs.grows_refl d _
  | cons op ops ih =>
      have here := op.grows_run (w := w) live
      have later := ih (w := (op.run w).2) (here.size ▸ live)
      rw [registry_run, (op.run_eq w).2] at later
      exact here.trans later

/-! What the direct operations ask for. -/

/-- What is asked of a catalog for a type: nothing, where members do not follow
from the type. -/
def keysFor (d : CatalogRef) (type : ValueType) (deep : Bool) : List (CatalogRef × CacheKey) :=
  if type.containerKind.any (·.isTypeLevel) then [(d, ⟨type, deep⟩)] else []

/-- What an operation asks for that goes by one type or container, or by none. -/
def direct? : Operation → Option (List (CatalogRef × CacheKey))
  | membersOfType d type deep | memberOfType d type _ deep => some (keysFor d type deep)
  | membersOf d target deep | memberOf d target _ deep => some (keysFor d target.type deep)
  | lookUp d type deep | lookUpNamed d type _ deep => some [(d, ⟨type, deep⟩)]
  | bind _ _ | unbind _ | change _ => some []
  | _ => none

end Operation

namespace Query

variable {ε α β : Type} (registryOf : CatalogRef → Registry)

theorem discoveries_bind_pure (q : Query ε α) (f : α → β) :
    Lookup.discoveries registryOf (ExceptT.run (q >>= fun a => pure (f a))) =
      Lookup.discoveries registryOf (ExceptT.run q) := by
  refine (Lookup.discoveries_bind registryOf (ExceptT.run q) _).trans ?_
  cases Lookup.answer registryOf (ExceptT.run q) with
  | error e => exact List.append_nil _
  | ok a => exact List.append_nil _

end Query

/-- A query with a look at its result asks for what the query asks for. -/
theorem Edit.discoveries_look_bind {ε α β : Type} (registryOf : CatalogRef → Registry)
    (as : Except ε β → Answer) (q : Heap → Query ε α) (f : α → β) (h : Heap) :
    ((look fun h => q h >>= fun a => pure (f a)).answered as h).discoveries registryOf =
      Lookup.discoveries registryOf (ExceptT.run (q h)) :=
  (discoveries_look registryOf as _ h).trans (Query.discoveries_bind_pure registryOf (q h) f)

namespace CatalogRef

open Operation

variable (registryOf : CatalogRef → Registry) (d : CatalogRef) (type : ValueType) (target : Value)
  (h : Heap) (name : String) (deep : Bool)

theorem discoveries_templatesOfType :
    Lookup.discoveries registryOf (ExceptT.run (d.templatesOfType type deep)) =
      keysFor d type deep := by
  cases type <;> rfl

theorem discoveries_templateOfType? :
    Lookup.discoveries registryOf (ExceptT.run (d.templateOfType? type name deep)) =
      keysFor d type deep := by
  cases type with
  | object _ => exact Query.discoveries_bind_pure _ _ _
  | tag _ => exact Query.discoveries_bind_pure _ _ _
  | _ => rfl

theorem discoveries_templatesOf :
    Lookup.discoveries registryOf (ExceptT.run (d.templatesOf h target deep)) =
      keysFor d target.type deep := by
  cases target <;> rfl

theorem discoveries_templateOf? :
    Lookup.discoveries registryOf (ExceptT.run (d.templateOf? h target name deep)) =
      keysFor d target.type deep := by
  cases target with
  | object _ => exact Query.discoveries_bind_pure _ _ _
  | tag _ => exact Query.discoveries_bind_pure _ _ _
  | _ => rfl

end CatalogRef

namespace Operation

theorem requests_of_direct? {registryOf : CatalogRef → Registry} {op : Operation}
    {keys : List (CatalogRef × CacheKey)} (direct : op.direct? = some keys) (h : Heap) :
    op.requests registryOf h = keys := by
  cases op with
  | membersOfType d type deep =>
      cases direct
      exact (Edit.discoveries_look_bind registryOf _ _ _ h).trans
        (d.discoveries_templatesOfType registryOf type deep)
  | memberOfType d type name deep =>
      cases direct
      exact (Edit.discoveries_look_bind registryOf _ _ _ h).trans
        (d.discoveries_templateOfType? registryOf type name deep)
  | membersOf d target deep =>
      cases direct
      exact (Edit.discoveries_look_bind registryOf _ _ _ h).trans
        (d.discoveries_templatesOf registryOf target h deep)
  | memberOf d target name deep =>
      cases direct
      exact (Edit.discoveries_look_bind registryOf _ _ _ h).trans
        (d.discoveries_templateOf? registryOf target h name deep)
  | lookUp d type deep =>
      cases direct
      exact Edit.discoveries_look registryOf _ _ h
  | lookUpNamed d type name deep =>
      cases direct
      exact Edit.discoveries_look_bind registryOf _ _ _ h
  | bind m target =>
      cases direct
      rfl
  | unbind m =>
      cases direct
      rfl
  | change f =>
      cases direct
      rfl
  | _ => cases direct

/-- What operations leave in the cache of a catalog. -/
structure Kept (d : CatalogRef) (w : World) (ops : List Operation) : Prop where
  /-- There is an entry for each type that can be discovered, if it was there before
  or has been asked for, and no other. -/
  mem_entries : ∀ key ts, (key, ts) ∈ (runAll ops w).2.catalogs.entries d ↔
    key.discover (w.catalogs.registry d) = .ok ts ∧
      (key ∈ (w.catalogs.entries d).map (·.1) ∨
        (d, key) ∈ requestsAll w.catalogs.registry ops w.heap)
  nodup_keys : (((runAll ops w).2.catalogs.entries d).map (·.1)).Nodup
  /-- Entries stay as they are, from any point on. -/
  stays : ∀ first later, ops = first ++ later →
    (runAll first w).2.catalogs.entries d <:+ (runAll ops w).2.catalogs.entries d
  /-- Where nothing new is asked for with success, nothing is added. -/
  settled : (∀ key, (d, key) ∈ requestsAll w.catalogs.registry ops w.heap →
      key ∈ (w.catalogs.entries d).map (·.1) ∨
        ∃ e, key.discover (w.catalogs.registry d) = .error e) →
    (runAll ops w).2.catalogs.entries d = w.catalogs.entries d
  /-- An index of an entry by name finds what a search through it finds. -/
  indexed : (w.catalogs.registry d).Built → ∀ e ∈ (runAll ops w).2.catalogs.entries d,
    ∀ name, atPlaceOf? e.2 name = e.2.find? (·.name == name)

theorem kept_runAll (w : World) (ops : List Operation) (live : d.id < w.catalogs.store.size) :
    Kept d w ops := by
  have grows := grows_runAll (w := w) ops live
  have registry := registry_runAll ops w
  have entry : ∀ key ts, (key, ts) ∈ (runAll ops w).2.catalogs.entries d ↔
      key.discover (w.catalogs.registry d) = .ok ts ∧
        (key ∈ (w.catalogs.entries d).map (·.1) ∨
          (d, key) ∈ requestsAll w.catalogs.registry ops w.heap) := by
    intro key ts
    rw [grows.mem_entries]
    constructor
    · rintro (there | ⟨asked, found⟩)
      · exact ⟨Catalogs.discover_of_mem_entries there, Or.inl (List.mem_map_of_mem there)⟩
      · exact ⟨found, Or.inr asked⟩
    · rintro ⟨found, there | asked⟩
      · obtain ⟨⟨_, us⟩, stands, rfl⟩ := List.mem_map.1 there
        have same := (Catalogs.discover_of_mem_entries stands).symm.trans found
        exact Or.inl (Except.ok.inj same ▸ stands)
      · exact Or.inr ⟨asked, found⟩
  exact
    { mem_entries := entry
      nodup_keys := Catalogs.nodup_keys _ d
      stays := by
        rintro first later rfl
        rw [runAll_append]
        have size := (grows_runAll (w := w) first live).size
        exact (grows_runAll later (size ▸ live)).kept
      settled := by
        intro nothing
        refine (grows.kept.eq_of_length_le ?_).symm
        -- No key stands twice, and no new one has come in.
        have keys : ((runAll ops w).2.catalogs.entries d).map (·.1) ⊆
            (w.catalogs.entries d).map (·.1) := by
          intro key stands
          obtain ⟨⟨_, ts⟩, entered, rfl⟩ := List.mem_map.1 stands
          obtain ⟨found, there | asked⟩ := (entry _ ts).1 entered
          · exact there
          · rcases nothing _ asked with there | ⟨e, failed⟩
            · exact there
            · rw [failed] at found
              cases found
        have short := (Catalogs.nodup_keys _ d).length_le_of_subset keys
        rwa [List.length_map, List.length_map] at short
      indexed := by
        rintro built ⟨key, ts⟩ there name
        exact atPlaceOf?_eq_find? (built.nodup_names ((entry key ts).1 there).1) name }

/-- The caches do not show in what operations answer or do, and they hold what has
been asked for.  Binding, changing containers and asking for members of containers
whose members do not follow from their type ask for nothing. -/
theorem member_cache_is_transparent (w : World) (ops : List Operation) :
    (runAll ops w).1 = (rediscoverAll w.catalogs.registry ops w.heap).1 ∧
    (runAll ops w).2.heap = (rediscoverAll w.catalogs.registry ops w.heap).2 ∧
    (runAll ops w).2.catalogs.registry = w.catalogs.registry ∧
    (∀ d : CatalogRef, d.id < w.catalogs.store.size → Kept d w ops) ∧
    ∀ (op : Operation) keys, op.direct? = some keys →
      ∀ h, op.requests w.catalogs.registry h = keys := by
  obtain ⟨answers, heap⟩ := runAll_eq ops w
  refine ⟨answers, heap, registry_runAll ops w, ?_, ?_⟩
  · intro d live
    exact kept_runAll w ops live
  · intro op keys direct h
    exact requests_of_direct? direct h

/-- Members of crates, with the inherited ones and without, of a type that is not
registered, and of a list. -/
def crateOperations : List Operation :=
  [.membersOf ⟨0⟩ (.object ⟨0, "Crate", ["Box"]⟩) true,
   .memberOfType ⟨0⟩ (.object "Crate") "label" false,
   .membersOfType ⟨0⟩ (.object "Vat") true,
   .membersOf ⟨0⟩ (.list ⟨0, .int⟩) true,
   .lookUp ⟨0⟩ (.object "Crate") true]

theorem crates_are_kept_deep_and_shallow :
    (((runAll crateOperations storageWorld).2.catalogs.entries ⟨0⟩).map (·.1)).Perm
      [⟨.object "Crate", true⟩, ⟨.object "Crate", false⟩] := by
  obtain ⟨-, -, -, kept, -⟩ := member_cache_is_transparent storageWorld crateOperations
  have crates := kept ⟨0⟩ Nat.zero_lt_one
  have asked : requestsAll storageWorld.catalogs.registry crateOperations storageWorld.heap =
      [(⟨0⟩, ⟨.object "Crate", true⟩), (⟨0⟩, ⟨.object "Crate", false⟩),
       (⟨0⟩, ⟨.object "Vat", true⟩), (⟨0⟩, ⟨.object "Crate", true⟩)] := rfl
  have before : storageWorld.catalogs.entries ⟨0⟩ = [] := rfl
  refine (List.perm_ext_iff_of_nodup crates.nodup_keys (by decide)).2 ?_
  intro key
  constructor
  · intro stands
    obtain ⟨⟨_, ts⟩, entered, rfl⟩ := List.mem_map.1 stands
    obtain ⟨found, there | requested⟩ := (crates.mem_entries _ ts).1 entered
    · rw [before] at there
      cases there
    · rw [asked] at requested
      simp only [List.mem_cons, Prod.mk.injEq, true_and, List.not_mem_nil, or_false] at requested
      rcases requested with rfl | rfl | rfl | rfl
      · exact List.mem_cons_self
      · exact List.mem_cons_of_mem _ List.mem_cons_self
      · cases found
      · exact List.mem_cons_self
  · intro crate
    have request : (⟨0⟩, key) ∈ requestsAll storageWorld.catalogs.registry crateOperations
        storageWorld.heap := by
      rw [asked]
      rcases List.mem_pair.1 crate with rfl | rfl
      · exact List.mem_cons_self
      · exact List.mem_cons_of_mem _ List.mem_cons_self
    obtain ⟨ts, found⟩ : ∃ ts, key.discover (storageWorld.catalogs.registry ⟨0⟩) = .ok ts := by
      rcases List.mem_pair.1 crate with rfl | rfl
      · exact ⟨_, rfl⟩
      · exact ⟨_, rfl⟩
    exact List.mem_map.2 ⟨(key, ts), (crates.mem_entries key ts).2 ⟨found, Or.inr request⟩, rfl⟩

end Operation

end Memberwise
