import Memberwise.Member.Discovery

/-!
# The member cache

The members of a type do not change once a registry is built, so they are
discovered once and kept.  A cache belongs to one registry and holds only what
discovery in that registry gives; `members_fst` says that a look-up through it
answers as discovery does.  A type that cannot be discovered leaves no entry.
One of the members of a type is found through an index of their places by name.
-/

namespace Memberwise

/-- What a cache is asked for: a type, and whether inherited members count. -/
structure CacheKey where
  type : ValueType
  deep : Bool
  deriving DecidableEq

def CacheKey.discover (r : Registry) (key : CacheKey) : Except MemberError (List Template) :=
  discoverType r key.type key.deep

/-- The places of members under their names, entered one after another. -/
def placesByName (ts : List Template) : Dict Nat :=
  .ofList (ts.zipIdx.map fun (t, i) => (t.name, i))

/-- The member at the place that is kept for a name. -/
def atPlaceOf? (ts : List Template) (name : String) : Option Template :=
  ((placesByName ts).get? name).bind (ts[·]?)

/-- The entry of a key among entries. -/
def entryOf? (key : CacheKey) : List (CacheKey × List Template) → Option (List Template)
  | [] => none
  | (k, ts) :: rest => if k = key then some ts else entryOf? key rest

/-- The members of types that have been asked for. -/
structure MemberCache (r : Registry) where
  entries : List (CacheKey × List Template)
  sound : ∀ e ∈ entries, e.1.discover r = .ok e.2
  distinct : (entries.map (·.1)).Nodup

theorem mem_of_entryOf?_eq_some {key : CacheKey} {ts : List Template}
    {entries : List (CacheKey × List Template)} (h : entryOf? key entries = some ts) :
    (key, ts) ∈ entries := by
  induction entries with
  | nil => simp [entryOf?] at h
  | cons e rest ih =>
    obtain ⟨k, us⟩ := e
    simp only [entryOf?] at h
    split at h
    · rename_i hk
      cases h
      exact hk ▸ List.mem_cons_self
    · exact List.mem_cons_of_mem _ (ih h)

theorem not_mem_of_entryOf?_eq_none {key : CacheKey}
    {entries : List (CacheKey × List Template)} (h : entryOf? key entries = none) :
    key ∉ entries.map (·.1) := by
  induction entries with
  | nil => simp
  | cons e rest ih =>
    obtain ⟨k, us⟩ := e
    simp only [entryOf?] at h
    split at h
    · cases h
    · rename_i hk
      simp only [List.map_cons, List.mem_cons, not_or]
      exact ⟨fun e => hk e.symm, ih h⟩

namespace MemberCache

variable {r : Registry}

def empty : MemberCache r :=
  ⟨[], fun _ h => absurd h List.not_mem_nil, List.nodup_nil⟩

def size (c : MemberCache r) : Nat :=
  c.entries.length

def get? (c : MemberCache r) (key : CacheKey) : Option (List Template) :=
  entryOf? key c.entries

/-- The cache with an entry for a key that it does not have yet. -/
def insert (c : MemberCache r) (key : CacheKey) (ts : List Template)
    (missing : c.get? key = none) (found : key.discover r = .ok ts) : MemberCache r where
  entries := (key, ts) :: c.entries
  sound := fun e h => by
    rcases List.mem_cons.1 h with h | h
    · exact h ▸ found
    · exact c.sound e h
  distinct := List.nodup_cons.2 ⟨not_mem_of_entryOf?_eq_none missing, c.distinct⟩

/-- The members of a type, from the cache or else discovered and kept. -/
def members (c : MemberCache r) (key : CacheKey) :
    Except MemberError (List Template) × MemberCache r :=
  match missing : c.get? key with
  | some ts => (.ok ts, c)
  | none =>
    match found : key.discover r with
    | .ok ts => (.ok ts, c.insert key ts missing found)
    | .error e => (.error e, c)

theorem discover_of_get?_eq_some (c : MemberCache r) {key : CacheKey} {ts : List Template}
    (h : c.get? key = some ts) : key.discover r = .ok ts :=
  c.sound _ (mem_of_entryOf?_eq_some h)

/-- A look-up answers as discovery does. -/
theorem members_fst (c : MemberCache r) (key : CacheKey) :
    (c.members key).1 = key.discover r := by
  unfold members
  split
  · rename_i ts h
    exact (c.discover_of_get?_eq_some h).symm
  · split
    · rename_i ts h
      exact h.symm
    · rename_i e h
      exact h.symm

end MemberCache

end Memberwise
