/-!
# Ordered dictionaries

Finite maps from strings, kept as pairs in ascending order of their keys.
`Pairs` holds the operations on plain lists of pairs, which need no order for
their laws of look-up; `Dict` adds the order to the type, so that its keys are
pairwise different and come out sorted.  Strings are ordered by code points,
which is also the order of their UTF-8 bytes.
-/

namespace Memberwise

namespace Pairs

variable {α : Type}

def get? (key : String) : List (String × α) → Option α
  | [] => none
  | (k, v) :: rest => if k = key then some v else get? key rest

/-- Puts a value before the first greater key, or over the value of the same key. -/
def insert (key : String) (value : α) : List (String × α) → List (String × α)
  | [] => [(key, value)]
  | (k, v) :: rest =>
    if k = key then (key, value) :: rest
    else if key < k then (key, value) :: (k, v) :: rest
    else (k, v) :: insert key value rest

def erase (key : String) (ps : List (String × α)) : List (String × α) :=
  ps.filter fun p => !(p.1 == key)

/-- Inserts pairs in order, so that the last one of a key stays. -/
def ofList (ps : List (String × α)) : List (String × α) :=
  ps.foldl (fun acc p => insert p.1 p.2 acc) []

def Ascending (ps : List (String × α)) : Prop :=
  ps.Pairwise fun p q => p.1 < q.1

theorem get?_nil (key : String) : get? key ([] : List (String × α)) = none := rfl

theorem get?_insert_self (key : String) (value : α) (ps : List (String × α)) :
    get? key (insert key value ps) = some value := by
  induction ps with
  | nil => simp [insert, get?]
  | cons p rest ih =>
    obtain ⟨k, v⟩ := p
    simp only [insert]
    split
    · simp [get?]
    · split
      · simp [get?]
      · rename_i h _
        simp [get?, h, ih]

theorem get?_insert_of_ne (key other : String) (value : α) (ps : List (String × α))
    (h : other ≠ key) : get? other (insert key value ps) = get? other ps := by
  induction ps with
  | nil => simp [insert, get?, Ne.symm h]
  | cons p rest ih =>
    obtain ⟨k, v⟩ := p
    simp only [insert]
    split
    · rename_i hk
      subst hk
      simp [get?, Ne.symm h]
    · split
      · simp [get?, Ne.symm h]
      · simp [get?, ih]

theorem get?_erase_self (key : String) (ps : List (String × α)) :
    get? key (erase key ps) = none := by
  induction ps with
  | nil => rfl
  | cons p rest ih =>
    obtain ⟨k, v⟩ := p
    by_cases h : k = key
    · simpa [erase, h] using ih
    · have : erase key ((k, v) :: rest) = (k, v) :: erase key rest := by simp [erase, h]
      simp [this, get?, h, ih]

theorem get?_erase_of_ne (key other : String) (ps : List (String × α)) (h : other ≠ key) :
    get? other (erase key ps) = get? other ps := by
  induction ps with
  | nil => rfl
  | cons p rest ih =>
    obtain ⟨k, v⟩ := p
    by_cases hk : k = key
    · subst hk
      have : erase k ((k, v) :: rest) = erase k rest := by simp [erase]
      rw [this, ih, get?, if_neg (Ne.symm h)]
    · have : erase key ((k, v) :: rest) = (k, v) :: erase key rest := by simp [erase, hk]
      simp [this, get?, ih]

theorem mem_of_mem_insert (key : String) (value : α) (ps : List (String × α))
    (p : String × α) (h : p ∈ insert key value ps) : p = (key, value) ∨ p ∈ ps := by
  induction ps with
  | nil => simpa [insert] using h
  | cons q rest ih =>
    obtain ⟨k, v⟩ := q
    simp only [insert] at h
    split at h
    · rcases List.mem_cons.1 h with h | h
      · exact Or.inl h
      · exact Or.inr (List.mem_cons_of_mem _ h)
    · split at h
      · rcases List.mem_cons.1 h with h | h
        · exact Or.inl h
        · exact Or.inr h
      · rcases List.mem_cons.1 h with h | h
        · exact Or.inr (h ▸ List.mem_cons_self)
        · rcases ih h with h | h
          · exact Or.inl h
          · exact Or.inr (List.mem_cons_of_mem _ h)

theorem ascending_nil : Ascending ([] : List (String × α)) := List.Pairwise.nil

theorem ascending_insert (key : String) (value : α) (ps : List (String × α))
    (h : Ascending ps) : Ascending (insert key value ps) := by
  induction ps with
  | nil => exact List.pairwise_singleton _ _
  | cons p rest ih =>
    obtain ⟨k, v⟩ := p
    obtain ⟨hk, hrest⟩ := List.pairwise_cons.1 h
    simp only [insert]
    split
    · rename_i e
      subst e
      exact List.pairwise_cons.2 ⟨hk, hrest⟩
    · split
      · rename_i lt
        refine List.pairwise_cons.2 ⟨fun q hq => ?_, h⟩
        rcases List.mem_cons.1 hq with e | hq
        · exact e ▸ lt
        · exact String.lt_trans lt (hk q hq)
      · rename_i ne nlt
        refine List.pairwise_cons.2 ⟨fun q hq => ?_, ih hrest⟩
        rcases mem_of_mem_insert key value rest q hq with e | hq
        · exact e ▸ Std.lt_of_le_of_ne (String.not_lt.1 nlt) ne
        · exact hk q hq

theorem ascending_erase (key : String) (ps : List (String × α)) (h : Ascending ps) :
    Ascending (erase key ps) :=
  List.Pairwise.filter _ h

theorem ascending_ofList (ps : List (String × α)) : Ascending (ofList ps) := by
  suffices ∀ acc, Ascending acc → Ascending (ps.foldl (fun acc p => insert p.1 p.2 acc) acc) from
    this [] ascending_nil
  induction ps with
  | nil => exact fun acc h => h
  | cons p rest ih => exact fun acc h => ih _ (ascending_insert p.1 p.2 acc h)

end Pairs

/-- A finite map from strings. -/
structure Dict (α : Type) where
  pairs : List (String × α)
  ascending : Pairs.Ascending pairs

namespace Dict

variable {α : Type}

def empty : Dict α := ⟨[], Pairs.ascending_nil⟩

instance : Inhabited (Dict α) := ⟨empty⟩

def get? (d : Dict α) (key : String) : Option α :=
  Pairs.get? key d.pairs

def contains (d : Dict α) (key : String) : Bool :=
  (d.get? key).isSome

def insert (d : Dict α) (key : String) (value : α) : Dict α :=
  ⟨Pairs.insert key value d.pairs, Pairs.ascending_insert key value d.pairs d.ascending⟩

def erase (d : Dict α) (key : String) : Dict α :=
  ⟨Pairs.erase key d.pairs, Pairs.ascending_erase key d.pairs d.ascending⟩

def ofList (ps : List (String × α)) : Dict α :=
  ⟨Pairs.ofList ps, Pairs.ascending_ofList ps⟩

/-- Puts a value under a key that has none. -/
def insertNew (d : Dict α) (key : String) (value : α) : Dict α :=
  if d.contains key then d else d.insert key value

/-- The entries of two dictionaries, those of the first where both have one. -/
def merge (d e : Dict α) : Dict α :=
  e.pairs.foldl (fun d p => d.insertNew p.1 p.2) d

def keys (d : Dict α) : List String :=
  d.pairs.map (·.1)

def values (d : Dict α) : List α :=
  d.pairs.map (·.2)

def size (d : Dict α) : Nat :=
  d.pairs.length

theorem get?_empty (key : String) : (empty : Dict α).get? key = none := rfl

theorem get?_insert_self (d : Dict α) (key : String) (value : α) :
    (d.insert key value).get? key = some value :=
  Pairs.get?_insert_self key value d.pairs

theorem get?_insert_of_ne (d : Dict α) (key other : String) (value : α) (h : other ≠ key) :
    (d.insert key value).get? other = d.get? other :=
  Pairs.get?_insert_of_ne key other value d.pairs h

theorem get?_erase_self (d : Dict α) (key : String) : (d.erase key).get? key = none :=
  Pairs.get?_erase_self key d.pairs

theorem get?_erase_of_ne (d : Dict α) (key other : String) (h : other ≠ key) :
    (d.erase key).get? other = d.get? other :=
  Pairs.get?_erase_of_ne key other d.pairs h

theorem contains_eq_any (d : Dict α) (key : String) :
    d.contains key = d.pairs.any (·.1 == key) := by
  have any : ∀ ps : List (String × α), (Pairs.get? key ps).isSome = ps.any (·.1 == key) := by
    intro ps
    induction ps with
    | nil => rfl
    | cons p ps ih =>
      obtain ⟨k, v⟩ := p
      by_cases h : k = key <;> simp [Pairs.get?, h, ih]
  exact any d.pairs

theorem contains_insert (d : Dict α) (key other : String) (value : α) :
    (d.insert key value).contains other = (other == key || d.contains other) := by
  by_cases h : other = key
  · subst h
    simp [contains, get?_insert_self]
  · simp [contains, get?_insert_of_ne _ _ _ _ h, h]

theorem contains_insertNew (d : Dict α) (key other : String) (value : α) :
    (d.insertNew key value).contains other = (other == key || d.contains other) := by
  unfold insertNew
  split
  · rename_i present
    by_cases h : other = key
    · subst h
      simp [present]
    · simp [h]
  · exact contains_insert d key other value

theorem contains_merge (d e : Dict α) (key : String) :
    (d.merge e).contains key = (d.contains key || e.contains key) := by
  rw [contains_eq_any e]
  unfold merge
  generalize e.pairs = ps
  induction ps generalizing d with
  | nil => simp
  | cons p ps ih =>
    rw [List.foldl_cons, ih, contains_insertNew, List.any_cons, Bool.or_assoc,
      Bool.or_left_comm, Bool.beq_comm (a := key)]

theorem keys_ascending (d : Dict α) : d.keys.Pairwise (· < ·) :=
  List.pairwise_map.2 d.ascending

theorem keys_nodup (d : Dict α) : d.keys.Nodup :=
  d.keys_ascending.imp (fun {a b} (h : a < b) (e : a = b) => String.lt_irrefl b (e ▸ h))

end Dict

end Memberwise
