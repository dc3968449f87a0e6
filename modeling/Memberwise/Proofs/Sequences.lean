import Memberwise.Proofs.TypedRuns

/-!
# Lists over time

A list changes when items are pushed and when they are replaced, directly or through its
members.  What fails changes nothing, so a step does to the items what `ListStep.amend`
says of the items alone, and a sequence of steps does so step by step
(`ListStep.items_performAll`).

A member of a list holds a position and no item.  Which names have members depends on the
items of the moment, and a member that was found long ago reads what is at its position
now (`list_members_follow_items`).
-/

namespace Memberwise

/-! ### Positions among the items of the moment -/

/-- The index that a position comes to among some number of items. -/
def Position.place : Position → Nat → Nat
  | nth i, _ => i
  | first, _ => 0
  | last, n => n - 1

/-- A member of a list for a position.  All members that are found in it are so
(`CatalogRef.eq_member_of_run_memberOf?`). -/
def ListRef.member (l : ListRef) (name : String) (p : Position) : Member :=
  .ofTemplate (itemTemplate l.elementType name p) (some (.list l))

namespace Position

variable {p : Position} {n : Nat}

theorem index_of_lt (within : p.place n < n) : p.index n = .ok (p.place n) := by
  have some : n ≠ 0 := Nat.ne_of_gt (Nat.zero_lt_of_lt within)
  cases p with
  | nth i => rfl
  | first => exact if_neg some
  | last => exact if_neg some

/-- A position past the items is an index there, or the end of a list without items. -/
theorem index_of_le (past : n ≤ p.place n) :
    p.index n = .ok (p.place n) ∨ p.index n = .error (.indexOutOfBounds (p.place n) n) := by
  cases p with
  | nth i => exact Or.inl rfl
  | first =>
      cases Nat.eq_zero_of_le_zero past
      exact Or.inr rfl
  | last =>
      have none : n = 0 := by
        have : n ≤ n - 1 := past
        omega
      cases none
      exact Or.inr rfl

end Position

namespace Access

variable {h : Heap} {l : ListRef} {p : Position}

theorem readItem_list : readItem h p (.list l) =
    (h.item l (p.place (h.items l).length)).mapError .access := by
  rw [readItem]
  rcases Nat.lt_or_ge (p.place (h.items l).length) (h.items l).length with within | past
  · rw [Position.index_of_lt within]
    rfl
  · rcases Position.index_of_le past with index | index
    · rw [index]
      rfl
    · rw [index, Heap.item, List.getElem?_eq_none past]
      rfl

theorem write_index_of_lt (value : Value)
    (within : p.place (h.items l).length < (h.items l).length) :
    (index p).write h (.list l) value =
      (h.setItem l (p.place (h.items l).length) value).mapError .access := by
  rw [write, writeItem, Position.index_of_lt within]
  rfl

theorem write_index_of_le (value : Value)
    (past : (h.items l).length ≤ p.place (h.items l).length) :
    ∃ e, (index p).write h (.list l) value = .error (.access e) := by
  refine write_of_not_placed value ?_
  rw [placed]
  rcases Position.index_of_le past with index | index
  · rw [index]
    exact decide_eq_false (Nat.not_lt.2 past)
  · rw [index]

end Access

/-! ### Steps -/

/-- What can be done to the items of a list in one step. -/
inductive ListStep where
  | push (value : Value)
  | set (index : Nat) (value : Value)
  /-- Through a member for a position, under whatever name that was found. -/
  | write (name : String) (p : Position) (value : Value)

namespace ListStep

/-- The step as it is carried out on a list. -/
def deed (l : ListRef) : ListStep → Deed
  | push value => .pushItem l value
  | set i value => .setItem l i value
  | write name p value => .operate (.write (l.member name p) value)

def performAll (l : ListRef) (steps : List ListStep) (w : World) : World :=
  Deed.performAll (steps.map (deed l)) w

/-- What a step does to items of some type.  A value that is not accepted does nothing,
and neither does a position without an item. -/
def amend (element : ValueType) (xs : List Value) : ListStep → List Value
  | push value => if element.accepts value then xs ++ [value] else xs
  | set i value => if element.accepts value then xs.set i value else xs
  | write _ p value => if element.accepts value then xs.set (p.place xs.length) value else xs

variable {w : World} {l : ListRef}

/-- A write through a position is one to its index, and nothing past the items. -/
theorem heap_perform_write (name : String) (p : Position) (value : Value) :
    (((write name p value).deed l).perform w).heap =
      Deed.kept w.heap (w.heap.setItem l (p.place (w.heap.items l).length) value) := by
  have written : (((write name p value).deed l).perform w).heap =
      match (Access.index p).write w.heap (.list l) value with
      | .ok after => after
      | .error _ => w.heap := by
    have through : (l.member name p).write w.heap value = (Query.ofExcept
        ((Access.index p).write w.heap (.list l) value)).mapError (.handling name) := rfl
    rw [deed, Deed.perform, (Operation.run_eq _ w).2, Operation.rediscover, Operation.course,
      Edit.rediscover_answered, Member.assign, EditOf.answer_update, through, Query.answer_mapError,
      Query.answer_ofExcept]
    cases (Access.index p).write w.heap (.list l) value with
    | error e => rfl
    | ok after => rfl
  rw [written]
  rcases Nat.lt_or_ge (p.place (w.heap.items l).length) (w.heap.items l).length with within | past
  · rw [Access.write_index_of_lt value within]
    cases w.heap.setItem l (p.place (w.heap.items l).length) value with
    | error e => rfl
    | ok after => rfl
  · obtain ⟨e, failed⟩ := Access.write_index_of_le value past
    rw [failed, Heap.setItem, if_neg (Nat.not_lt.2 past)]
    cases l.elementType.accepts value with
    | true => rfl
    | false => rfl

theorem items_kept_setItem {h : Heap} (live : h.Live (.list l)) (i : Nat) (value : Value) :
    (Deed.kept h (h.setItem l i value)).items l =
        (if l.elementType.accepts value then (h.items l).set i value else h.items l) ∧
      (Deed.kept h (h.setItem l i value)).Live (.list l) := by
  rw [Heap.setItem]
  split
  · split
    · exact ⟨h.items_setItems _ _ live, (h.sameBut_setItems l _).live live⟩
    · rename_i past
      exact ⟨(List.set_eq_of_length_le (Nat.le_of_not_lt past)).symm, live⟩
  · exact ⟨rfl, live⟩

theorem items_kept_pushItem {h : Heap} (live : h.Live (.list l)) (value : Value) :
    (Deed.kept h (h.pushItem l value)).items l =
        (if l.elementType.accepts value then h.items l ++ [value] else h.items l) ∧
      (Deed.kept h (h.pushItem l value)).Live (.list l) := by
  rw [Heap.pushItem]
  split
  · exact ⟨h.items_setItems _ _ live, (h.sameBut_setItems l _).live live⟩
  · exact ⟨rfl, live⟩

/-- A step that is carried out changes the items as it does by itself. -/
theorem items_perform (live : w.heap.Live (.list l)) (step : ListStep) :
    ((step.deed l).perform w).heap.items l = amend l.elementType (w.heap.items l) step ∧
      ((step.deed l).perform w).heap.Live (.list l) := by
  cases step with
  | push value => exact items_kept_pushItem live value
  | set i value => exact items_kept_setItem live i value
  | write name p value =>
      rw [heap_perform_write]
      exact items_kept_setItem live _ value

/-- What becomes of the items by some steps is what each does in turn. -/
theorem items_performAll (live : w.heap.Live (.list l)) (steps : List ListStep) :
    (performAll l steps w).heap.items l =
        steps.foldl (amend l.elementType) (w.heap.items l) ∧
      (performAll l steps w).heap.Live (.list l) := by
  induction steps generalizing w with
  | nil => exact ⟨rfl, live⟩
  | cons step later ih =>
      obtain ⟨here, live⟩ := items_perform live step
      rw [List.foldl_cons, ← here]
      exact ih live

/-- No step takes an item away. -/
theorem length_le_amend (element : ValueType) (xs : List Value) (step : ListStep) :
    xs.length ≤ (amend element xs step).length := by
  have replaced : ∀ i value,
      xs.length ≤ (if element.accepts value then xs.set i value else xs).length := by
    intro i value
    split
    · exact Nat.le_of_eq List.length_set.symm
    · exact Nat.le_refl _
  cases step with
  | push value =>
      rw [amend]
      split
      · simp
      · exact Nat.le_refl _
  | set i value => exact replaced i value
  | write name p value => exact replaced _ value

theorem length_foldl_amend (element : ValueType) (steps : List ListStep) (xs : List Value) :
    xs.length ≤ (steps.foldl (amend element) xs).length := by
  induction steps generalizing xs with
  | nil => exact Nat.le_refl _
  | cons step later ih => exact Nat.le_trans (length_le_amend element xs step) (ih _)

end ListStep

/-! ### Members -/

/-- The names that have members in a list of some length: the words for its ends, and
plain numerals of a value below the length. -/
theorem isSome_findInList?_iff {h : Heap} {l : ListRef} {name : String} :
    (findInList? h l name).isSome = true ↔ name = "first" ∨ name = "last" ∨
      Text.Numeral.isNumeral name = true ∧
        Text.Numeral.value name.toList < (h.items l).length ∧
        Text.Numeral.value name.toList < indexLimit := by
  by_cases first : name = "first"
  · subst first
    exact iff_of_true rfl (Or.inl rfl)
  by_cases last : name = "last"
  · subst last
    exact iff_of_true rfl (Or.inr (Or.inl rfl))
  rw [findInList?]
  cases numeral : Text.Numeral.isNumeral name with
  | true =>
      rw [Position.parse?_of_isNumeral numeral]
      by_cases below : Text.Numeral.value name.toList < indexLimit
      · by_cases within : Text.Numeral.value name.toList < (h.items l).length
        · simp [below, within]
        · simp [first, last, below, within]
      · simp [first, last, below]
  | false => simp [Position.parse?, Text.Numeral.read?, first, last, numeral]

namespace CatalogRef

variable {w : World} {d : CatalogRef} {l : ListRef} {name : String} {deep : Bool}

theorem run_membersOf_list : (Query.run w fun h => d.membersOf h (.list l) deep).1 =
    .ok ((List.range (w.heap.items l).length).map fun i =>
      l.member (Text.Numeral.write i) (.nth i)) := by
  rw [Query.run_fst, answer_membersOf]
  show Except.ok (((List.range _).map _).map _) = _
  rw [List.map_map]
  rfl

theorem run_memberOf?_list : (Query.run w fun h => d.memberOf? h (.list l) name deep).1 =
    .ok ((findInList? w.heap l name).map fun t => .ofTemplate t (some (.list l))) := by
  rw [Query.run_fst, answer_memberOf?]
  rfl

theorem eq_member_of_run_memberOf? {m : Member}
    (found : (Query.run w fun h => d.memberOf? h (.list l) name deep).1 = .ok (some m)) :
    ∃ p, Position.parse? name = some p ∧ (findInList? w.heap l name).isSome = true ∧
      m = l.member name p := by
  rw [run_memberOf?_list] at found
  obtain ⟨t, looked, rfl⟩ := Option.map_eq_some_iff.1 (Except.ok.inj found)
  obtain ⟨p, parsed, rfl⟩ := Option.map_eq_some_iff.1 (listTemplate?_of_findInList? looked)
  exact ⟨p, parsed, Option.isSome_iff_exists.2 ⟨_, looked⟩, rfl⟩

end CatalogRef

namespace ListRef

variable {w : World} {l : ListRef} {name : String}

theorem run_read_member {p : Position} : (Query.run w fun h => (l.member name p).read h).1 =
    (w.heap.items l)[p.place (w.heap.items l).length]?.elim
      (.error (.handling name (.access
        (.indexOutOfBounds (p.place (w.heap.items l).length) (w.heap.items l).length)))) .ok := by
  rw [Member.run_read_direct rfl rfl]
  show ((Access.readItem w.heap p (.list l)).mapError _) = _
  rw [Access.readItem_list, Heap.item]
  cases (w.heap.items l)[p.place (w.heap.items l).length]? with
  | none => rfl
  | some x => rfl

theorem run_read_nth {i : Nat} (within : i < (w.heap.items l).length) :
    (Query.run w fun h => (l.member name (.nth i)).read h).1 = .ok (w.heap.items l)[i] := by
  rw [run_read_member, Position.place, List.getElem?_eq_getElem within]
  rfl

end ListRef

/-- What is found in a list is found in it when it is longer. -/
theorem findInList?_of_le {h after : Heap} {l : ListRef} {name : String} {t : Template}
    (longer : (h.items l).length ≤ (after.items l).length)
    (found : findInList? h l name = some t) : findInList? after l name = some t := by
  rw [findInList?] at found ⊢
  cases parsed : Position.parse? name with
  | none =>
      rw [parsed] at found
      cases found
  | some p =>
      rw [parsed] at found
      cases p with
      | nth i =>
          obtain ⟨within, same⟩ := Option.ite_none_right_eq_some.1 found
          exact (if_pos (Nat.lt_of_lt_of_le within longer)).trans same
      | first => exact found
      | last => exact found

/-- How the members of a list go with its items.  Those that are listed read the items in
order, those that are found by numerals read the items there, and those of the ends read
what is at the ends now, whenever they were found. -/
structure CatalogRef.Follows (d : CatalogRef) (deep : Bool) (l : ListRef) (before now : World)
    (xs : List Value) : Prop where
  items : now.heap.items l = xs
  listed : ∃ ms, (Query.run now fun h => d.membersOf h (.list l) deep).1 = .ok ms ∧
    ms.map (·.name) = (List.range xs.length).map Text.Numeral.write ∧
    ms.map (fun m => (Query.run now fun h => m.read h).1) = xs.map .ok
  found : ∀ name, ∃ m?, (Query.run now fun h => d.memberOf? h (.list l) name deep).1 = .ok m? ∧
    (m?.isSome = true ↔ name = "first" ∨ name = "last" ∨
      Text.Numeral.isNumeral name = true ∧ Text.Numeral.value name.toList < xs.length ∧
        Text.Numeral.value name.toList < indexLimit)
  numeral : ∀ name m, Text.Numeral.isNumeral name = true →
    (Query.run now fun h => d.memberOf? h (.list l) name deep).1 = .ok (some m) →
      ∃ x, xs[Text.Numeral.value name.toList]? = some x ∧
        (Query.run now fun h => m.read h).1 = .ok x
  first : ∀ m, (Query.run before fun h => d.memberOf? h (.list l) "first" deep).1 = .ok (some m) →
    (Query.run now fun h => m.read h).1 =
      xs.head?.elim (.error (.handling "first" (.access (.indexOutOfBounds 0 0)))) .ok
  last : ∀ m, (Query.run before fun h => d.memberOf? h (.list l) "last" deep).1 = .ok (some m) →
    (Query.run now fun h => m.read h).1 =
      xs.getLast?.elim (.error (.handling "last" (.access (.indexOutOfBounds 0 0)))) .ok

theorem CatalogRef.follows (d : CatalogRef) (deep : Bool) {l : ListRef} (before : World)
    {now : World} {xs : List Value} (items : now.heap.items l = xs) :
    d.Follows deep l before now xs where
  items := items
  listed := by
    subst items
    refine ⟨_, run_membersOf_list, ?_, ?_⟩
    · rw [List.map_map]
      rfl
    · rw [List.map_map]
      refine List.ext_getElem (by simp) ?_
      intro i within _
      have within : i < (now.heap.items l).length := by simpa using within
      rw [List.getElem_map, List.getElem_map, List.getElem_range]
      exact ListRef.run_read_nth within
  found := by
    subst items
    intro name
    refine ⟨_, run_memberOf?_list, ?_⟩
    rw [Option.isSome_map]
    exact isSome_findInList?_iff
  numeral := by
    subst items
    intro name m numeral found
    obtain ⟨p, parsed, known, rfl⟩ := eq_member_of_run_memberOf? found
    obtain ⟨within, below⟩ : Text.Numeral.value name.toList < (now.heap.items l).length ∧
        Text.Numeral.value name.toList < indexLimit := by
      rcases isSome_findInList?_iff.1 known with rfl | rfl | ⟨-, small⟩
      · cases numeral
      · cases numeral
      · exact small
    rw [Position.parse?_of_isNumeral numeral, if_pos below] at parsed
    cases parsed
    exact ⟨_, List.getElem?_eq_getElem within, ListRef.run_read_nth within⟩
  first := by
    intro m found
    obtain ⟨p, parsed, -, rfl⟩ := eq_member_of_run_memberOf? found
    cases parsed
    rw [ListRef.run_read_member, items]
    cases xs with
    | nil => rfl
    | cons x xs => rfl
  last := by
    intro m found
    obtain ⟨p, parsed, -, rfl⟩ := eq_member_of_run_memberOf? found
    cases parsed
    rw [ListRef.run_read_member, items, List.getLast?_eq_getElem?, Position.place]
    cases xs with
    | nil => rfl
    | cons x xs =>
        rw [List.getElem?_eq_getElem (by simp)]
        rfl

/-- Whatever is pushed to a list and written to it, with success or without, its members
follow its items, and those that were found before are found again. -/
theorem list_members_follow_items {w : World} {l : ListRef} (live : w.heap.Live (.list l))
    (d : CatalogRef) (deep : Bool) (earlier later : List ListStep) :
    let before := ListStep.performAll l earlier w
    let now := ListStep.performAll l later before
    d.Follows deep l before now
        ((earlier ++ later).foldl (ListStep.amend l.elementType) (w.heap.items l)) ∧
      ∀ name m, (Query.run before fun h => d.memberOf? h (.list l) name deep).1 = .ok (some m) →
        (Query.run now fun h => d.memberOf? h (.list l) name deep).1 = .ok (some m) := by
  intro before now
  obtain ⟨so_far, live⟩ := ListStep.items_performAll live earlier
  obtain ⟨since, -⟩ := ListStep.items_performAll live later
  refine ⟨d.follows deep before ?_, ?_⟩
  · rw [List.foldl_append, ← so_far]
    exact since
  · intro name m found
    rw [CatalogRef.run_memberOf?_list] at found ⊢
    obtain ⟨t, looked, same⟩ := Option.map_eq_some_iff.1 (Except.ok.inj found)
    have longer : (before.heap.items l).length ≤ (now.heap.items l).length :=
      since ▸ ListStep.length_foldl_amend _ _ _
    rw [findInList?_of_le longer looked, Option.map_some, same]

/-- A list of integers that is empty. -/
def numbers : ListRef := ⟨0, .int⟩

def noNumbers : World := ⟨{ Heap.empty with lists := ⟨#[[]]⟩ }, .empty⟩

/-- Two numbers are pushed and a text is not; the last number is replaced, and one that is
not there is not. -/
def counting : List ListStep :=
  [.push (.int 7), .push (.string "x"), .push (.int 8), .write "last" .last (.int 9),
   .set 5 (.int 1)]

/-- The end of the empty list is a member that cannot be read, and reads the last number
later. -/
theorem last_is_found_before_it_is_there :
    ∃ m, (Query.run noNumbers fun h => (⟨0⟩ : CatalogRef).memberOf? h (.list numbers) "last"
        false).1 = .ok (some m) ∧
      (Query.run noNumbers fun h => m.read h).1 =
        .error (.handling "last" (.access (.indexOutOfBounds 0 0))) ∧
      (Query.run (ListStep.performAll numbers counting noNumbers) fun h => m.read h).1 =
        .ok (.int 9) := by
  have live : noNumbers.heap.Live (.list numbers) := Nat.zero_lt_one
  have found : (Query.run noNumbers fun h => (⟨0⟩ : CatalogRef).memberOf? h (.list numbers) "last"
      false).1 = .ok (some (numbers.member "last" .last)) := rfl
  obtain ⟨atFirst, -⟩ := list_members_follow_items live ⟨0⟩ false [] []
  obtain ⟨later, -⟩ := list_members_follow_items live ⟨0⟩ false [] counting
  exact ⟨_, found, atFirst.last _ found, later.last _ found⟩

end Memberwise
