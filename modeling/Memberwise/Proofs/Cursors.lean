import Memberwise.Proofs.TypedRuns

/-!
# Cursors over time

A cursor with rows in memory is before its first row, on a row, or after the last one, and
only a call for the next row moves it.  Where it is depends on the number of these calls alone
(`RowSet.called`), and this number is all that is counted in a history of a world
(`CursorRef.cursor_performAll`).

A member of a cursor holds the name of a column and no row.  Whenever it was obtained, it
reads the row of the moment (`row_cursor_protocol`).
-/

namespace Memberwise

/-! ### Rows -/

namespace RowSet

variable {columns : List String} {rows : List (List Value)}

/-- The rows after some number of calls for the next. -/
def called (columns : List String) (rows : List (List Value)) : Nat → RowSet
  | 0 => .ofRows columns rows
  | k + 1 => (called columns rows k).next

/-- The row that the calls have come to. -/
def row? (rows : List (List Value)) : Nat → Option (List Value)
  | 0 => none
  | k + 1 => rows[k]?

theorem columns_called (k : Nat) : (called columns rows k).columns = columns := by
  induction k with
  | zero => rfl
  | succ k ih => exact ih

theorem rows_called (k : Nat) : (called columns rows k).rows = rows := by
  induction k with
  | zero => rfl
  | succ k ih => exact ih

/-- Past the last row the position rests. -/
theorem position_called_succ (k : Nat) :
    (called columns rows (k + 1)).position = some (min k rows.length) := by
  induction k with
  | zero => rfl
  | succ k ih =>
      rw [called, next, ih, rows_called, Option.elim_some]
      exact congrArg some (by omega)

theorem bind_position_called (k : Nat) :
    (called columns rows k).position.bind (rows[·]?) = row? rows k := by
  cases k with
  | zero => rfl
  | succ k =>
      rw [position_called_succ, Option.bind_some, row?]
      rcases Nat.le_total k rows.length with within | past
      · rw [Nat.min_eq_left within]
      · rw [Nat.min_eq_right past, List.getElem?_eq_none past,
          List.getElem?_eq_none (Nat.le_refl _)]

theorem onRow_called (k : Nat) : (called columns rows k).onRow = (row? rows k).isSome := by
  rw [onRow, rows_called, bind_position_called]

theorem currentRow_called (k : Nat) :
    (called columns rows k).currentRow = (row? rows k).elim (.error .noCurrentRow) .ok := by
  rw [currentRow, rows_called, bind_position_called]
  cases row? rows k with
  | none => rfl
  | some row => rfl

theorem row?_eq_none_iff {k : Nat} : row? rows k = none ↔ k = 0 ∨ rows.length < k := by
  cases k with
  | zero => simp [row?]
  | succ k =>
      rw [row?, List.getElem?_eq_none_iff]
      omega

theorem isSome_row?_succ (k : Nat) : (row? rows (k + 1)).isSome = decide (k + 1 ≤ rows.length) := by
  rw [row?, Bool.eq_iff_iff, isSome_getElem?, decide_eq_true_iff, Nat.succ_le_iff]

theorem byOrdinal_called {k i : Nat} (first : 1 ≤ i) (last : i ≤ columns.length) :
    (called columns rows k).byOrdinal i =
      (row? rows k).elim (.error .noCurrentRow) fun row => .ok ((row[i - 1]?).getD .null) := by
  have within : ¬(i = 0 ∨ columns.length < i) := by omega
  rw [byOrdinal, columns_called, if_neg within, currentRow_called]
  cases row? rows k with
  | none => rfl
  | some row => rfl

theorem byOrdinal_called_of_not {k i : Nat} (outside : i = 0 ∨ columns.length < i) :
    (called columns rows k).byOrdinal i = .error (.columnOutOfRange i columns.length) := by
  rw [byOrdinal, columns_called, if_pos outside]

theorem byLabel_of_first {s : RowSet} {label column : String} {earlier later : List String}
    (split : s.columns = earlier ++ column :: later)
    (none : ∀ other ∈ earlier, other.toLower ≠ label.toLower)
    (this : column.toLower = label.toLower) :
    s.byLabel label = s.byOrdinal (earlier.length + 1) := by
  have index : s.columnIndex? label = some earlier.length := by
    rw [columnIndex?, split, List.findIdx?_append, List.findIdx?_eq_none_iff.2, List.findIdx?_cons]
    · simp [this]
    · intro other mem
      exact beq_eq_false_iff_ne.2 (none other mem)
  rw [byLabel, index]

theorem byLabel_of_none {s : RowSet} {label : String}
    (none : ∀ column ∈ s.columns, column.toLower ≠ label.toLower) :
    s.byLabel label = .error (.unknownColumn label) := by
  have index : s.columnIndex? label = Option.none :=
    List.findIdx?_eq_none_iff.2 fun column mem => beq_eq_false_iff_ne.2 (none column mem)
  rw [byLabel, index]

end RowSet

/-! ### What leaves cursors alone -/

section Frame

variable {registryOf : CatalogRef → Registry} {h after : Heap} {c : CursorRef}

theorem Heap.cursor_congr (same : after.cursors = h.cursors) : after.cursor c = h.cursor c := by
  rw [cursor, cursor, same]

theorem Access.Writes.cursors_eq {a : Access} {target value : Value}
    (writes : a.Writes h value target after) : after.cursors = h.cursors := by
  cases writes with
  | slots => rfl
  | item => rfl
  | entry => rfl
  | property => rfl
  | removal => rfl

namespace Member

variable {m : Member} {target value : Value}

theorem cursors_of_writeIn (written : (m.writeIn h target value).answer registryOf = .ok after) :
    after.cursors = h.cursors := by
  rw [writeIn] at written
  split at written
  · rw [Query.answer_mapError, mapError_eq_ok] at written
    cases route : m.route with
    | direct access =>
        rw [route] at written
        exact (Access.writes_of_write written).cursors_eq
    | path p =>
        rw [route, writeRoute, MemberPath.write, Query.answer_bind] at written
        obtain ⟨⟨owner, leaf⟩, -, written⟩ := bind_eq_ok.1 written
        rw [Query.answer_mapError, Query.answer_ofExcept, mapError_eq_ok, Template.write] at written
        split at written
        · exact (Access.writes_of_write (mapError_eq_ok.1 written)).cursors_eq
        · cases written
  · cases written

theorem cursors_of_write (written : (m.write h value).answer registryOf = .ok after) :
    after.cursors = h.cursors := by
  rw [write] at written
  split at written
  · exact cursors_of_writeIn written
  · cases written

end Member

namespace Copier

variable {k : Copier} {shared : Bool} {source destination : Value}

theorem cursors_copyMember (src : Member) :
    ((k.copyMember shared source destination src).answer registryOf h).2.cursors = h.cursors := by
  rw [answer_copyMember]
  split
  · rfl
  · rfl
  · split
    · split
      · rfl
      · split
        · rfl
        · split
          · rfl
          · rename_i written
            exact Member.cursors_of_write written
    · rfl

theorem cursors_copyMembers (members : List Member) (count : Nat) :
    ((k.copyMembers shared source destination members count).answer registryOf h).2.cursors =
      h.cursors := by
  induction members generalizing count h with
  | nil => rfl
  | cons src rest ih =>
      have here : ((k.copyMember shared source destination src).answer registryOf h).2.cursors =
          h.cursors := cursors_copyMember src
      rw [copyMembers_cons, EditOf.answer_bind]
      split
      · rename_i assigned after step
        rw [step] at here
        exact (ih _).trans here
      · rename_i e after step
        rw [step] at here
        exact here

theorem cursors_copy :
    ((k.copy source destination).answer registryOf h).2.cursors = h.cursors := by
  rw [answer_copy]
  cases (k.sources h source).answer registryOf with
  | error e => rfl
  | ok members => exact cursors_copyMembers members 0

end Copier

theorem Edit.cursors_update {ε : Type} {f : Heap → Query ε Heap} {as : Except ε Unit → Answer}
    (written : ∀ after, (f h).answer registryOf = .ok after → after.cursors = h.cursors) :
    (((update f).answered as h).answer registryOf).2.cursors = h.cursors := by
  rw [rediscover_answered, EditOf.answer_update]
  cases outcome : (f h).answer registryOf with
  | error e => rfl
  | ok after => exact written after outcome

end Frame

/-- Everything but a change of the heap from outside. -/
def Deed.Contained : Deed → Prop
  | operate (.change _) => False
  | _ => True

theorem Operation.cursors_run {op : Operation} {w : World}
    (contained : (Deed.operate op).Contained) : (op.run w).2.heap.cursors = w.heap.cursors := by
  rw [(op.run_eq w).2]
  cases op with
  | write m value => exact Edit.cursors_update fun _ => Member.cursors_of_write
  | writeIn m target value => exact Edit.cursors_update fun _ => Member.cursors_of_writeIn
  | copy k source destination =>
      rw [rediscover, course, Edit.rediscover_answered]
      exact Copier.cursors_copy
  | change f => exact contained.elim
  | bind m target => rfl
  | unbind m => rfl
  | _ => rw [rediscover, course, Edit.heap_answered_look]

namespace CursorRef

variable {w : World} {c : CursorRef} {s : RowSet} {columns : List String}
  {rows : List (List Value)}

/-- Whether a deed is a call for the next row. -/
def isNext (c : CursorRef) : Deed → Bool
  | .nextRow c' => c' == c
  | _ => false

theorem live_of_cursor_eq {h : Heap} (shows : h.cursor c = .rows s) : h.Live (.cursor c) := by
  rw [Heap.cursor] at shows
  cases found : h.cursors.get? c.id with
  | none =>
      rw [found] at shows
      cases shows
  | some k => exact (Array.getElem?_eq_some_iff.1 found).1

theorem nextRow?_eq {h : Heap} (shows : h.cursor c = .rows s) : h.nextRow? c =
    some (s.next.onRow, { h with cursors := h.cursors.set c.id (.rows s.next) }) := by
  rw [Heap.nextRow?, shows]

theorem cursors_kept_setItem (h : Heap) (l : ListRef) (i : Nat) (value : Value) :
    (Deed.kept h (h.setItem l i value)).cursors = h.cursors := by
  rw [Heap.setItem]
  split
  · split
    · rfl
    · rfl
  · rfl

theorem cursors_kept_pushItem (h : Heap) (l : ListRef) (value : Value) :
    (Deed.kept h (h.pushItem l value)).cursors = h.cursors := by
  rw [Heap.pushItem]
  split
  · rfl
  · rfl

theorem cursors_kept_insertEntry (h : Heap) (m : MapRef) (key : String) (value : Value) :
    (Deed.kept h (h.insertEntry m key value)).cursors = h.cursors := by
  rw [Heap.insertEntry]
  split
  · rfl
  · rfl

/-- A call for the next row advances its cursor and no other. -/
theorem cursor_nextRow (c' : CursorRef) (shows : w.heap.cursor c = .rows s) :
    ((Deed.nextRow c').perform w).heap.cursor c = .rows (if c' == c then s.next else s) := by
  show ((w.heap.nextRow? c').elim w.heap (·.2)).cursor c = _
  by_cases same : c' = c
  · subst same
    rw [nextRow?_eq shows, beq_self_eq_true, if_pos rfl, Option.elim_some, Heap.cursor,
      Store.get?_set_self _ _ _ (live_of_cursor_eq shows), Option.getD_some]
  · have apart : c.id ≠ c'.id := fun ids => same (congrArg CursorRef.mk ids.symm)
    rw [beq_false_of_ne same, if_neg Bool.false_ne_true, Heap.nextRow?]
    cases w.heap.cursor c' with
    | rows s' =>
        rw [Option.elim_some, Heap.cursor, Store.get?_set_of_ne _ _ _ _ apart]
        exact shows
    | foreign k => exact shows

/-- Nothing but a call for the next row moves a cursor. -/
theorem cursor_perform {deed : Deed} (contained : deed.Contained)
    (shows : w.heap.cursor c = .rows s) :
    (deed.perform w).heap.cursor c = .rows (if c.isNext deed then s.next else s) := by
  cases deed with
  | nextRow c' => exact cursor_nextRow c' shows
  | newCursor k =>
      have live := live_of_cursor_eq shows
      show ((w.heap.cursors.push k).get? c.id).getD _ = _
      rw [Store.get?_push_of_lt _ _ _ live]
      exact shows
  | operate op => exact (Heap.cursor_congr (Operation.cursors_run contained)).trans shows
  | setItem l i v => exact (Heap.cursor_congr (cursors_kept_setItem _ l i v)).trans shows
  | pushItem l v => exact (Heap.cursor_congr (cursors_kept_pushItem _ l v)).trans shows
  | insertEntry m key v =>
      exact (Heap.cursor_congr (cursors_kept_insertEntry _ m key v)).trans shows
  | _ => exact shows

/-- After any history a cursor is where the calls for its next row have brought it. -/
theorem cursor_performAll {deeds : List Deed} (contained : ∀ deed ∈ deeds, deed.Contained) {k : Nat}
    (shows : w.heap.cursor c = .rows (.called columns rows k)) :
    (Deed.performAll deeds w).heap.cursor c =
      .rows (.called columns rows (k + deeds.countP c.isNext)) := by
  induction deeds generalizing w k with
  | nil => exact shows
  | cons deed later ih =>
      obtain ⟨here, there⟩ := List.forall_mem_cons.1 contained
      have step := cursor_perform here shows
      rw [List.countP_cons]
      cases moves : c.isNext deed with
      | true =>
          rw [moves, if_pos rfl] at step
          have run := ih there (k := k + 1) step
          rw [if_pos rfl, Nat.add_comm (later.countP _), ← Nat.add_assoc]
          exact run
      | false =>
          rw [moves, if_neg Bool.false_ne_true] at step
          exact ih there step

end CursorRef

/-! ### Members -/

/-- The column that a name stands for: its number, or else its label. -/
theorem Column.parse_eq (name : String) : Column.parse name =
    if Text.Numeral.isNumeral name = true ∧ Text.Numeral.value name.toList < indexLimit then
      .ordinal (Text.Numeral.value name.toList)
    else .label name := by
  rw [parse, Text.Numeral.read?]
  by_cases number : Text.Numeral.isNumeral name = true ∧
      Text.Numeral.value name.toList < indexLimit
  · simp [number]
  · have none : (Text.Numeral.isNumeral name &&
        decide (Text.Numeral.value name.toList < indexLimit)) = false := by simpa using number
    simp [number, none]

namespace CursorRef

variable {w : World} {c : CursorRef}

/-- The member of a cursor for the column of a name. -/
def member (c : CursorRef) (name : String) : Member :=
  .ofTemplate (columnTemplate name) (some (.cursor c))

theorem eq_member_of_obtained {m : Member} (obtained : m.Obtained (.cursor c)) :
    m = c.member m.name := by
  cases obtained with
  | listed listed hm =>
      obtain ⟨ts, found, rfl⟩ := CatalogRef.membersOf_eq_ok listed
      obtain ⟨t, ht, rfl⟩ := List.mem_map.1 hm
      cases CatalogRef.listed_of_templatesOf found ht with
      | column _ i => rfl
  | found found =>
      obtain ⟨t, looked, rfl⟩ := CatalogRef.memberOf?_eq_some found
      rw [CatalogRef.answer_templateOf?] at looked
      cases looked
      rfl

/-- A member reads its column as it is at the time. -/
theorem run_read_member (name : String) : (Query.run w fun h => (c.member name).read h).1 =
    (match Column.parse name with
      | .ordinal n => (w.heap.cursor c).byOrdinal n
      | .label text => (w.heap.cursor c).byLabel text).mapError (.handling name) := by
  rw [Member.run_read_direct rfl rfl]
  rfl

theorem run_memberOf? (d : CatalogRef) (deep : Bool) (name : String) :
    (Query.run w fun h => d.memberOf? h (.cursor c) name deep).1 = .ok (some (c.member name)) := by
  rw [Query.run_fst, CatalogRef.answer_memberOf?, CatalogRef.answer_templateOf?]
  rfl

theorem run_membersOf {s : RowSet} (shows : w.heap.cursor c = .rows s) (d : CatalogRef)
    (deep : Bool) : (Query.run w fun h => d.membersOf h (.cursor c) deep).1 =
      .ok ((List.range s.columns.length).map fun i => c.member (Text.Numeral.write (i + 1))) := by
  rw [Query.run_fst, CatalogRef.answer_membersOf]
  show (discoverCursor w.heap c).map _ = _
  rw [discoverCursor, shows]
  show Except.ok (((List.range _).map _).map _) = _
  rw [List.map_map]
  rfl

/-- What a cursor answers in a world, after some number of calls for the next row.  Columns
are counted from one and rows too. -/
structure Shows (c : CursorRef) (columns : List String) (rows : List (List Value)) (k : Nat)
    (now : World) : Prop where
  /-- One more call. -/
  next : (now.heap.nextRow? c).map (·.1) = some (decide (k + 1 ≤ rows.length))
  value : ∀ i, 1 ≤ i → i ≤ columns.length → 1 ≤ k → ∀ row, rows[k - 1]? = some row →
    (now.heap.cursor c).byOrdinal i = .ok ((row[i - 1]?).getD .null)
  noRow : ∀ i, 1 ≤ i → i ≤ columns.length → k = 0 ∨ rows.length < k →
    (now.heap.cursor c).byOrdinal i = .error (.access .noCurrentRow)
  outside : ∀ i, i = 0 ∨ columns.length < i →
    (now.heap.cursor c).byOrdinal i = .error (.access (.columnOutOfRange i columns.length))
  label : ∀ text earlier column later, columns = earlier ++ column :: later →
    (∀ other ∈ earlier, other.toLower ≠ text.toLower) → column.toLower = text.toLower →
    (now.heap.cursor c).byLabel text = (now.heap.cursor c).byOrdinal (earlier.length + 1)
  unknown : ∀ text, (∀ column ∈ columns, column.toLower ≠ text.toLower) →
    (now.heap.cursor c).byLabel text = .error (.access (.unknownColumn text))
  listed : ∀ (d : CatalogRef) (deep : Bool),
    (Query.run now fun h => d.membersOf h (.cursor c) deep).1 =
      .ok ((List.range columns.length).map fun i => c.member (Text.Numeral.write (i + 1)))
  found : ∀ (d : CatalogRef) (deep : Bool) name,
    (Query.run now fun h => d.memberOf? h (.cursor c) name deep).1 = .ok (some (c.member name))
  /-- The members, whenever they were obtained. -/
  members : ∀ m : Member, m.Obtained (.cursor c) → (Query.run now fun h => m.read h).1 =
    (if Text.Numeral.isNumeral m.name = true ∧ Text.Numeral.value m.name.toList < indexLimit then
      (now.heap.cursor c).byOrdinal (Text.Numeral.value m.name.toList)
    else (now.heap.cursor c).byLabel m.name).mapError (.handling m.name)

theorem shows_of_cursor_eq {columns : List String} {rows : List (List Value)} {k : Nat}
    (shows : w.heap.cursor c = .rows (.called columns rows k)) : c.Shows columns rows k w where
  next := by
    rw [nextRow?_eq shows]
    show some (RowSet.called columns rows (k + 1)).onRow = _
    rw [RowSet.onRow_called, RowSet.isSome_row?_succ]
  value := by
    intro i first last called row here
    obtain ⟨k, rfl⟩ := Nat.exists_eq_succ_of_ne_zero (Nat.ne_of_gt called)
    have row? : RowSet.row? rows (k + 1) = some row := here
    rw [shows, Cursor.byOrdinal, RowSet.byOrdinal_called first last, row?]
    rfl
  noRow := by
    intro i first last off
    rw [shows, Cursor.byOrdinal, RowSet.byOrdinal_called first last, RowSet.row?_eq_none_iff.2 off]
    rfl
  outside := by
    intro i outside
    rw [shows, Cursor.byOrdinal, RowSet.byOrdinal_called_of_not outside]
    rfl
  label := by
    intro text earlier column later split none this
    rw [shows, Cursor.byLabel, Cursor.byOrdinal,
      RowSet.byLabel_of_first ((RowSet.columns_called k).trans split) none this]
  unknown := by
    intro text none
    have none : ∀ column ∈ (RowSet.called columns rows k).columns,
        column.toLower ≠ text.toLower := by rwa [RowSet.columns_called]
    rw [shows, Cursor.byLabel, RowSet.byLabel_of_none none]
    rfl
  listed := by
    intro d deep
    rw [run_membersOf shows, RowSet.columns_called]
  found := run_memberOf?
  members := by
    intro m obtained
    have read := run_read_member (w := w) (c := c) m.name
    rw [← eq_member_of_obtained obtained, Column.parse_eq] at read
    split
    · rename_i numeral
      rwa [if_pos numeral] at read
    · rename_i word
      rwa [if_neg word] at read

end CursorRef

/-- Whatever is done in a world, the answers of a cursor with rows in memory depend on the
number of calls for its next row alone, and its members follow them. -/
theorem row_cursor_protocol {w : World} {c : CursorRef} {columns : List String}
    {rows : List (List Value)} (fresh : w.heap.cursor c = .rows (.ofRows columns rows))
    (history : List Deed) (contained : ∀ deed ∈ history, deed.Contained) :
    c.Shows columns rows (history.countP c.isNext) (Deed.performAll history w) := by
  have start : w.heap.cursor c = .rows (.called columns rows 0) := fresh
  have there := CursorRef.cursor_performAll contained start
  rw [Nat.zero_add] at there
  exact CursorRef.shows_of_cursor_eq there

/-- Texts are equal, case aside, if their letters are one by one. -/
theorem toLower_eq_iff {s t : String} :
    s.toLower = t.toLower ↔ s.toList.map Char.toLower = t.toList.map Char.toLower := by
  show s.map Char.toLower = t.map Char.toLower ↔ _
  rw [← String.toList_inj, String.toList_map, String.toList_map]

/-- Two people, of whom the second has no age. -/
def people : RowSet :=
  .ofRows ["name", "Age"] [[.string "Ada", .int 36], [.string "Max"]]

def peopleWorld : World := ⟨{ Heap.empty with cursors := ⟨#[.rows people]⟩ }, .empty⟩

/-- The age of a person is read for one after the other. -/
def reading : List Deed :=
  let age := CursorRef.member ⟨0⟩ "AGE"
  [.operate (.read age), .nextRow ⟨0⟩, .operate (.read age), .nextRow ⟨0⟩, .operate (.read age)]

/-- The second person's age is missing, and there is no third person. -/
theorem age_of_second_person_is_null :
    let now := Deed.performAll reading peopleWorld
    (now.heap.nextRow? ⟨0⟩).map (·.1) = some false ∧
      (now.heap.cursor ⟨0⟩).byOrdinal 2 = .ok .null ∧
      (Query.run now fun h => (CursorRef.member ⟨0⟩ "AGE").read h).1 = .ok .null := by
  intro now
  have contained : ∀ deed ∈ reading, deed.Contained := by
    intro deed mem
    simp only [reading, List.mem_cons, List.not_mem_nil, or_false] at mem
    rcases mem with rfl | rfl | rfl | rfl | rfl <;> exact trivial
  have shows := row_cursor_protocol (w := peopleWorld) (c := ⟨0⟩) rfl reading contained
  have age := shows.value 2 (by decide) (by decide) (by decide) [.string "Max"] rfl
  refine ⟨shows.next, age, ?_⟩
  have looked : ((⟨0⟩ : CatalogRef).memberOf? .empty (.cursor ⟨0⟩) "AGE" false).answer
      peopleWorld.catalogs.registry = .ok (some (CursorRef.member ⟨0⟩ "AGE")) := rfl
  have found : (CursorRef.member ⟨0⟩ "AGE").Obtained (.cursor ⟨0⟩) := .found looked
  have label : (now.heap.cursor ⟨0⟩).byLabel "AGE" = (now.heap.cursor ⟨0⟩).byOrdinal 2 :=
    shows.label "AGE" ["name"] "Age" [] rfl (by simp [toLower_eq_iff]) (toLower_eq_iff.2 rfl)
  rw [shows.members _ found, if_neg (by decide)]
  show ((now.heap.cursor ⟨0⟩).byLabel "AGE").mapError _ = _
  rw [label, age]
  rfl

end Memberwise
