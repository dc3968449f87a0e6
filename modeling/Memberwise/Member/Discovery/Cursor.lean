import Memberwise.Member.Template
import Memberwise.Member.Discovery.Sequence

/-!
# Members of cursors

A plain numeral names a column by its number, counted from one; any other name
is taken for a label.  Columns are read on the current row and never written.
-/

namespace Memberwise

/-- The column that a member name stands for. -/
def Column.parse (name : String) : Column :=
  match Text.Numeral.read? indexLimit name with
  | some n => .ordinal n
  | none => .label name

def columnTemplate (name : String) : Template where
  name := name
  declaredType := .any
  declaringType := .cursor
  readable := true
  writable := false
  tags := []
  access := .column (.parse name)

/-- The columns of a cursor by number, in order. -/
def discoverCursor (h : Heap) (c : CursorRef) : Except MemberError (List Template) :=
  match (h.cursor c).columnCount with
  | .ok count => .ok ((List.range count).map fun i => columnTemplate (Text.Numeral.write (i + 1)))
  | .error e => .error (.handling "column_count" e)

end Memberwise
