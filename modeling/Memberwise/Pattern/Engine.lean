import Memberwise.Constraint.PatternEngine
import Memberwise.Pattern.Match
import Memberwise.Pattern.Reader

/-!
# The engine for regular expressions
-/

namespace Memberwise

instance : PatternEngine where
  Compiled := Pattern
  read? := Pattern.read?
  occursIn := Pattern.occursIn

end Memberwise
