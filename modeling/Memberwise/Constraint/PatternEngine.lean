/-!
# Pattern engines

What text patterns are, how they are written and where they occur is left to an engine.
Factories and validators are the same with any of them.
-/

namespace Memberwise

/-- Reads text patterns and finds them in texts. -/
class PatternEngine where
  Compiled : Type
  /-- Reads a pattern; none if it is not written correctly or too large. -/
  read? : String → Option Compiled
  /-- Whether a pattern matches somewhere in a text. -/
  occursIn : Compiled → String → Bool

end Memberwise
