/-!
# Reported errors

Every error of the library has a code, which names its kind, and a message,
which names the things concerned.  An error that wraps another one shows the
code of that one in its own.
-/

namespace Memberwise

class Reported (ε : Type) where
  code : ε → String
  message : ε → String

end Memberwise
