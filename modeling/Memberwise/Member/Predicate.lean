import Memberwise.Member.Basic

/-!
# Predicates on members
-/

namespace Memberwise

abbrev MemberPredicate := Member → Bool

namespace MemberPredicate

def readable : MemberPredicate := fun m => m.readable

def writable : MemberPredicate := fun m => m.writable

def tagged : MemberPredicate := fun m => !m.tags.isEmpty

def untagged : MemberPredicate := fun m => m.tags.isEmpty

def taggedWith (name : String) : MemberPredicate := fun m => m.hasTag name

def named (name : String) : MemberPredicate := fun m => m.name == name

/-- Members of exactly the given declared type. -/
def ofType (type : ValueType) : MemberPredicate := fun m => m.declaredType == type

/-- Members whose declared type fits a slot of the given type. -/
def assignableTo (r : Registry) (type : ValueType) : MemberPredicate := fun m =>
  r.isAssignable type m.declaredType

/-- Members reported under the given type. -/
def declaredBy (type : ValueType) : MemberPredicate := fun m => m.declaringType == type

def specific : MemberPredicate := fun m => m.isBound

def nonSpecific : MemberPredicate := fun m => !m.isBound

def and (p q : MemberPredicate) : MemberPredicate := fun m => p m && q m

def or (p q : MemberPredicate) : MemberPredicate := fun m => p m || q m

def negate (p : MemberPredicate) : MemberPredicate := fun m => !p m

end MemberPredicate

end Memberwise
