import Memberwise.Copy.Basic

/-!
# Diagnostic texts of definitions and members

Functions have no text of their own, so a record that holds one is shown open.
-/

namespace Memberwise

open Text

/-- The diagnostic text of tags in order. -/
def inspectTags (h : Heap) (ts : List Tag) : String :=
  listed (ts.map fun t => t.inspect h)

def Field.inspect (h : Heap) (f : Field) : String :=
  record "FieldDef"
    [("name", quoted f.name), ("type_desc", f.type.inspect), ("tags", inspectTags h f.tags),
     ("read_only", truth f.readOnly), ("default", optional (f.initial.map fun v => v.inspect h)),
     ("initialized", truth f.initialized)] false

def Accessor.inspect (h : Heap) (a : Accessor) : String :=
  record "AccessorDef"
    [("name", quoted a.name), ("returns", a.returns.inspect), ("tags", inspectTags h a.tags)] true

def Mutator.inspect (h : Heap) (m : Mutator) : String :=
  record "MutatorDef"
    [("name", quoted m.name), ("accepts", m.accepts.inspect), ("tags", inspectTags h m.tags)] true

def Descriptor.inspect (h : Heap) (d : Descriptor) : String :=
  record "MemberDescriptor"
    [("name", quoted d.name), ("declared_type", d.declaredType.inspect),
     ("declaring_type", d.declaringType.inspect), ("readable", truth d.readable),
     ("writable", truth d.writable), ("tags", inspectTags h d.tags)] true

/-- The diagnostic text of a member, with its target if it is bound. -/
def Member.inspect (h : Heap) (m : Member) : String :=
  record "Member"
    ([("name", quoted m.name), ("declared_type", m.declaredType.inspect),
      ("declaring_type", m.declaringType.inspect)] ++
      (m.target.map fun v => ("target", v.inspect h)).toList) false

/-- The diagnostic text of any predicate. -/
def MemberPredicate.inspect (_ : MemberPredicate) : String :=
  applied "MemberPredicate" ".."

def CopyOptions.inspect (o : CopyOptions) : String :=
  record "CopyOptions"
    [("transform", truth o.transform.isSome), ("filter", truth o.filter.isSome),
     ("skip_nulls", truth o.skipNulls), ("selector", truth o.selector.isSome)] false

end Memberwise
