import Memberwise.Member.Template
import Memberwise.Registry.Basic

/-!
# Members of tags

Every parameter that a tag's definition declares is a read-only member of its
instances.
-/

namespace Memberwise

def paramTemplate (tagName : String) (p : TagParameter) : Template where
  name := p.name
  declaredType := p.type
  declaringType := .tag tagName
  readable := true
  writable := false
  tags := []
  access := .param p.name

/-- The members of a registered tag. -/
def discoverTag (r : Registry) (tagName : String) : Except MemberError (List Template) :=
  match r.tag? tagName with
  | some d => .ok (d.params.map (paramTemplate tagName))
  | none => .error (.unknownType ("@" ++ tagName))

end Memberwise
