import Memberwise.Registry.Builder

/-!
# Built-in tags

The constraint tags that every registry may start with, each enforced by a
validator of its own name, and the mark `flag`.
-/

namespace Memberwise.BuiltIn

def notNull : String := "not_null"
def notEmpty : String := "not_empty"
def min : String := "min"
def max : String := "max"
def length : String := "length"
def pattern : String := "pattern"
def valid : String := "valid"
def valids : String := "valids"
def flag : String := "flag"

/-- A tag enforced by the validator of its name. -/
def enforced (name : String) (params : List TagParameter) (mergesElements : Bool) : TagDraft :=
  ⟨name, params, some name, [], mergesElements⟩

/-- The parameters of a numeric bound. -/
def boundParams : List TagParameter :=
  [⟨"value", .float, none⟩, ⟨"delta", .float, some (.float 0)⟩,
   ⟨"inclusive", .bool, some (.bool true)⟩]

/-- The parameters of a bound on lengths. -/
def lengthParams : List TagParameter :=
  [⟨"min", .int, some (.int 0)⟩, ⟨"max", .int, some (.int Int64.maxValue)⟩,
   ⟨"trim", .bool, some (.bool false)⟩]

def drafts : List TagDraft :=
  [enforced notNull [] false,
   enforced notEmpty [] false,
   enforced min boundParams false,
   enforced max boundParams false,
   enforced length lengthParams false,
   enforced pattern [⟨"regex", .string, none⟩] false,
   enforced valid [] true,
   enforced valids [] true,
   .plain flag]

/-- A builder with the built-in tags. -/
def builder : Builder :=
  Builder.empty.declareAll (drafts.map .tag)

end Memberwise.BuiltIn
