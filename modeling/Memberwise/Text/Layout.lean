/-!
# Bracketed lists of texts

How the texts of compound things are put together: items between brackets, and
named records with their fields.
-/

namespace Memberwise.Text

/-- Items between two brackets, with a comma and a space between them. -/
def bracketed (opening : String) (items : List String) (closing : String) : String :=
  opening ++ ", ".intercalate items ++ closing

def listed (items : List String) : String :=
  bracketed "[" items "]"

/-- Pairs of texts between braces. -/
def paired (ps : List (String × String)) : String :=
  bracketed "\x7b" (ps.map fun p => p.1 ++ ": " ++ p.2) "\x7d"

/-- A record by its name and fields; an open one has more fields than it shows. -/
def record (name : String) (fields : List (String × String)) (isOpen : Bool) : String :=
  let shown := fields.map fun p => p.1 ++ ": " ++ p.2
  bracketed (name ++ " \x7b ") (shown ++ if isOpen then [".."] else []) " \x7d"

/-- A constructor applied to one argument. -/
def applied (name argument : String) : String :=
  name ++ "(" ++ argument ++ ")"

def optional : Option String → String
  | some text => applied "Some" text
  | none => "None"

def truth (b : Bool) : String :=
  if b then "true" else "false"

end Memberwise.Text
