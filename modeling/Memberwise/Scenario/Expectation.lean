import Memberwise.Constraint.Report
import Memberwise.Scenario.Error

/-!
# Expectations

What the outcome of a validation must look like.  The parts of an expectation
are checked in a fixed order, and the first one that fails is explained.
-/

namespace Memberwise

/-- Whether a text begins with another one. -/
def Text.startsWith : (part text : List Char) → Bool
  | [], _ => true
  | _ :: _, [] => false
  | a :: part, b :: text => a == b && startsWith part text

/-- Whether a text occurs in another one. -/
def Text.occursIn (part : List Char) : List Char → Bool
  | [] => part.isEmpty
  | c :: text => startsWith part (c :: text) || occursIn part text

structure Expectation where
  valid : Option Bool
  count : Option Nat
  /-- Paths that must be invalid, with tags that must be among the violated ones. -/
  invalid : List (String × List String)
  absent : List String
  /-- The values that must stand at invalid paths. -/
  values : List (String × Value)
  /-- A text that the message of an expected error contains. -/
  error : Option String
  custom : Option (Report → Bool)

namespace Expectation

/-- Expects nothing but that there is no error. -/
def any : Expectation := ⟨none, none, [], [], [], none, none⟩

def expectValid (e : Expectation) : Expectation :=
  { e with valid := some true }

def expectInvalid (e : Expectation) : Expectation :=
  { e with valid := some false }

def withCount (e : Expectation) (n : Nat) : Expectation :=
  { e with count := some n }

/-- Expects an invalid path, and so an invalid container. -/
def withInvalid (e : Expectation) (path : String) (tags : List String) : Expectation :=
  { e with valid := some false, invalid := e.invalid ++ [(path, tags)] }

def withAbsent (e : Expectation) (path : String) : Expectation :=
  { e with absent := e.absent ++ [path] }

def withValue (e : Expectation) (path : String) (value : Value) : Expectation :=
  { e with values := e.values ++ [(path, value)] }

def withError (e : Expectation) (part : String) : Expectation :=
  { e with error := some part }

def withCustom (e : Expectation) (check : Report → Bool) : Expectation :=
  { e with custom := some check }

/-- The paths of a report as explanations list them. -/
def shownPaths (r : Report) : String :=
  Text.listed (r.paths.map Text.quoted)

/-- Checks of an expected error. -/
def verifyError (part : String) : Except ConstraintError Report → Except String Unit
  | .error e =>
    if Text.occursIn part.toList e.message.toList then .ok ()
    else .error ("expected error containing '" ++ part ++ "', got: " ++ e.message)
  | .ok _ =>
    .error ("expected error containing '" ++ part ++ "', but validation succeeded")

def verifyValid (r : Report) (valid : Bool) : Except String Unit :=
  if r.isValid == valid then .ok ()
  else
    .error ("expected " ++ (if valid then "valid" else "invalid") ++ ", got invalid paths " ++
      shownPaths r)

def verifyCount (r : Report) (n : Nat) : Except String Unit :=
  if r.size = n then .ok ()
  else
    .error ("expected " ++ toString n ++ " invalid element(s), got " ++ toString r.size ++ ": " ++
      shownPaths r)

def verifyTag (path : String) (e : InvalidElement) (tag : String) : Except String Unit :=
  if e.violates tag then .ok ()
  else .error ("'" ++ path ++ "' does not violate @" ++ tag)

def verifyInvalid (r : Report) (wanted : String × List String) : Except String Unit :=
  match r.element? wanted.1 with
  | some e => wanted.2.forM (verifyTag wanted.1 e)
  | none => .error ("no invalid element at '" ++ wanted.1 ++ "', got " ++ shownPaths r)

def verifyAbsent (r : Report) (path : String) : Except String Unit :=
  if (r.element? path).isSome then .error ("unexpected invalid element at '" ++ path ++ "'")
  else .ok ()

def verifyValue (h : Heap) (r : Report) (wanted : String × Value) : Except String Unit :=
  match r.element? wanted.1 with
  | some e =>
    if e.value.same wanted.2 then .ok ()
    else
      .error ("'" ++ wanted.1 ++ "' holds " ++ e.value.display h ++ ", expected " ++
        wanted.2.display h)
  | none => .error ("no invalid element at '" ++ wanted.1 ++ "'")

def verifyReport (e : Expectation) (h : Heap) (r : Report) : Except String Unit := do
  e.valid.forM (verifyValid r)
  e.count.forM (verifyCount r)
  e.invalid.forM (verifyInvalid r)
  e.absent.forM (verifyAbsent r)
  e.values.forM (verifyValue h r)
  if e.custom.any fun check => !check r then throw "custom assertion failed"

/-- Explains what is wrong with an outcome. -/
def explain (e : Expectation) (h : Heap) (outcome : Except ConstraintError Report) :
    Except String Unit :=
  match e.error, outcome with
  | some part, _ => verifyError part outcome
  | none, .ok r => e.verifyReport h r
  | none, .error fault => .error ("unexpected error: " ++ fault.message)

/-- Checks the outcome of a step. -/
def verify (e : Expectation) (h : Heap) (step : String)
    (outcome : Except ConstraintError Report) : Except ScenarioError Unit :=
  (e.explain h outcome).mapError (.assertionFailed step)

/-- The diagnostic text of an expectation. -/
def inspect (h : Heap) (e : Expectation) : String :=
  let pair (path shown : String) := "(" ++ Text.quoted path ++ ", " ++ shown ++ ")"
  Text.record "Expect"
    [("valid", Text.optional (e.valid.map Text.truth)),
     ("count", Text.optional (e.count.map toString)),
     ("invalid", Text.listed (e.invalid.map fun w =>
        pair w.1 (Text.listed (w.2.map Text.quoted)))),
     ("absent", Text.listed (e.absent.map Text.quoted)),
     ("values", Text.listed (e.values.map fun w => pair w.1 (w.2.inspect h))),
     ("error", Text.optional (e.error.map Text.quoted)),
     ("custom", Text.optional (e.custom.map fun _ => Text.quoted "<fn>"))] false

end Expectation

end Memberwise
