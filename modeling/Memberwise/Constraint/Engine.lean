import Memberwise.Constraint.Factory

/-!
# The engine

An engine validates containers: it goes through the members, lets the checkers
of their tags judge the values, and reports what they find.  Checkers may
start it again on values inside, one level further down each time, and the
number of levels is bounded.  So a run ends on every graph of containers, and on
a cyclic one that is not cut off earlier with an error.
-/

namespace Memberwise

structure EngineConfig where
  /-- Validates inherited members too. -/
  deep : Bool
  /-- How many levels a run may go down. -/
  maxDepth : Nat
  deriving DecidableEq

def EngineConfig.standard : EngineConfig := ⟨true, 32⟩

structure Engine where
  factory : Factory
  filter : Option MemberPredicate
  config : EngineConfig
  depth : Nat

/-- What a checker said on behalf of a tag. -/
structure Judgement where
  tag : Tag
  verdict : Verdict

/-- Builds the checker of a tag outside of any run. -/
abbrev Creator := Tag → Query ConstraintError (Option Checker)

namespace Engine

/-- An engine whose registry has not been checked. -/
def unchecked (f : Factory) (config : EngineConfig) : Engine :=
  ⟨f, none, config, 0⟩

def catalog (e : Engine) : CatalogRef :=
  e.factory.catalog

/-- Validates only members for which a predicate holds, in place of any filter of before. -/
def filtered (e : Engine) (p : MemberPredicate) : Engine :=
  { e with filter := some p }

def unfiltered (e : Engine) : Engine :=
  { e with filter := none }

def accepts (e : Engine) (m : Member) : Bool :=
  e.filter.all fun p => p m

/-- How many levels the engine may still go down. -/
def levels (e : Engine) : Nat :=
  e.config.maxDepth - e.depth

/-- The engine one level further down. -/
def nested (e : Engine) : Except ConstraintError Engine :=
  if e.depth < e.config.maxDepth then .ok { e with depth := e.depth + 1 }
  else .error (.depthExceeded e.config.maxDepth)

/-- Lets the checkers of tags judge a value, in order; marks have no say. -/
def judge (f : Factory) (ctx : Tag → Context) (h : Heap) (value : Value) :
    List Tag → Query ConstraintError (List Judgement)
  | [] => pure []
  | t :: rest => do
    match ← f.resolve (ctx t) with
    | none => judge f ctx h value rest
    | some checker => do
      let verdict ← checker h value
      return ⟨t, verdict⟩ :: (← judge f ctx h value rest)

/-- The tags whose checkers did not find the value valid. -/
def violated (js : List Judgement) : List Tag :=
  (js.filter fun j => !j.verdict.isValid).map (·.tag)

/-- What was found inside the value on behalf of tags that report it. -/
def inside (r : Registry) (js : List Judgement) : List InvalidElement :=
  js.flatMap fun j => if r.mergesElements j.tag then j.verdict.elements else []

/-- What is reported of a member: the findings inside its value under its name,
then the member itself if it violates tags. -/
def reported (r : Registry) (m : Member) (value : Value) (js : List Judgement) :
    List InvalidElement :=
  (inside r js).map (·.under m.name) ++
    if (violated js).isEmpty then [] else [.ofMember m value (violated js)]

/-- What is found at a member of a container.  Members without constraints are
not even read, and those that cannot be read are passed over. -/
def memberElements (e : Engine) (create : Creator) (running : Running) (h : Heap)
    (target : Value) (m : Member) : Query ConstraintError (List InvalidElement) := do
  let r ← Query.registry e.catalog
  if m.tags.any r.isConstraint && m.readable then do
    let value ← (m.readIn h target).mapError .element
    let ctx t := ⟨t, some m, some target, running, create⟩
    let js ← judge e.factory ctx h value m.tags
    return reported r m value js
  else pure []

/-- What is found at members of a container, in order. -/
def elementsOf (e : Engine) (create : Creator) (running : Running) (h : Heap)
    (target : Value) : List Member → Query ConstraintError (List InvalidElement)
  | [] => pure []
  | m :: rest => do
    let found ← e.memberElements create running h target m
    return found ++ (← e.elementsOf create running h target rest)

/-- The engine as its validators see it, given how it goes further down. -/
def running (e : Engine) (nested : Option MemberPredicate → Except ConstraintError Run) :
    Running :=
  ⟨e.catalog, e.filter, e.depth, nested⟩

/-- A run, given how it goes further down. -/
def runWith (e : Engine) (create : Creator)
    (nested : Option MemberPredicate → Except ConstraintError Run) : Run := fun h target => do
  let members ← (e.catalog.membersOf h target e.config.deep).mapError .element
  let found ← e.elementsOf create (e.running nested) h target (members.filter e.accepts)
  return .ofElements target found

/-- The runs that an engine may start further down, by the number of levels left. -/
def inner (create : Creator) :
    Nat → Engine → Option MemberPredicate → Except ConstraintError Run
  | 0, e, _ => .error (.depthExceeded e.config.maxDepth)
  | n + 1, e, filter =>
    let e := { e with filter := filter, depth := e.depth + 1 }
    .ok (e.runWith create (inner create n e))

end Engine

namespace Factory

/-- Builds the checker of a tag outside of any run, for a fresh engine.  The
checker may itself have others built, within a number of steps. -/
def createWithin (f : Factory) : Nat → Creator
  | 0, _ => throw (.depthExceeded EngineConfig.standard.maxDepth)
  | n + 1, t =>
    let e := Engine.unchecked f .standard
    let create := f.createWithin n
    f.resolve ⟨t, none, none, e.running (Engine.inner create e.levels e), create⟩

/-- Steps enough to build the checker of every tag for every container, since
building one again for the same container would never end. -/
def createSteps (f : Factory) (h : Heap) : Query ConstraintError Nat := do
  let r ← Query.registry f.catalog
  return (r.tags.length + 1) * (h.size + 2)

/-- Builds the checker of a tag outside of any run.  Only the tag, a fresh
engine and the factory are at hand. -/
def create (f : Factory) (h : Heap) : Creator := fun t => do
  f.createWithin (← f.createSteps h) t

end Factory

namespace Engine

/-- The engine as validators see it that are built for it. -/
def asRunning (e : Engine) (h : Heap) : Running :=
  e.running (inner (e.factory.create h) e.levels e)

/-- Validates every member of a container. -/
def validate (e : Engine) : Run := fun h target =>
  let create := e.factory.create h
  e.runWith create (inner create e.levels e) h target

/-- Validates one bound member. -/
def validateMember (e : Engine) (h : Heap) (m : Member) : Query ConstraintError Report :=
  match m.target with
  | none => throw (.element (.nonSpecific m.name))
  | some target => do
    let found ← e.memberElements (e.factory.create h) (e.asRunning h) h target m
    return .ofElements target found

/-- Checks the tags of members. -/
def checkMembers (f : Factory) (r : Registry) (ms : List Member) :
    Except ConstraintError Unit :=
  ms.forM fun m => m.tags.forM fun t => f.check r t m.name m.declaredType

/-- Checks every tag on the own members of types. -/
def checkTypes (f : Factory) (r : Registry) :
    List TypeDefinition → Query ConstraintError Unit
  | [] => pure ()
  | d :: rest => do
    let ms ← (f.catalog.membersOfType (.object d.name) false).mapError .element
    Query.ofExcept (checkMembers f r ms)
    checkTypes f r rest

/-- An engine over the registry of a factory, in which every tag must be one
that can be enforced on the member that it stands on. -/
def withConfig (f : Factory) (config : EngineConfig) : Query ConstraintError Engine := do
  let r ← Query.registry f.catalog
  checkTypes f r r.allTypes
  return unchecked f config

end Engine

end Memberwise
