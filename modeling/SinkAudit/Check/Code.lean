import SinkAudit.Check.Basic

/-! # Evaluated code

Calls that run text as code. What the text seems to be meant for decides the advice. -/
namespace SinkAudit

/-- Objects whose members are global. -/
def globalObjects : List String := ["window", "globalThis", "global", "self"]

/-- Whether a call is bare or on a global object. -/
def CallTarget.isGlobal (target : CallTarget) : Bool := target.object.all globalObjects.contains

namespace Check.Code

/-- The name by which a call is looked up. -/
def sinkName? (s : Source) (i : Nat) : Option String :=
  let target := s.callTarget i
  if !target.isGlobal then none
  else if s.tree.kind i == .newExpression then target.method.filter (· == "Function")
  else target.method

/-- What the arguments of an evaluation seem to be meant for. -/
def categoryOf? (s : Source) (name : String) (arguments : List Nat) : Option SinkPattern :=
  if name == "eval" then
    Catalog.evaluationCategory.sink? (" ".intercalate (arguments.map s.text))
  else none

def inquiry (p : SinkPattern) (category : Option SinkPattern) (arguments : List Nat) : Inquiry where
  sink := some p
  arguments := arguments
  reportStatic := true
  remediation := category.map fun k => addSteps k.remediation p.remediation
  alternatives := category.map (·.safeAlternatives)
  effort := category.map (·.effort)

def handleCall (c : Check) (s : Source) (m : Memory) (i : Nat) : Handling :=
  match sinkName? s i with
  | none => m.silent
  | some name =>
    let arguments := s.tree.callArguments i
    match c.catalog.sink? name with
    | none => m.silent
    | some p =>
      if arguments.isEmpty || c.ignores [some (s.text i)] ||
          (name != "Function" && arguments.all s.tree.isLiteral) then m.silent
      else
        let category := categoryOf? s name arguments
        Memory.asks { m with category } (inquiry p category arguments)

/-- The advice to give. -/
def strategy (c : Check) (m : Memory) : Strategy :=
  match c.options.strategy with
  | .auto => if m.category.isSome then .refactor else .remove
  | given => given

/-- The first safe alternative to evaluation. -/
def alternative (m : Memory) (p : SinkPattern) : Except Fault String :=
  match (m.category.getD p).safeAlternatives with
  | a :: _ => .ok a
  | [] => .error .noAlternative

def advice (c : Check) (m : Memory) (p : SinkPattern) : Except Fault String :=
  match strategy c m with
  | .remove => .ok ("remove " ++ p.matcher ++ "() and call the intended code directly")
  | .validate => .ok "validate the input against an allow-list before evaluating it"
  | _ => (alternative m p).map ("refactor to " ++ ·)

def describe (c : Check) (m : Memory) (p : SinkPattern) (v : Verdict) : Except Fault String :=
  let code := if v.isTainted then "user-influenced code" else "non-literal code"
  (advice c m p).map fun a => p.matcher ++ "() evaluates " ++ code ++ "; " ++ a

def suggest (c : Check) (m : Memory) (p : SinkPattern) : Except Fault (List Fix) :=
  match strategy c m with
  | .remove =>
    .ok [{ label := "Remove dynamic evaluation"
           template := "// call the intended function directly" }]
  | .validate =>
    .ok [{ label := "Validate before evaluation"
           template := "if (!ALLOWED_EXPRESSIONS.includes(code)) " ++
             "throw new Error('Rejected expression');" }]
  | _ =>
    (alternative m p).map fun a =>
      [{ label := "Refactor to " ++ a, template := (m.category.getD p).sample.after }]

end Check.Code

end SinkAudit
