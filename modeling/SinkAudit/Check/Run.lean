import SinkAudit.Check.Code
import SinkAudit.Check.Command
import SinkAudit.Check.Cookie
import SinkAudit.Check.Header
import SinkAudit.Check.Markup
import SinkAudit.Check.Redirect
import SinkAudit.Check.Regex
import SinkAudit.Error
import SinkAudit.Options.Reader

/-! # Running checks

A check visits the nodes of a file in the order of its text. What it asks for at a node is
evaluated at once: values that are made safe are dropped, the rest is classified and reported. -/
namespace SinkAudit.Check

/-- What a finding says about a sink and the verdict on what reaches it. -/
def describe (c : Check) (m : Memory) (p : SinkPattern) (v : Verdict) : Except Fault String :=
  match c.kind with
  | .command => .ok (Command.describe p v)
  | .code => Code.describe c m p v
  | .regex => .ok (Regex.describe c m p v)
  | .markup => .ok (Markup.describe p)
  | .redirect => .ok (Redirect.describe p)
  | .cookie => .ok (Cookie.describe v)
  | _ =>
    let value := if v.isTainted then "user-influenced value" else "value"
    .ok (p.name ++ ": " ++ value ++ " reaches a " ++ p.vulnerability ++ " sink")

/-- What a finding suggests to write instead. -/
def suggest (c : Check) (s : Source) (m : Memory) (p : SinkPattern) (i : Nat) :
    Except Fault (List Fix) :=
  match c.kind with
  | .command => .ok (Command.suggest s p i)
  | .code => Code.suggest c m p
  | .regex => .ok Regex.suggestions
  | .markup => Markup.suggest s i
  | .redirect => .ok Redirect.suggestions
  | .cookie => .ok (Cookie.suggest s p i)
  | .header => .ok (Header.suggest s i)
  | .plain => .ok []

/-- How the values of an inquiry come to the sink. -/
def exposures (c : Check) (s : Source) (i : Nat) (arguments : List Nat) : List Exposure :=
  arguments.map (s.exposure c.options.exemptions (some i))

/-- What is said about a value that a statement before the sink makes safe. -/
def exposureLog (s : Source) (i : Nat) : Exposure → List Log.Entry
  | .validated signature =>
    [{ level := .debug
       area := .taint
       message := "validation " ++ Text.quoted signature ++ " found before line " ++
         toString (s.startOf i).line }]
  | _ => []

/-- Whether a sink is reported, and with which verdict, given the verdicts on what reaches it: not
if everything dynamic is made safe, and if nothing is dynamic only if asked for. -/
def decisive? (verdicts : List Verdict) (reportStatic : Bool) : Option Verdict :=
  let dynamic := verdicts.filter (·.isDynamic)
  if dynamic.isEmpty then if reportStatic then some .static else none
  else dynamic.find? (·.isTainted)

/-- The finding about a node, with the verdict on what reaches it. -/
def findingFor (c : Check) (s : Source) (m : Memory) (i : Nat) (q : Inquiry) (v : Verdict) :
    Except Fault Finding :=
  match q.sink with
  | none => .error .unknownSink
  | some p => do
    let message ← match q.message.filter (!·.isEmpty) with
      | some message => pure message
      | none => describe c m p v
    let suggestions ← suggest c s m p i
    return m.emitter.finding s i p (.classify p v q.structural) message
      { suggestions, remediation := q.remediation, alternatives := q.alternatives
        effort := q.effort }

/-- Evaluates an inquiry about a node. -/
def evaluate (c : Check) (s : Source) (m : Memory) (i : Nat) (q : Inquiry) :
    Except Fault (Memory × Option Finding) :=
  let found := exposures c s i q.arguments
  let m := { m with log := m.log ++ found.flatMap (exposureLog s i) }
  match decisive? (found.map (·.verdict)) (q.reportStatic || q.structural) with
  | none => .ok (m, none)
  | some v => (findingFor c s m i q v).map fun f => ({ m with emitter := m.emitter.push f }, some f)

/-- Does what a check asks for at a node. -/
def answer (c : Check) (s : Source) (m : Memory) (i : Nat) : Option Request → Except Fault Memory
  | none => .ok m
  | some (.evaluate q) => (evaluate c s m i q).map (·.1)
  | some (.report sink risk message) =>
    match sink with
    | none => .error .unknownSink
    | some p =>
      .ok { m with emitter := m.emitter.push (m.emitter.finding s i p risk message {}) }

/-- What a check does at a node. -/
def handle (c : Check) (s : Source) (m : Memory) (i : Nat) : Handling :=
  let kind := s.tree.kind i
  match c.kind with
  | .plain => m.silent
  | .command => if kind.isCall then Command.handleCall c s m i else m.silent
  | .code => if kind.isCall then Code.handleCall c s m i else m.silent
  | .regex =>
    if kind.isCall then Regex.handleCall c s m i
    else if kind == .regex then Regex.handleLiteral c s m i
    else m.silent
  | .markup =>
    if kind.isCall then Markup.handleCall c s m i
    else if kind.isAssignment then Markup.handleAssignment c s m i
    else if kind == .jsxAttribute then Markup.handleAttribute c s m i
    else m.silent
  | .redirect =>
    if kind.isCall then Redirect.handleCall c s m i
    else if kind.isAssignment then Redirect.handleAssignment c s m i
    else m.silent
  | .cookie =>
    if kind.isCall then Cookie.handleCall c s m i
    else if kind.isAssignment then Cookie.handleAssignment c s m i
    else if kind == .memberExpression then Cookie.handleMember c s m i
    else m.silent
  | .header => if kind.isCall then Header.handleCall c s m i else m.silent

/-- Visits a node. -/
def visit (c : Check) (s : Source) (m : Memory) (i : Nat) : Except Fault Memory := do
  let (m, request) ← handle c s m i
  answer c s m i request

/-- Learns what the visits to a file's nodes need. -/
def prepare (c : Check) (s : Source) (m : Memory) : Memory :=
  match c.kind with
  | .command => Command.prepare c s m
  | .header => Header.prepare s m
  | _ => m

/-- Whether a file is left out because it holds tests. -/
def skips (c : Check) (path : Path) : Bool := c.options.ignoreInTests.truthy && path.isTest

/-- Begins a file. -/
def start (m : Memory) (path : Path) : Memory :=
  { m with emitter := m.emitter.reset path, log := [] }

/-- Runs a check over a file. The findings are in the emitter of the memory that results. -/
def run (c : Check) (s : Source) (path : Path) (m : Memory) : Except Fault Memory :=
  let m := start m path
  if c.skips path then
    let message := c.kind.id ++ ": skipping test file " ++ path.text
    .ok { m with log := [{ level := .debug, area := .engine, message }] }
  else s.tree.all.foldlM (visit c s) (prepare c s m)

/-! ## Sets of checks -/

/-- A check with the options that it has without configuration. -/
def ofKind (kind : CheckKind) : Check :=
  { kind, options := { ignoreInTests := .bool (Options.quietInTests.contains kind.id) } }

/-- All checks without configuration. -/
def defaults : List Check := CheckKind.all.map ofKind

/-- The checks with the given identifiers, in their own order, with the options given for them. -/
def select (options : List (String × Options)) (enabled : List String) :
    Except Error (List Check) :=
  let unknown := enabled.filter fun id => (CheckKind.ofId? id).isNone
  if unknown.isEmpty then
    .ok ((CheckKind.all.filter fun kind => enabled.contains kind.id).map fun kind =>
      match options.lookup kind.id with
      | some o => { kind, options := o }
      | none => ofKind kind)
  else .error (.unknownChecks (Text.sort (Text.distinct unknown)))

end SinkAudit.Check
