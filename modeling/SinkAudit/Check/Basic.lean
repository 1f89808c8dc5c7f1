import SinkAudit.Check.Kind
import SinkAudit.Finding.Emitter
import SinkAudit.Log
import SinkAudit.Options.Basic

/-! # Checks

A check has options and a memory. The memory is carried from node to node and from file to file:
what was learnt when a file was begun, what the node under evaluation is about, and the findings.
At each node of a file a check may ask for one evaluation. -/
namespace SinkAudit

structure Check where
  kind : CheckKind
  options : Options := {}

namespace Check

/-- The sinks that the check knows. -/
def catalog (c : Check) : Catalog :=
  match c.kind, Catalog.evaluation.sink? "eval" with
  | .code, some template =>
    Catalog.evaluation.withNames c.options.additionalEvalFunctions template
  | kind, _ => kind.sinks

/-- The methods that run commands. -/
def methods (c : Check) : List String := Catalog.commandMethods ++ c.options.additionalSinkMethods

/-- Whether one of some texts is to be ignored. -/
def ignores (c : Check) (texts : List (Option String)) : Bool := c.options.ignore.catches texts

end Check

/-- What a check remembers. -/
structure Memory where
  /-- Names of the process module in the file. -/
  aliases : List String := []
  /-- Names of methods of the process module in the file, each with the method. -/
  boundFunctions : List (String × String) := []
  /-- Whether the file sets headers by a library. -/
  usesHelmet : Bool := false
  /-- What the evaluated code is meant for. -/
  category : Option SinkPattern := none
  /-- The shape of the regular expression. -/
  shape : Option SinkPattern := none
  emitter : Emitter
  log : List Log.Entry := []
  deriving DecidableEq, Repr

/-- The memory of a check that has not yet run. -/
def Check.fresh (c : Check) : Memory := { emitter := { check := c.kind.id } }

/-- What is to be evaluated at a node. -/
structure Inquiry where
  /-- The sink, if it is known. -/
  sink : Option SinkPattern
  /-- The values that reach it. -/
  arguments : List Nat := []
  /-- Whether the sink's shape is a risk of its own. -/
  structural : Bool := false
  /-- Whether the sink is reported even if only fixed values reach it. -/
  reportStatic : Bool := false
  /-- The message, if it is not the usual one. -/
  message : Option String := none
  remediation : Option (List String) := none
  alternatives : Option (List String) := none
  effort : Option String := none
  deriving DecidableEq, Repr

/-- What a check asks for at a node. -/
inductive Request where
  | evaluate (inquiry : Inquiry)
  /-- A finding about the node whatever reaches it. -/
  | report (sink : Option SinkPattern) (risk : Risk) (message : String)
  deriving DecidableEq, Repr

/-- What a tree or a sink lacks for an evaluation. -/
inductive Fault where
  /-- The sink is in no catalog. -/
  | unknownSink
  /-- An assignment assigns to nothing. -/
  | noTarget
  /-- The sink has no safe alternative. -/
  | noAlternative
  deriving DecidableEq, Repr

/-- What a check does at a node: what it remembers, and what it asks for. -/
abbrev Handling := Except Fault (Memory × Option Request)

/-- Asks for nothing. -/
def Memory.silent (m : Memory) : Handling := .ok (m, none)

/-- Asks for an evaluation. -/
def Memory.asks (m : Memory) (inquiry : Inquiry) : Handling := .ok (m, some (.evaluate inquiry))

/-- What a message says in place of a name that is missing. -/
def nameOrNone (name : Option String) : String := name.getD "None"

end SinkAudit
