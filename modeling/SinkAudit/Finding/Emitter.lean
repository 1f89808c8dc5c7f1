import SinkAudit.Finding.Basic
import SinkAudit.Remediation

/-! # Emitters

An emitter makes the findings of one check and remembers which scopes the check has claimed. Both
memories are emptied when a new file is begun. -/
namespace SinkAudit

/-- The most characters that a snippet has. -/
def snippetLimit : Nat := 200

/-- The words of a text with single spaces between, cut to the limit. -/
def snippetOf (text : String) : String :=
  let cs := (" ".intercalate (Text.words text)).toList
  if cs.length > snippetLimit then String.ofList (cs.take (snippetLimit - 3)) ++ "..."
  else String.ofList cs

/-- What a finding says beside what the sink says; what is missing is taken from the sink. -/
structure Advice where
  suggestions : List Fix := []
  remediation : Option (List String) := none
  alternatives : Option (List String) := none
  effort : Option String := none
  deriving DecidableEq, Repr

structure Emitter where
  check : String
  path : Path := { parts := ["<memory>"] }
  findings : List Finding := []
  /-- The keys of the scopes that have been claimed. -/
  claimed : List Tree.Key := []
  deriving DecidableEq, Repr

namespace Emitter

/-- Begins a new file. -/
def reset (e : Emitter) (path : Path) : Emitter := { check := e.check, path }

/-- Claims a scope; the answer says whether it was free. -/
def claim (e : Emitter) (key : Tree.Key) : Emitter × Bool :=
  if e.claimed.contains key then (e, false) else ({ e with claimed := e.claimed ++ [key] }, true)

/-- The finding about a node. -/
def finding (e : Emitter) (s : Source) (i : Nat) (p : SinkPattern) (risk : Risk) (message : String)
    (advice : Advice) : Finding where
  path := e.path
  start := s.startOf i
  stop := s.stopOf i
  check := e.check
  vulnerability := p.vulnerability
  risk := risk
  message := message
  snippet := snippetOf (s.text i)
  remediation := advice.remediation.getD p.steps
  alternatives := advice.alternatives.getD p.safeAlternatives
  suggestions := advice.suggestions
  effort := (Source.firstText advice.effort (some p.effort)).getD ""
  cwe := p.cwe

/-- Holds one more finding. -/
def push (e : Emitter) (f : Finding) : Emitter := { e with findings := e.findings ++ [f] }

end Emitter

end SinkAudit
