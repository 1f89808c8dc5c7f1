import SinkAudit.Taint.Input
import SinkAudit.Taint.Sanitizer
import SinkAudit.Taint.Validation
import SinkAudit.Tree.Scope

/-! # Taint

What is known about a value that reaches a sink. Only the value, what stands around it below the
sink, and a few statements before the sink are looked at. -/
namespace SinkAudit

structure Verdict where
  isDynamic : Bool
  isSanitized : Bool
  sanitizer : Option String := none
  deriving DecidableEq, Repr

namespace Verdict

def isTainted (v : Verdict) : Bool := v.isDynamic && !v.isSanitized

/-- Whether a statement before the sink is what makes the value safe. -/
def isValidated (v : Verdict) : Bool := v.sanitizer.any (Text.startsWith · "validation:")

/-- The verdict on a value that is fixed. -/
def static : Verdict := { isDynamic := false, isSanitized := true }

end Verdict

/-- How a value comes to a sink. -/
inductive Exposure where
  /-- It is fixed. -/
  | static
  /-- It passes through a sanitizer, whose call is given. -/
  | sanitized (call : String)
  /-- A statement before the sink looks like a validation. -/
  | validated (signature : String)
  | tainted
  deriving DecidableEq, Repr

def Exposure.verdict : Exposure → Verdict
  | .static => .static
  | .sanitized call => { isDynamic := true, isSanitized := true, sanitizer := some call }
  | .validated signature =>
    { isDynamic := true, isSanitized := true, sanitizer := some ("validation:" ++ signature) }
  | .tainted => { isDynamic := true, isSanitized := false }

/-- What makes values safe. -/
structure Exemptions where
  /-- Names of libraries whose calls are sanitizers. -/
  trusted : List String := []
  /-- How many statements before a sink may validate. -/
  lookback : Nat := 5
  deriving DecidableEq, Repr

namespace Source

/-- The statements that may validate what reaches a node. -/
def window (s : Source) (lookback : Nat) (i : Nat) : List Nat :=
  s.tree.precedingStatements i (s.tree.enclosingScope i) lookback

/-- How a value comes to a sink; without a sink, how it comes to where it stands. -/
def exposure (s : Source) (exempt : Exemptions) (sink : Option Nat) (i : Nat) : Exposure :=
  if !s.looksLikeUserInput i && !s.tree.isDynamic i then .static
  else
    match s.findSanitizer (sink.map s.tree.key) exempt.trusted i with
    | some call => .sanitized call
    | none =>
      match s.findValidation (s.window exempt.lookback (sink.getD i)) with
      | some signature => .validated signature
      | none => .tainted

end Source

end SinkAudit
