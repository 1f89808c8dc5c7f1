import SinkAudit.Json.Display
import SinkAudit.Sink.Basic
import SinkAudit.Taint.Verdict

/-! # Risk

Four levels, in order. The level of a finding follows from the sink, from what reaches it, and from
whether its shape is a risk of its own. -/
namespace SinkAudit

inductive Risk where
  | low
  | medium
  | high
  | critical
  deriving DecidableEq, Repr

namespace Risk

def name : Risk → String
  | .low => "low"
  | .medium => "medium"
  | .high => "high"
  | .critical => "critical"

def rank : Risk → Nat
  | .low => 0
  | .medium => 1
  | .high => 2
  | .critical => 3

def all : List Risk := [.low, .medium, .high, .critical]

/-- The level that a word names, in any case. -/
def ofName? (s : String) : Option Risk := all.find? (·.name == Text.lower s)

/-- The level that a value names. -/
def ofJson? (v : Json) : Option Risk := ofName? v.text

/-- What is said of a value that names no level. -/
def unknown (v : Json) : String := "Unknown risk level: " ++ v.display

def classify (p : SinkPattern) (v : Verdict) (structural : Bool) : Risk :=
  if v.isTainted && (p.dangerous || structural) then .critical
  else if p.dangerous || v.isTainted then .high
  else .medium

end Risk

end SinkAudit
