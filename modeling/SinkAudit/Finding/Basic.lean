import SinkAudit.Path.Basic
import SinkAudit.Risk

/-! # Findings

A finding says where a sink is, how bad it is and what to do about it. -/
namespace SinkAudit

/-- A suggestion of what to write instead. It is advice and is never applied. -/
structure Fix where
  label : String
  template : String
  deriving DecidableEq, Repr

structure Finding where
  path : Path
  start : Position
  stop : Position
  /-- The identifier of the check that made the finding. -/
  check : String
  vulnerability : String
  risk : Risk
  message : String
  snippet : String
  remediation : List String := []
  alternatives : List String := []
  suggestions : List Fix := []
  effort : String := ""
  cwe : String := ""
  deriving DecidableEq, Repr

def Fix.toJson (f : Fix) : Json := .obj [("label", .str f.label), ("template", .str f.template)]

namespace Finding

def toJson (f : Finding) : Json :=
  .obj
    [("path", .str f.path.text),
     ("line", .int f.start.line),
     ("column", .int f.start.column),
     ("endLine", .int f.stop.line),
     ("endColumn", .int f.stop.column),
     ("check", .str f.check),
     ("vulnerability", .str f.vulnerability),
     ("risk", .str f.risk.name),
     ("message", .str f.message),
     ("snippet", .str f.snippet),
     ("remediation", Json.strings f.remediation),
     ("alternatives", Json.strings f.alternatives),
     ("suggestions", .arr (f.suggestions.map Fix.toJson)),
     ("effort", .str f.effort),
     ("cwe", .str f.cwe)]

/-- Order of reports: by path, then line, column and check. -/
def le (a b : Finding) : Bool :=
  if a.path.text != b.path.text then Text.le a.path.text b.path.text
  else if a.start.line != b.start.line then a.start.line < b.start.line
  else if a.start.column != b.start.column then a.start.column < b.start.column
  else Text.le a.check b.check

/-- Findings in order of report; equals keep their order. -/
def sort (fs : List Finding) : List Finding := fs.mergeSort le

/-- The findings that are at least as bad as a level. -/
def atLeast (level : Risk) (fs : List Finding) : List Finding :=
  fs.filter fun f => level.rank ≤ f.risk.rank

end Finding

end SinkAudit
