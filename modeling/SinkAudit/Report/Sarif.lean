import SinkAudit.Check.Kind
import SinkAudit.Json.Printer
import SinkAudit.Report.Basic

/-! # Reports for exchange

The static analysis results interchange format: one run, with a rule for each check that ran and a
result for each finding. -/
namespace SinkAudit.Report

def sarifSchema : String := "https://json.schemastore.org/sarif-2.1.0.json"

/-- The level of a result. -/
def sarifLevel (risk : String) : String :=
  (([("critical", "error"), ("high", "error"), ("medium", "warning"), ("low", "note")] :
    List (String × String)).lookup risk).getD "warning"

def sarifRule (kind : CheckKind) : Json :=
  .obj
    [("id", .str kind.id),
     ("name", .str kind.ruleName),
     ("shortDescription", .obj [("text", .str kind.description)]),
     ("properties", .obj [("vulnerability", .str kind.vulnerability)])]

/-- The check that a value names. A value that has parts names none and cannot be looked up. -/
def checkNamed : Json → Except Malformed (Option CheckKind)
  | .str id => .ok (CheckKind.ofId? id)
  | .arr _ | .obj _ => .error .wrongKind
  | _ => .ok none

def sarifRules (report : Json) : Except Malformed (List Json) := do
  let kinds ← (← parts (← member report "checks" (.arr []))).mapM checkNamed
  return (kinds.filterMap id).map sarifRule

def sarifRegion (finding : Json) : Except Malformed Json := do
  let line ← member finding "line" (.int 1)
  let column ← member finding "column" (.int 1)
  return .obj
    [("startLine", line),
     ("startColumn", column),
     ("endLine", ← member finding "endLine" line),
     ("endColumn", ← member finding "endColumn" column),
     ("snippet", .obj [("text", ← member finding "snippet" (.str ""))])]

def sarifLocation (finding : Json) : Except Malformed Json := do
  let path := (← member finding "path" (.str "")).text
  return .obj
    [("physicalLocation", .obj
      [("artifactLocation", .obj [("uri", .str (Text.replaceChar '\\' '/' path))]),
       ("region", ← sarifRegion finding)])]

def sarifResult (finding : Json) : Except Malformed Json := do
  let risk := (← member finding "risk" (.str "medium")).text
  return .obj
    [("ruleId", ← member finding "check" .null),
     ("level", .str (sarifLevel risk)),
     ("message", .obj [("text", ← member finding "message" (.str ""))]),
     ("locations", .arr [← sarifLocation finding]),
     ("properties", .obj
       [("risk", .str risk),
        ("vulnerability", ← member finding "vulnerability" .null),
        ("cwe", ← member finding "cwe" .null),
        ("effort", ← member finding "effort" .null),
        ("remediation", ← member finding "remediation" (.arr [])),
        ("alternatives", ← member finding "alternatives" (.arr []))])]

/-- The document of a report. -/
def sarifDocument (report : Json) : Except Malformed Json := do
  let rules ← sarifRules report
  let results ← (← findings report).mapM sarifResult
  let invocation : Json := .obj
    [("executionSuccessful", .bool true),
     ("properties", .obj
       [("filesScanned", ← member report "filesScanned" (.int 0)),
        ("truncated", ← member report "truncated" (.bool false)),
        ("summary", ← member report "summary" (.obj []))])]
  let tool : Json := .obj [("driver", .obj [("name", .str "SinkScan"), ("rules", .arr rules)])]
  return .obj
    [("$schema", .str sarifSchema),
     ("version", .str "2.1.0"),
     ("runs", .arr
       [.obj [("tool", tool), ("results", .arr results), ("invocations", .arr [invocation])]])]

def sarif (report : Json) : Except Malformed String := (sarifDocument report).map Json.render

end SinkAudit.Report
