import SinkAudit.Report.Basic
import SinkAudit.Text.Case

/-! # Reports for reading -/
namespace SinkAudit.Report

/-- Texts with a separator between them. -/
def joined (separator : String) (items : List Json) : Except Malformed String := do
  let texts ← items.mapM fun
    | .str s => .ok s
    | _ => .error .wrongKind
  return separator.intercalate texts

/-- The first three steps of a list or the first three characters of a text. -/
def firstSteps (v : Json) : Except Malformed (List Json) :=
  match v with
  | .obj _ => .error .wrongKind
  | v => (parts v).map (·.take 3)

/-- A line for a member, if the member says something. -/
def optionalLine (finding : Json) (key : String) (line : Json → Except Malformed String) :
    Except Malformed (List String) := do
  match (← member? finding key).filter (·.truthy) with
  | none => return []
  | some v => return [← line v]

def headLine (finding : Json) : Except Malformed String := do
  let risk ← member finding "risk" (.str "")
  let shown (key : String) : Except Malformed String := return (← member finding key .null).text
  let place := (← shown "path") ++ ":" ++ (← shown "line") ++ ":" ++ (← shown "column")
  return "- [" ++ Text.upper risk.text ++ "] " ++ place ++ " " ++ (← shown "check") ++ ": " ++
    (← shown "message")

def findingLines (finding : Json) : Except Malformed (List String) := do
  let head ← headLine finding
  let code ← optionalLine finding "snippet" fun v => .ok ("    code: " ++ v.text)
  let instead ← optionalLine finding "alternatives" fun v => do
    return "    use instead: " ++ (← joined ", " (← parts v))
  let fix ← optionalLine finding "remediation" fun v => do
    return "    fix: " ++ (← joined " → " (← firstSteps v))
  let effort ← optionalLine finding "effort" fun v => .ok ("    effort: " ++ v.text)
  return head :: code ++ instead ++ fix ++ effort

/-- How many findings of each risk there are, as the report says. -/
def countsText (report : Json) : Except Malformed String := do
  let summary ← member report "summary" (.obj [])
  let counts ← ["critical", "high", "medium", "low"].mapM fun level => do
    return level ++ "=" ++ (← member summary level (.int 0)).text
  return ", ".intercalate counts

def human (report : Json) : Except Malformed String := do
  let root ← member report "projectRoot" .null
  let scanned ← member report "filesScanned" (.int 0)
  let counts ← countsText report
  let found ← findings report
  let lines ← found.mapM findingLines
  return "\n".intercalate
    (["Project: " ++ root.text,
      "Files scanned: " ++ scanned.text,
      "Findings: " ++ toString found.length ++ " (" ++ counts ++ ")"] ++ lines.flatten)

end SinkAudit.Report
