import SinkAudit.Report.Human
import SinkAudit.Report.Sarif
import SinkAudit.Text.Find

/-! # Formats of reports

A report is given as it is, as SARIF, for reading, or as a table. A table has one line for the names
of the columns and one for each finding. Commas and line breaks inside of fields are replaced, so
fields and lines can be told apart without quotes. -/
namespace SinkAudit.Report

/-! ## Tables -/

def csvColumns : List String :=
  ["risk", "check", "vulnerability", "cwe", "path", "line", "column", "message", "snippet"]

/-- A field without commas and line breaks. -/
def csvField (s : String) : String := Text.replaceChar '\n' ' ' (Text.replaceChar ',' ';' s)

def csvRow (finding : Json) : Except Malformed String := do
  let values ← csvColumns.mapM fun column => member finding column (.str "")
  return ",".intercalate (values.map fun v => csvField v.text)

def csv (report : Json) : Except Malformed String := do
  let rows ← (← findings report).mapM csvRow
  return "\n".intercalate (",".intercalate csvColumns :: rows)

/-! ## The choice of a format -/

inductive Format where
  | json
  | sarif
  | human
  | csv
  deriving DecidableEq, Repr

namespace Format

def all : List Format := [.json, .sarif, .human, .csv]

def name : Format → String
  | .json => "json"
  | .sarif => "sarif"
  | .human => "human"
  | .csv => "csv"

def ofName? (s : String) : Option Format := all.find? (·.name == s)

/-- The text of a report in a format. -/
def render (report : Json) : Format → Except Malformed String
  | .json => .ok report.render
  | .sarif => Report.sarif report
  | .human => Report.human report
  | .csv => Report.csv report

end Format

end SinkAudit.Report
