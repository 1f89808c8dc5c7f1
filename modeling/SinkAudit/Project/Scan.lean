import SinkAudit.Project.Settings
import SinkAudit.Scan

/-! # Scanning a project

The files of a project are scanned in order by the same checks. The findings of all files are put
in order and those below the wanted risk are left out. -/
namespace SinkAudit

structure ScanResult where
  root : Path
  findings : List Finding := []
  filesScanned : Nat := 0
  filesSkipped : Nat := 0
  /-- Whether files were left out because there are too many. -/
  truncated : Bool := false
  /-- The checks that were run. -/
  checks : List String := []
  severity : String := "low"

namespace ScanResult

/-- How many findings of a risk there are. -/
def count (r : ScanResult) (risk : Risk) : Nat := r.findings.countP fun f => f.risk == risk

def toMembers (r : ScanResult) : Members :=
  [("projectRoot", .str r.root.text),
   ("filesScanned", .int r.filesScanned),
   ("filesSkipped", .int r.filesSkipped),
   ("truncated", .bool r.truncated),
   ("checks", .strings r.checks),
   ("severity", .str r.severity),
   ("summary", .obj (Risk.all.map fun risk => (risk.name, .int (r.count risk)))),
   ("findings", .arr (r.findings.map Finding.toJson))]

/-- The report of a scan: its result and the configuration. -/
def report (r : ScanResult) (config : Config) : Json :=
  .obj (r.toMembers ++ [("config", config.toJson)])

end ScanResult

/-- The most files that are scanned unless another number is asked for. -/
def fileLimit : Nat := 400

/-- The checks of a project: those that are enabled and, if some are asked for, among them. -/
def Config.selectChecks (c : Config) (only : List String) : Attempt (List Check) := do
  let unknown := only.filter fun id => (CheckKind.ofId? id).isNone
  unless unknown.isEmpty do throw (.unknownChecks unknown)
  let ids := (CheckKind.all.map (·.id)).filter fun id =>
    c.isEnabled id && (only.isEmpty || only.contains id)
  let options ← ids.mapM fun id => do return (id, ← c.optionsFor id)
  Attempt.ofExcept id (Check.select options ids)

/-- What is known after some files. -/
structure Progress where
  checkers : List Checker
  findings : List Finding := []
  scanned : Nat := 0
  skipped : Nat := 0

/-- Scans one more file. -/
def Progress.scan (p : Progress) (f : SourceFile) : Attempt Progress := do
  if (Grammar.ofExtension? f.path.extension).isNone then
    return { p with skipped := p.skipped + 1 }
  else
    Logged.debug .scanner ("Scanning " ++ f.path.text)
    let (checkers, found) ← scanSource p.checkers f.path.suffix f.source f.path
    return { p with checkers, findings := p.findings ++ found, scanned := p.scanned + 1 }

namespace Workspace

/-- Scans the project with a configuration. `limit` is the most files that are scanned. -/
def scanProject (w : Workspace) (config : Config) (only : List String) (limit : Int) :
    Attempt ScanResult := do
  let checks ← config.selectChecks only
  let files := w.sourceFiles config.root scannedExtensions config.ignore
  let progress ← (files.take limit.toNat).foldlM Progress.scan
    { checkers := checks.map Checker.ofCheck }
  let truncated := limit.toNat < files.length
  if truncated then
    Logged.warn .scanner
      ("Stopping after " ++ toString limit ++ " files; remaining files were not scanned")
  match Risk.ofName? config.severity with
  | none => throw (.unknownRisk (.str config.severity))
  | some level =>
    return {
      root := config.root
      findings := Finding.atLeast level (Finding.sort progress.findings)
      filesScanned := progress.scanned
      filesSkipped := progress.skipped
      truncated
      checks := checks.map (·.kind.id)
      severity := config.severity }

/-- Scans a single file with fresh checks; a path that leads to no file has no findings. -/
def scanFile (w : Workspace) (checks : List Check) (path : Path) : Attempt (List Finding) :=
  match w.entry? path with
  | some (.file f) => do
    return (← scanSource (checks.map Checker.ofCheck) path.suffix f.source path).2
  | _ => return []

end Workspace

end SinkAudit
