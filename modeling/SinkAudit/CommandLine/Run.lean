import SinkAudit.Archive
import SinkAudit.CommandLine.Command
import SinkAudit.Project.Disk
import SinkAudit.Project.Scan

/-! # Running commands

A run prints, says things on the side, writes files and has an exit code, or breaks off after some
of this. Reports are rendered once for each format and then used wherever they are wanted. -/
namespace SinkAudit.CommandLine

/-- What is printed. -/
inductive Screen where
  | help
  | text (s : String)
  deriving DecidableEq, Repr

/-- What is written to a file. -/
inductive Content where
  | text (s : String)
  /-- Several texts, each under a name. -/
  | bundle (members : List (String × String))
  deriving DecidableEq, Repr

/-- The characters that are printed. -/
def Screen.shown : Screen → String
  | .help => helpText
  | .text s => s

/-- The bytes that are written. -/
def Content.bytes : Content → List UInt8
  | .text s => s.toUTF8.toList
  | .bundle members => Archive.ofTexts members

/-- Why a run breaks off. -/
inductive Failure where
  | error (e : Error)
  | report (fault : Report.Malformed)
  | write (fault : WriteFault)

def Failure.message : Failure → String
  | .error e => e.message
  | .report .notAnObject => "A report has another value where an object belongs"
  | .report .wrongKind => "A report has a value of the wrong kind"
  | .write fault => fault.message

/-- What comes of a run. A run that breaks off has printed, said and written what came before. -/
structure Result where
  exit : Except Failure Nat
  screen : Screen := .text ""
  /-- The lines said on the side. -/
  errors : List String := []
  /-- The files written, in order; of several for one path the last counts. -/
  written : List (Path × Content) := []

/-- The end of a run whose arguments are not acceptable. -/
def usageError (log : List String) (message : String) : Result :=
  { exit := .ok 2, errors := log ++ [Stop.line (.usage programName message)] }

/-! ## Reports -/

/-- Rendered reports by format. -/
abbrev Rendered := List (Report.Format × String)

/-- The report in a format, rendered only if it has not been. -/
def Rendered.get (done : Rendered) (report : Json) (format : Report.Format) :
    Except Report.Malformed (Rendered × String) :=
  match done.lookup format with
  | some text => .ok (done, text)
  | none => (format.render report).map fun text => (done ++ [(format, text)], text)

/-- The reports in some formats, each once, in order of first mention. -/
def renderAll (report : Json) (formats : List Report.Format) : Except Report.Malformed Rendered :=
  formats.foldlM (fun done format => (done.get report format).map (·.1)) []

/-- What is printed: the reports one after the other, numbered if there are several. -/
def screenText (done : Rendered) : String :=
  let total := toString done.length
  let banner (n : Nat) (format : Report.Format) : String :=
    if done.length > 1 then
      "--- " ++ format.name ++ " report " ++ toString (n + 1) ++ "/" ++ total ++ " ---\n"
    else ""
  String.join (done.zipIdx.map fun ((format, text), n) => banner n format ++ text ++ "\n")

/-- Takes steps until one fails, and keeps what the steps before it led to. -/
def advance {σ α ε : Type} (step : σ → α → Except ε σ) (state : σ) : List α → σ × Option ε
  | [] => (state, none)
  | item :: items =>
    match step state item with
    | .ok next => advance step next items
    | .error fault => (state, some fault)

/-- How far a delivery has come. -/
structure Delivery where
  disk : Disk
  done : Rendered
  written : List (Path × Content) := []

/-- Writes a report in a format to a file. -/
def Delivery.write (report : Json) (x : Delivery) (target : Report.Format × Path) :
    Except Failure Delivery := do
  let (disk, folder) ← (x.disk.makeFolder target.2).mapError .write
  let (done, text) ← (x.done.get report target.1).mapError .report
  let disk ← (disk.write folder target.2).mapError .write
  return { disk, done, written := x.written ++ [(target.2, .text text)] }

/-- The formats of a bundle. -/
def bundled : List Report.Format := [.json, .sarif, .csv]

/-- Adds a report in a format to a bundle. -/
def addMember (report : Json) (state : Rendered × List (String × String)) (format : Report.Format) :
    Except Failure (Rendered × List (String × String)) := do
  let (done, text) ← (state.1.get report format).mapError .report
  return (done, state.2 ++ [("report." ++ format.name, text)])

/-- Writes a bundle of reports. The file is there before its members are rendered. -/
def Delivery.bundle (report : Json) (x : Delivery) (path : Path) : Delivery × Option Failure :=
  match x.disk.save path with
  | .error fault => (x, some (.write fault))
  | .ok disk =>
    let ((done, members), failure) := advance (addMember report) (x.done, []) bundled
    ({ disk, done, written := x.written ++ [(path, .bundle members)] }, failure)

/-- Writes the bundle, if there is one, after all else has been written. -/
def Delivery.finish (report : Json) (bundle : Option Path) :
    Delivery × Option Failure → Delivery × Option Failure
  | (x, some failure) => (x, some failure)
  | (x, none) =>
    match bundle with
    | some path => x.bundle report path
    | none => (x, none)

/-- What becomes of a report: what is printed, the files that are written, and why this broke off if
it did. -/
structure Publication where
  shown : String := ""
  written : List (Path × Content) := []
  failure : Option Failure := none

/-- Prints a report in some formats, then writes it to one file after the other, and to a bundle if
there is one. -/
def publish (w : Workspace) (report : Json) (formats : List Report.Format)
    (targets : List (Report.Format × Path)) (bundle : Option Path) : Publication :=
  match renderAll report formats with
  | .error fault => { failure := some (.report fault) }
  | .ok done =>
    let begun : Delivery := { disk := w.disk, done }
    let (x, failure) := Delivery.finish report bundle (advance (Delivery.write report) begun targets)
    { shown := screenText done, written := x.written, failure }

/-! ## Commands -/

/-- What the request asks the configuration to be. -/
def ScanRequest.overrides (q : ScanRequest) : Members :=
  (q.severity.map fun r => ("severity", .str r.name)).toList ++
    if q.disabled.isEmpty then [] else [("disabled_checks", .strings q.disabled)]

/-- Loads the configuration and scans. -/
def ScanRequest.scan (q : ScanRequest) (w : Workspace) : Attempt (Config × ScanResult) := do
  let config ← w.loadConfig q.project q.config q.overrides
  return (config, ← w.scanProject config q.only fileLimit)

/-- Two where a finding is at least as bad as the wanted risk, zero otherwise. -/
def exitCode (failOn : Option Risk) (findings : List Finding) : Nat :=
  match failOn with
  | some level => if (Finding.atLeast level findings).isEmpty then 0 else 2
  | none => 0

/-- The formats and files of a request, or the first format that is not known. -/
def targetsOf (outputs : List (String × Path)) : Except String (List (Report.Format × Path)) :=
  outputs.mapM fun (name, path) =>
    match Report.Format.ofName? name with
    | some format => .ok (format, path)
    | none => .error name

/-- Prints and writes the reports of a scan. -/
def deliver (w : Workspace) (q : ScanRequest) (targets : List (Report.Format × Path))
    (log : List String) (config : Config) (result : ScanResult) : Result :=
  let formats := if q.formats.isEmpty then [.json] else q.formats
  let published := publish w (result.report config) formats targets q.bundle
  { exit := match published.failure with
      | some failure => .error failure
      | none => .ok (exitCode q.failOn result.findings)
    screen := .text published.shown
    errors := log
    written := published.written }

def ScanRequest.run (q : ScanRequest) (w : Workspace) (verbose : Bool) : Result :=
  if !w.isFolder q.project then
    usageError [] ("Project root does not exist: " ++ q.project.text)
  else
    let attempt := (q.scan w).run
    let log := (attempt.log.filter fun e => verbose || e.isWarning).map (·.text)
    match attempt.value with
    | .error e =>
      if e.isUsage then usageError log e.message else { exit := .error (.error e), errors := log }
    | .ok (config, result) =>
      match targetsOf q.outputs with
      | .error name => usageError log ("Unknown output format: " ++ name)
      | .ok targets => deliver w q targets log config result

/-- A text filled up with blanks to a width. -/
def padded (width : Nat) (s : String) : String :=
  s ++ String.ofList (List.replicate (width - s.length) ' ')

/-- The list of checks. -/
def checkList : String :=
  String.join (CheckKind.all.map fun kind => padded 18 kind.id ++ " " ++ kind.description ++ "\n")

/-- Runs the program with arguments in a workspace. -/
def run (w : Workspace) (args : List String) : Result :=
  match Invocation.read args with
  | .error .help => { exit := .ok 0, screen := .help }
  | .error stop => { exit := .ok 2, errors := [stop.line] }
  | .ok invocation =>
    match invocation.command with
    | .none => { exit := .ok 1, screen := .help }
    | .checks => { exit := .ok 0, screen := .text checkList }
    | .scan q => q.run w invocation.verbose

end SinkAudit.CommandLine
