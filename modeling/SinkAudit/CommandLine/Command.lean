import SinkAudit.Check.Kind
import SinkAudit.CommandLine.Reader
import SinkAudit.Path.Basic
import SinkAudit.Report.Format
import SinkAudit.Risk

/-! # Commands

Two commands: one scans a project, the other lists the checks. -/
namespace SinkAudit.CommandLine

def programName : String := "sinkscan"

def helpOption : OptionSpec := { key := .help, names := ["-h", "--help"], arity := 0 }

/-- The options before the command. -/
def mainInterface : Interface where
  program := programName
  options := [helpOption, { key := .verbose, names := ["-v", "--verbose"], arity := 0 }]
  commands := ["scan", "checks"]

def riskNames : List String := Risk.all.map (·.name)

def checkIds : List String := Text.sort (CheckKind.all.map (·.id))

def formatNames : List String := Text.sort (Report.Format.all.map (·.name))

/-- The options of a scan. -/
def scanInterface : Interface where
  program := programName ++ " scan"
  options :=
    [helpOption,
     { key := .project, names := ["--project"] },
     { key := .config, names := ["--config"] },
     { key := .severity, names := ["--severity"], choices := some riskNames },
     { key := .check, names := ["--check"], choices := some checkIds },
     { key := .disable, names := ["--disable"], choices := some checkIds },
     { key := .format, names := ["--format"], choices := some formatNames },
     { key := .output, names := ["--output"], arity := 2 },
     { key := .bundle, names := ["--bundle"] },
     { key := .failOn, names := ["--fail-on"], choices := some riskNames }]

/-- The list of checks has no options of its own. -/
def checksInterface : Interface where
  program := programName ++ " checks"
  options := [helpOption]

/-- How the program is used. -/
def helpText : String :=
  "usage: " ++ programName ++ " [-h] [-v] \x7bscan,checks\x7d ...\n\n" ++
  "  -h, --help              show this text\n" ++
  "  -v, --verbose           say more on the side\n\n" ++
  "scan                      scan a project\n" ++
  "  --project PATH          the project, by default the working folder\n" ++
  "  --config PATH           a configuration file beside the project's own\n" ++
  "  --severity RISK         the least risk to report\n" ++
  "  --check ID              run only this check (repeatable)\n" ++
  "  --disable ID            leave out this check (repeatable)\n" ++
  "  --format FORMAT         print the report in this format (repeatable)\n" ++
  "  --output FORMAT PATH    write the report to a file (repeatable)\n" ++
  "  --bundle PATH           write an archive of reports\n" ++
  "  --fail-on RISK          exit with status 2 if a finding is as bad\n\n" ++
  "checks                    list the checks\n"

/-- What is asked of a scan. -/
structure ScanRequest where
  project : Path := {}
  config : Option Path := none
  severity : Option Risk := none
  only : List String := []
  disabled : List String := []
  formats : List Report.Format := []
  /-- Formats and the files for them. -/
  outputs : List (String × Path) := []
  bundle : Option Path := none
  failOn : Option Risk := none

inductive Command where
  /-- No command: help is printed. -/
  | none
  | scan (request : ScanRequest)
  | checks

structure Invocation where
  verbose : Bool := false
  command : Command := .none

/-- The path that a text names, unless the text is empty. -/
def pathUnlessEmpty (s : Option String) : Option Path :=
  (s.filter (!·.isEmpty)).map Path.ofText

def pairOf? : List String → Option (String × Path)
  | [format, path] => some (format, .ofText path)
  | _ => none

def scanRequest (a : Arguments) : ScanRequest where
  project := .ofText ((a.last? .project).getD ".")
  config := pathUnlessEmpty (a.last? .config)
  severity := (a.last? .severity).bind Risk.ofName?
  only := a.list .check
  disabled := a.list .disable
  formats := (a.list .format).filterMap Report.Format.ofName?
  outputs := (a.all .output).filterMap pairOf?
  bundle := pathUnlessEmpty (a.last? .bundle)
  failOn := (a.last? .failOn).bind Risk.ofName?

/-- Reads a command with its arguments, and returns also those that mean nothing. -/
def readCommand (name : String) (args : List String) : Except Stop (Command × List String) :=
  if name == "scan" then do
    let a ← scanInterface.read args
    return (.scan (scanRequest a), a.unknown)
  else if name == "checks" then do
    let a ← checksInterface.read args
    return (.checks, a.unknown)
  else
    mainInterface.usage ("argument command: invalid choice: " ++ Text.quoted name ++
      " (choose from " ++ ", ".intercalate (mainInterface.commands.map Text.quoted) ++ ")")

/-- Reads all arguments of the program. -/
def Invocation.read (args : List String) : Except Stop Invocation := do
  let a ← mainInterface.read args
  let (command, unknown) ← match a.command with
    | some (name :: rest) => readCommand name rest
    | _ => .ok (.none, [])
  let unknown := a.unknown ++ unknown
  if unknown.isEmpty then return { verbose := a.has .verbose, command }
  else mainInterface.usage ("unrecognized arguments: " ++ " ".intercalate unknown)

end SinkAudit.CommandLine
