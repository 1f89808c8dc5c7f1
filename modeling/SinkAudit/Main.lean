import SinkAudit.CommandLine.Run
import SinkAudit.Json.Reader
import SinkAudit.Project.Snapshot

/-! # The program

The program reads a snapshot of a project from its input, runs the command that its arguments ask
for, and prints and writes what results. A command that needs no project runs without input. -/
namespace SinkAudit.CommandLine

/-- The workspace that the program's input shows; blank input shows an empty one. -/
def workspaceIn? (input : String) : Option Workspace :=
  if (Text.trim input).isEmpty then some { root := .ofText "/" }
  else (Json.parse input).bind Workspace.ofJson?

/-- Writes a file together with the folders above it. -/
def writeFile (path : Path) (content : Content) : IO Unit := do
  IO.FS.createDirAll path.parent.text
  IO.FS.writeBinFile path.text ⟨content.bytes.toArray⟩

/-- Prints and writes what a run results in. -/
def perform (w : Workspace) (result : Result) : IO UInt32 := do
  result.errors.forM IO.eprintln
  IO.print result.screen.shown
  result.written.forM fun (path, content) => writeFile (w.root.join path) content
  match result.exit with
  | .ok code => return code.toUInt32
  | .error failure =>
    IO.eprintln failure.message
    return 1

end SinkAudit.CommandLine

open SinkAudit CommandLine in
/-- Runs the program. -/
def main (args : List String) : IO UInt32 := do
  match workspaceIn? (← (← IO.getStdin).readToEnd) with
  | none =>
    IO.eprintln "The input is no snapshot of a project"
    return 1
  | some w => perform w (run w args)
