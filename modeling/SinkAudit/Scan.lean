import SinkAudit.Check.Run

/-! # Scanning a file

The same checks scan one file after the other. The findings of all checks about a file are put in
order of their place. -/
namespace SinkAudit

/-- A check and what it remembers. -/
structure Checker where
  check : Check
  memory : Memory

namespace Checker

def ofCheck (c : Check) : Checker := { check := c, memory := c.fresh }

/-- Runs the check over a file. -/
def run (k : Checker) (s : Source) (path : Path) : Except Fault Checker :=
  (k.check.run s path k.memory).map fun memory => { k with memory }

def findings (k : Checker) : List Finding := k.memory.emitter.findings

def log (k : Checker) : List Log.Entry := k.memory.log

/-- Runs checks over a file, one after the other. -/
def runAll (ks : List Checker) (s : Source) (path : Path) : Except Fault (List Checker) :=
  ks.mapM fun k => k.run s path

/-- The findings of checks that have run, in order of report. -/
def report (ks : List Checker) : List Finding := Finding.sort (ks.flatMap findings)

end Checker

/-- Scans a file whose name has the given ending, and returns the checks as they are then with the
findings. A file of another kind has none. -/
def scanSource (ks : List Checker) (extension : String) (s : Source) (path : Path) :
    Attempt (List Checker × List Finding) :=
  match Grammar.ofExtension? (Text.lower extension) with
  | none => do
    Logged.debug .scanner ("No parser for extension " ++ extension)
    return (ks, [])
  | some _ => do
    let ks ← Attempt.ofExcept .analysis (Checker.runAll ks s path)
    (⟨(), ks.flatMap Checker.log⟩ : Logged Unit)
    return (ks, Checker.report ks)

end SinkAudit
