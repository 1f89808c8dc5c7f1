import SinkAudit.Log
import SinkAudit.Pattern.Matcher
import SinkAudit.Pattern.Reader
import SinkAudit.Text.Find
import SinkAudit.Text.Quoted

/-! # Ignore lists

A text is ignored if it holds a match of one of a list of patterns. An entry that is no pattern is
looked for as it is written, in any case. -/
namespace SinkAudit

structure IgnoreEntry where
  written : String
  /-- The pattern, if the entry is one. -/
  pattern : Option Pattern
  deriving DecidableEq, Repr

abbrev IgnoreList := List IgnoreEntry

def IgnoreEntry.catches (e : IgnoreEntry) (text : String) : Bool :=
  match e.pattern with
  | some p => p.search text
  | none => Text.contains (Text.lower text) (Text.lower e.written)

/-- Reads an entry; one that is no pattern is complained of. -/
def IgnoreEntry.read (written : String) : ExceptT Pattern.Fault Logged IgnoreEntry :=
  match Pattern.compile written with
  | .ok p => return { written, pattern := some p }
  | .error .malformed => do
    Logged.warn .config <| "Invalid ignore pattern " ++ Text.quoted written ++
      " (<re.error>); using substring match"
    return { written, pattern := none }
  | .error fault => throw fault

namespace IgnoreList

/-- Reads entries; empty ones are left out. -/
def read (entries : List String) : ExceptT Pattern.Fault Logged IgnoreList :=
  (entries.filter (!·.isEmpty)).mapM IgnoreEntry.read

/-- Whether one of some texts is ignored; missing and empty ones are not. -/
def catches (l : IgnoreList) (texts : List (Option String)) : Bool :=
  l.any fun e => texts.any fun text => text.any fun t => !t.isEmpty && e.catches t

end IgnoreList

end SinkAudit
