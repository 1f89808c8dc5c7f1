import SinkAudit.Pattern.Matcher
import SinkAudit.Pattern.Reader
import SinkAudit.Tree.Source

/-! # Sinks

A sink is a dangerous form of call, found by name or by a search pattern, together with the
guidance that findings about it carry. Catalogs list sinks in the order in which they are tried. -/
namespace SinkAudit

/-- How a sink is recognised. -/
inductive MatchKind where
  /-- By being equal to the matcher. -/
  | name
  /-- By holding a match of the matcher, a pattern without regard to case. -/
  | search
  /-- A word that is not known, which means the same as `name`. -/
  | other (word : String)
  deriving DecidableEq, Repr

namespace MatchKind

def word : MatchKind → String
  | .name => "name"
  | .search => "regex"
  | .other w => w

def ofWord (w : String) : MatchKind :=
  if w == "name" then .name else if w == "regex" then .search else .other w

end MatchKind

/-- Code that has a fault, and code that does the same without it. -/
structure Sample where
  before : String := ""
  after : String := ""
  deriving DecidableEq, Repr

structure SinkPattern where
  matcher : String
  /-- The class of the vulnerability. -/
  vulnerability : String
  /-- Whether the sink is a risk whatever reaches it. -/
  dangerous : Bool
  safeAlternatives : List String := []
  sample : Sample := {}
  effort : String := "15-30 minutes"
  riskTier : String := "medium"
  matchKind : MatchKind := .name
  remediation : List String := []
  label : String := ""
  deriving DecidableEq, Repr

/-- The weaknesses, by class, in the common enumeration. -/
def weaknesses : List (String × String) :=
  [("command-injection", "CWE-78"),
   ("argument-injection", "CWE-88"),
   ("path-injection", "CWE-22"),
   ("code-injection", "CWE-95"),
   ("redos", "CWE-1333"),
   ("xss", "CWE-79"),
   ("open-redirect", "CWE-601"),
   ("missing-header", "CWE-693"),
   ("insecure-cookie", "CWE-614")]

def weaknessOf (vulnerability : String) : String := (weaknesses.lookup vulnerability).getD "CWE-20"

namespace SinkPattern

def cwe (p : SinkPattern) : String := weaknessOf p.vulnerability

/-- What the sink is called in messages. -/
def name (p : SinkPattern) : String := if p.label.isEmpty then p.matcher else p.label

/-- Refuses a matcher that should be a pattern and is none. -/
def check (p : SinkPattern) : Except Pattern.Fault SinkPattern :=
  match p.matchKind with
  | .search => (Pattern.compileFolded p.matcher).map fun _ => p
  | _ => .ok p

/-- Whether a text is recognised as this sink. -/
def recognises (p : SinkPattern) (text : String) : Bool :=
  match p.matchKind with
  | .search =>
    match Pattern.compileFolded p.matcher with
    | .ok q => q.search text
    | .error _ => false
  | _ => text == p.matcher

/-- The sink for which nothing is listed. -/
def generic (vulnerability : String) (matcher : String := "dynamic") : SinkPattern where
  matcher := matcher
  vulnerability := vulnerability
  dangerous := false
  safeAlternatives := ["Validate and constrain the value before it reaches the sink"]

/-- The same sink under another name. -/
def renamed (p : SinkPattern) (name : String) : SinkPattern :=
  { p with matcher := name, matchKind := .name, label := "" }

end SinkPattern

abbrev Catalog := List SinkPattern

namespace Catalog

/-- The first sink that recognises a text. -/
def sink? (c : Catalog) (text : String) : Option SinkPattern := c.find? (·.recognises text)

/-- The sink of a name that may be missing. -/
def sinkOf? (c : Catalog) (text : Option String) : Option SinkPattern := text.bind c.sink?

/-- The catalog followed by sinks like `template` under other names; empty names are left out. -/
def withNames (c : Catalog) (names : List String) (template : SinkPattern) : Catalog :=
  c ++ (names.filter (!·.isEmpty)).map template.renamed

end Catalog

/-- Whether a call is a given sink: by its text or by the name of what it calls. -/
def Source.isSinkCall (s : Source) (p : SinkPattern) (i : Nat) : Bool :=
  (s.tree.kind i).isCall &&
    match p.matchKind with
    | .search => p.recognises (Text.trim (s.text i))
    | _ => (s.calleeName? i).any p.recognises

end SinkAudit
