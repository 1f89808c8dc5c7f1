import SinkAudit.Text.Case
import SinkAudit.Text.Find

/-! # Paths

A path is a list of names below a root or below nothing. Empty names and single dots say nothing
and are left out; double dots are kept. -/
namespace SinkAudit

structure Path where
  /-- What an absolute path starts with: one slash, or two. -/
  root : String := ""
  parts : List String := []
  deriving DecidableEq, Repr

namespace Path

/-- The names between the slashes of a text. -/
def namesOf (cs : List Char) : List String :=
  ((cs.splitOn '/').map String.ofList).filter fun name => name != "" && name != "."

def rootOf (cs : List Char) : String :=
  match (cs.takeWhile (· == '/')).length with
  | 0 => ""
  | 2 => "//"
  | _ => "/"

def ofText (s : String) : Path := { root := rootOf s.toList, parts := namesOf s.toList }

/-- The path as it is written; the empty path is a dot. -/
def text (p : Path) : String :=
  if p.root.isEmpty && p.parts.isEmpty then "." else p.root ++ "/".intercalate p.parts

def isAbsolute (p : Path) : Bool := !p.root.isEmpty

/-- The second path as seen from the first. -/
def join (p q : Path) : Path := if q.isAbsolute then q else { p with parts := p.parts ++ q.parts }

/-- The last name. -/
def name (p : Path) : String := p.parts.getLast?.getD ""

def parent (p : Path) : Path := { p with parts := p.parts.dropLast }

/-- Where the last dot of a name divides it, unless the dot comes first or last. -/
def divide (cs : List Char) : Option (List Char × List Char) :=
  let ending := (cs.reverse.takeWhile (· != '.')).reverse
  let stem := cs.take (cs.length - ending.length - 1)
  if cs.contains '.' && !ending.isEmpty && !stem.isEmpty then some (stem, '.' :: ending) else none

/-- A name's ending with its dot. -/
def suffixOf (name : String) : String :=
  match divide name.toList with
  | some (_, ending) => String.ofList ending
  | none => ""

/-- A name without its ending. -/
def stemOf (name : String) : String :=
  match divide name.toList with
  | some (stem, _) => String.ofList stem
  | none => name

def suffix (p : Path) : String := suffixOf p.name

/-- The ending in lower case, by which the language of a file is known. -/
def extension (p : Path) : String := Text.lower p.suffix

/-- Whether the name says that the file holds tests. -/
def isTest (p : Path) : Bool :=
  [".test", ".spec"].contains (Text.lower (suffixOf (stemOf p.name)))

/-- The names of a path after those of another, if it lies below. -/
def below? (p base : Path) : Option Path :=
  if p.root == base.root && base.parts.isPrefixOf p.parts then
    some { parts := p.parts.drop base.parts.length }
  else none

/-- Removes each double dot together with the name before it. -/
def resolveParts : List String → List String → List String
  | done, [] => done.reverse
  | done, name :: names =>
    if name == ".." then resolveParts (done.drop 1) names else resolveParts (name :: done) names

/-- An absolute path without double dots. -/
def resolve (p : Path) : Path := { p with parts := resolveParts [] p.parts }

/-- Order of lists of names. -/
def leParts : List String → List String → Bool
  | [], _ => true
  | _ :: _, [] => false
  | a :: as, b :: bs => if a == b then leParts as bs else Text.le a b

/-- Order of paths, name by name. -/
def le (p q : Path) : Bool := leParts (p.root :: p.parts) (q.root :: q.parts)

end Path

/-- The grammar in which a file is read. -/
inductive Grammar where
  | javaScript
  | typeScript
  | typeScriptMarkup
  deriving DecidableEq, Repr

namespace Grammar

/-- The grammar for an ending in lower case. -/
def ofExtension? (extension : String) : Option Grammar :=
  if [".ts", ".mts", ".cts"].contains extension then some .typeScript
  else if extension == ".tsx" then some .typeScriptMarkup
  else if [".js", ".mjs", ".cjs", ".jsx"].contains extension then some .javaScript
  else none

end Grammar

end SinkAudit
