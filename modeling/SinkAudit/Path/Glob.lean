import SinkAudit.Path.Basic
import SinkAudit.Pattern.Reader

/-! # Wild cards

A star stands for any text, also across slashes, a question mark for one character, and brackets
for one of the characters that they list. An exclamation mark first in brackets turns the list
round; ranges that hold nothing are left out of it. -/
namespace SinkAudit.Path

inductive GlobItem where
  | anything
  | one (set : CharSet)
  deriving DecidableEq, Repr

abbrev Glob := List GlobItem

namespace Glob

def anyOne : CharSet := { items := [], negated := true }

def never : CharSet := { items := [] }

/-- The inside of brackets and what follows them; a closing bracket that comes first belongs to
the inside. -/
def bracketed? (cs : List Char) : Option (List Char × List Char) :=
  let mark := if cs.head? == some '!' then ['!'] else []
  let cs := cs.drop mark.length
  let first := if cs.head? == some ']' then [']'] else []
  let cs := cs.drop first.length
  let inside := cs.takeWhile (· != ']')
  match cs.drop inside.length with
  | _ :: rest => some (mark ++ first ++ inside, rest)
  | [] => none

/-- The pieces between the hyphens that make ranges; `wait` counts the characters, among them
hyphens, that belong to the piece at hand. -/
def pieces : Nat → List Char → List Char → List (List Char)
  | _, held, [] => [held.reverse]
  | 0, held, c :: cs => if c == '-' then held.reverse :: pieces 2 [] cs else pieces 0 (c :: held) cs
  | wait + 1, held, c :: cs => pieces wait (c :: held) cs

/-- A hyphen at the end belongs to the last piece. -/
def closePieces : List (List Char) → List (List Char)
  | [p, []] => [p ++ ['-']]
  | p :: ps => p :: closePieces ps
  | [] => []

/-- Puts a piece before others, without the range between them if it holds nothing. -/
def joinPiece (p : List Char) : List (List Char) → List (List Char)
  | [] => [p]
  | q :: qs =>
    match p.getLast?, q.head? with
    | some a, some b => if b.toNat < a.toNat then (p.dropLast ++ q.drop 1) :: qs else p :: q :: qs
    | _, _ => p :: q :: qs

def escaped (c : Char) : List Char := if "\\-&~|".toList.contains c then ['\\', c] else [c]

/-- The inside of brackets as the inside of a class of a pattern. -/
def classText (inside : List Char) : List Char :=
  let wait := if inside.head? == some '!' then 2 else 1
  let ps := (closePieces (pieces wait [] inside)).foldr joinPiece []
  ['-'].intercalate (ps.map (·.flatMap escaped))

/-- The characters that brackets stand for. -/
def bracketSet (inside : List Char) : CharSet :=
  let read (cs : List Char) : CharSet :=
    match Pattern.compile (String.ofList ('[' :: cs ++ [']'])) with
    | .ok (.one set) => set
    | _ => never
  match classText inside with
  | [] => never
  | ['!'] => anyOne
  | '!' :: cs => read ('^' :: cs)
  | '^' :: cs => read ('\\' :: '^' :: cs)
  | '[' :: cs => read ('\\' :: '[' :: cs)
  | cs => read cs

def readItems : Nat → List Char → Glob
  | 0, _ => []
  | _, [] => []
  | fuel + 1, c :: cs =>
    if c == '*' then .anything :: readItems fuel cs
    else if c == '?' then .one anyOne :: readItems fuel cs
    else
      let itself := GlobItem.one { items := [.char c.toNat] }
      if c == '[' then
        match bracketed? cs with
        | some (inside, rest) => .one (bracketSet inside) :: readItems fuel rest
        | none => itself :: readItems fuel cs
      else itself :: readItems fuel cs

def read (s : String) : Glob := readItems s.length s.toList

/-- Whether a whole text is what a glob stands for. -/
def covers : Glob → List Char → Bool
  | [], cs => cs.isEmpty
  | .anything :: g, [] => covers g []
  | .anything :: g, c :: cs => covers g (c :: cs) || covers (.anything :: g) cs
  | .one _ :: _, [] => false
  | .one set :: g, c :: cs => set.accepts c && covers g cs
termination_by g cs => g.length + cs.length

end Glob

/-- Whether a path is ignored: one of the patterns is a name on it or stands for all of it. -/
def isIgnored (p : Path) (patterns : List String) : Bool :=
  let names := if p.isAbsolute then p.root :: p.parts else p.parts
  patterns.any fun pattern =>
    !pattern.isEmpty &&
      (names.contains pattern || (Glob.read pattern).covers p.text.toList)

end SinkAudit.Path
