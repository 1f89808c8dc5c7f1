import SinkAudit.Pattern.Basic

/-! # Matching

A backtracking matcher. `run p s k` matches `p` at the cursor `s` and continues with `k`; the
first way in which both succeed is the result. A repetition stops when a round consumes nothing,
so it makes at most as many rounds as it has to, one for each remaining character, and one more. -/
namespace SinkAudit

/-- A place in a text, with what the groups have matched, latest first. -/
structure Cursor where
  /-- The characters passed, nearest first. -/
  before : List Char
  after : List Char
  position : Nat
  groups : List (Nat × List Char) := []
  deriving DecidableEq, Repr

namespace Cursor

def atStart (text : List Char) : Cursor := { before := [], after := text, position := 0 }

def group? (s : Cursor) (index : Nat) : Option (List Char) :=
  (s.groups.find? (·.1 == index)).map (·.2)

/-- The cursor after one more character. -/
def advance (s : Cursor) (c : Char) (rest : List Char) : Cursor :=
  { s with before := c :: s.before, after := rest, position := s.position + 1 }

/-- The cursor `n` characters earlier. -/
def retreat (s : Cursor) (n : Nat) : Cursor :=
  { s with
    before := s.before.drop n
    after := (s.before.take n).reverse ++ s.after
    position := s.position - n }

/-- Remembers for a group the text between two cursors. -/
def record (s start : Cursor) (index : Nat) : Cursor :=
  { s with groups := (index, start.after.take (s.position - start.position)) :: s.groups }

/-- Passes the characters of a text, compared as `folding` says. -/
def follow (folding : Folding) : List Char → Cursor → Option Cursor
  | [], s => some s
  | c :: cs, s =>
    match s.after with
    | d :: rest =>
      if folding.apply c == folding.apply d then follow folding cs (s.advance d rest) else none
    | [] => none

def isWord (ascii : Bool) : List Char → Bool
  | c :: _ => Category.word.holds ascii c
  | [] => false

/-- Whether word and non-word meet here; nowhere in an empty text. -/
def atBoundary (s : Cursor) (ascii : Bool) : Bool := isWord ascii s.before != isWord ascii s.after

def isEmptyText (s : Cursor) : Bool := s.before.isEmpty && s.after.isEmpty

end Cursor

def Anchor.holds (s : Cursor) : Anchor → Bool
  | .textStart => s.before.isEmpty
  | .lineStart => s.before.isEmpty || s.before.head? == some '\n'
  | .finalLine => s.after.isEmpty || s.after == ['\n']
  | .lineEnd => s.after.isEmpty || s.after.head? == some '\n'
  | .textEnd => s.after.isEmpty
  | .wordBoundary ascii => !s.isEmptyText && s.atBoundary ascii
  | .notWordBoundary ascii => !s.isEmptyText && !s.atBoundary ascii

/-- A way to match at a cursor and to continue. -/
abbrev Run := Cursor → (Cursor → Option Cursor) → Option Cursor

def Pattern.mayRepeat (most : Option Nat) (count : Nat) : Bool := most.all (count < ·)

/-- A repetition that tries one more round before it goes on. -/
def repeatGreedy (body : Run) (least : Nat) (most : Option Nat) (k : Cursor → Option Cursor) :
    Nat → Nat → Cursor → Option Cursor
  | 0, _, _ => none
  | fuel + 1, count, s =>
    if count < least then body s (repeatGreedy body least most k fuel (count + 1))
    else if Pattern.mayRepeat most count then
      match body s fun t =>
        if t.position == s.position then k t
        else repeatGreedy body least most k fuel (count + 1) t with
      | some r => some r
      | none => k s
    else k s

/-- A repetition that goes on before it tries one more round. -/
def repeatLazy (body : Run) (least : Nat) (most : Option Nat) (k : Cursor → Option Cursor) :
    Nat → Nat → Cursor → Option Cursor
  | 0, _, _ => none
  | fuel + 1, count, s =>
    if count < least then body s (repeatLazy body least most k fuel (count + 1))
    else
      match k s with
      | some r => some r
      | none =>
        if Pattern.mayRepeat most count then
          body s fun t =>
            if t.position == s.position then k t
            else repeatLazy body least most k fuel (count + 1) t
        else none

/-- A repetition that settles each round and its number of rounds before it goes on. -/
def repeatPossessive (body : Run) (least : Nat) (most : Option Nat)
    (k : Cursor → Option Cursor) : Nat → Nat → Cursor → Option Cursor
  | 0, _, _ => none
  | fuel + 1, count, s =>
    if count < least then
      match body s some with
      | some t => repeatPossessive body least most k fuel (count + 1) t
      | none => none
    else if Pattern.mayRepeat most count then
      match body s some with
      | some t =>
        if t.position == s.position then k t
        else repeatPossessive body least most k fuel (count + 1) t
      | none => k s
    else k s

/-- More rounds than a repetition can make. -/
def repeatFuel (least : Nat) (s : Cursor) : Nat := least + s.after.length + 2

namespace Pattern

/-- Matches a pattern at a cursor and continues with `k`. -/
def run : Pattern → Run
  | .empty, s, k => k s
  | .one set, s, k =>
    match s.after with
    | c :: rest => if set.accepts c then k (s.advance c rest) else none
    | [] => none
  | .seq first second, s, k => first.run s fun t => second.run t k
  | .alt first second, s, k =>
    match first.run s k with
    | some r => some r
    | none => second.run s k
  | .rep least most .greedy body, s, k =>
    repeatGreedy body.run least most k (repeatFuel least s) 0 s
  | .rep least most .lazy body, s, k =>
    repeatLazy body.run least most k (repeatFuel least s) 0 s
  | .rep least most .possessive body, s, k =>
    repeatPossessive body.run least most k (repeatFuel least s) 0 s
  | .group index body, s, k => body.run s fun t => k (t.record s index)
  | .same index folding, s, k =>
    match s.group? index with
    | some text => (Cursor.follow folding text s).bind k
    | none => none
  | .atomic body, s, k => (body.run s some).bind k
  | .ahead negated body, s, k =>
    match body.run s some with
    | some t => if negated then none else k { s with groups := t.groups }
    | none => if negated then k s else none
  | .behind negated width body, s, k =>
    if s.before.length < width then if negated then k s else none
    else
      match body.run (s.retreat width) some with
      | some t => if negated then none else k { s with groups := t.groups }
      | none => if negated then k s else none
  | .ifGroup index yes no, s, k =>
    match s.group? index with
    | some _ => yes.run s k
    | none => no.run s k
  | .anchor place, s, k => if place.holds s then k s else none

/-- The first match at or after the cursor whose remaining characters are given. -/
def searchFrom (p : Pattern) : List Char → Cursor → Option Cursor
  | [], s => p.run s some
  | c :: rest, s =>
    match p.run s some with
    | some t => some t
    | none => searchFrom p rest (s.advance c rest)

/-- Whether the pattern matches somewhere in a text. -/
def occursIn (p : Pattern) (text : List Char) : Bool :=
  (p.searchFrom text (.atStart text)).isSome

def search (p : Pattern) (text : String) : Bool := p.occursIn text.toList

end Pattern

end SinkAudit
