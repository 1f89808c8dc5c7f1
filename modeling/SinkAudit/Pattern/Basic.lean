import SinkAudit.Pattern.CharSet

/-! # Search patterns

The patterns that texts are searched for: sets of characters, sequences, alternatives, repetition,
groups and references to them, assertions. Matching is defined in `SinkAudit.Pattern.Matcher`, the
written form in `SinkAudit.Pattern.Reader`. -/
namespace SinkAudit

/-- Places in a text. -/
inductive Anchor where
  | textStart
  | lineStart
  /-- The end, or just before a line break that ends the text. -/
  | finalLine
  | lineEnd
  | textEnd
  | wordBoundary (ascii : Bool)
  | notWordBoundary (ascii : Bool)
  deriving DecidableEq, Repr

/-- In which order a repetition tries its lengths. -/
inductive Greed where
  | greedy
  | lazy
  /-- The longest first, and no other once that is found. -/
  | possessive
  deriving DecidableEq, Repr

inductive Pattern where
  | empty
  | one (set : CharSet)
  | seq (first second : Pattern)
  | alt (first second : Pattern)
  /-- At least `least` and at most `most` times. -/
  | rep (least : Nat) (most : Option Nat) (greed : Greed) (body : Pattern)
  /-- Remembers the text that `body` matched. -/
  | group (index : Nat) (body : Pattern)
  /-- The text that a group matched. -/
  | same (index : Nat) (folding : Folding)
  /-- The first way in which `body` matches, and no other. -/
  | atomic (body : Pattern)
  /-- What follows matches, or does not. -/
  | ahead (negated : Bool) (body : Pattern)
  /-- What stands before matches, or does not; `width` is the length of every match. -/
  | behind (negated : Bool) (width : Nat) (body : Pattern)
  /-- Continues according to whether a group has matched. -/
  | ifGroup (index : Nat) (yes no : Pattern)
  | anchor (place : Anchor)
  deriving DecidableEq, Repr

/-- The patterns one after the other. -/
def Pattern.sequence : List Pattern → Pattern
  | [] => .empty
  | [p] => p
  | p :: ps => .seq p (sequence ps)

/-- One of the patterns, tried in order. -/
def Pattern.choice : List Pattern → Pattern
  | [] => .empty
  | [p] => p
  | p :: ps => .alt p (choice ps)

end SinkAudit
