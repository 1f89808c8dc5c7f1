/-! # Tables of characters

A character property is kept as a list of ranges of code points, a case mapping as a list of runs.
Both are written compactly as text, in hexadecimal, and read once. -/
namespace SinkAudit.Text

/-- The code points from `first` to `last`. -/
structure Range where
  first : Nat
  last : Nat

/-- Every `step`-th code point from `first` to `last`; the partner of `first` is `target`, and the
others follow at the same distance. -/
structure CaseRun where
  first : Nat
  last : Nat
  step : Nat
  target : Nat

/-- The value of a hexadecimal digit. -/
def hexDigit? (c : Char) : Option Nat :=
  if '0' ≤ c && c ≤ '9' then some (c.toNat - 48)
  else if 'a' ≤ c && c ≤ 'f' then some (c.toNat - 87)
  else if 'A' ≤ c && c ≤ 'F' then some (c.toNat - 55)
  else none

/-- The number written by hexadecimal digits; other characters count as zero. -/
def hexValue (cs : List Char) : Nat :=
  cs.foldl (fun n c => 16 * n + (hexDigit? c).getD 0) 0

def readRange (cs : List Char) : Range :=
  match cs.splitOn '-' with
  | [a, b] => ⟨hexValue a, hexValue b⟩
  | _ => ⟨hexValue cs, hexValue cs⟩

/-- The entries of a table, separated by blanks and line breaks. -/
def tableEntries (s : String) : List (List Char) :=
  (s.toList.splitOnP fun c => c == ' ' || c == '\n').filter (!·.isEmpty)

/-- Ranges: `30-39 41`. -/
def readRanges (s : String) : List Range := (tableEntries s).map readRange

def readRun (cs : List Char) : CaseRun :=
  let (range, rest) := (cs.takeWhile (· != '/'), (cs.dropWhile (· != '/')).drop 1)
  let (step, target) := (rest.takeWhile (· != '='), (rest.dropWhile (· != '=')).drop 1)
  let r := readRange range
  ⟨r.first, r.last, hexValue step, hexValue target⟩

/-- Runs: `100-12e/2=101`. -/
def readRuns (s : String) : List CaseRun := (tableEntries s).map readRun

/-- Expansions: `df=53+53`. -/
def readExpansions (s : String) : List (Nat × List Nat) :=
  (tableEntries s).map fun entry =>
    (hexValue (entry.takeWhile (· != '=')),
      (((entry.dropWhile (· != '=')).drop 1).splitOn '+').map hexValue)

def Range.contains (r : Range) (n : Nat) : Bool := r.first ≤ n && n ≤ r.last

/-- Whether a code point lies in one of the ranges. -/
def inRanges (rs : List Range) (n : Nat) : Bool := rs.any (·.contains n)

def CaseRun.covers (r : CaseRun) (n : Nat) : Bool :=
  r.first ≤ n && n ≤ r.last && (n - r.first) % r.step == 0

/-- The partner of a code point, itself where no run covers it. -/
def partner (runs : List CaseRun) (n : Nat) : Nat :=
  match runs.find? (·.covers n) with
  | some r => r.target + (n - r.first)
  | none => n

end SinkAudit.Text
