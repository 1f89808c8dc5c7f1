import SinkAudit.Text.Properties

/-! # Letter case

Full lower- and upper-case mappings: one character may become several, and a capital sigma at the
end of a word becomes a final sigma. `fold` is the one-character mapping by which search patterns
compare letters without regard to case. -/
namespace SinkAudit.Text

/-- A letter, a digit or another numeric character. -/
def isAlphanumeric (c : Char) : Bool :=
  if c.toNat < 128 then c.isAlphanum else inRanges alphanumericRanges c.toNat

/-- A decimal digit of any script. -/
def isDecimal (c : Char) : Bool :=
  if c.toNat < 128 then c.isDigit else inRanges decimalRanges c.toNat

/-- The lower-case partner of a character, one for one. -/
def fold (c : Char) : Char :=
  if c.toNat < 128 then c.toLower
  else if c == 'İ' then 'i'
  else Char.ofNat (partner lowerRuns c.toNat)

def lowerChar (c : Char) : List Char :=
  if c == 'İ' then ['i', Char.ofNat 0x307] else [fold c]

def upperChar (c : Char) : List Char :=
  if c.toNat < 128 then [c.toUpper]
  else match upperExpansions.find? (·.1 == c.toNat) with
    | some (_, codes) => codes.map Char.ofNat
    | none => [Char.ofNat (partner upperRuns c.toNat)]

/-- Whether one of the two mappings changes the character. -/
def isCased (c : Char) : Bool := fold c != c || upperChar c != [c]

/-- Lower-case characters that share their upper-case form. -/
def variantClasses : List (List Nat) :=
  [[0x69, 0x131], [0x73, 0x17F], [0xB5, 0x3BC], [0x345, 0x3B9, 0x1FBE], [0x390, 0x1FD3],
   [0x3B0, 0x1FE3], [0x3B2, 0x3D0], [0x3B5, 0x3F5], [0x3B8, 0x3D1], [0x3BA, 0x3F0],
   [0x3C0, 0x3D6], [0x3C1, 0x3F1], [0x3C2, 0x3C3], [0x3C6, 0x3D5], [0x432, 0x1C80],
   [0x434, 0x1C81], [0x43E, 0x1C82], [0x441, 0x1C83], [0x442, 0x1C84, 0x1C85], [0x44A, 0x1C86],
   [0x463, 0x1C87], [0x1C88, 0xA64B], [0x1E61, 0x1E9B], [0xFB05, 0xFB06]]

/-- The other lower-case characters with the same upper-case form. -/
def variants (n : Nat) : List Nat :=
  match variantClasses.find? (·.contains n) with
  | some cs => cs.filter (· != n)
  | none => []

/-- The characters whose lower-case partner is a given lower-case character, itself included. -/
def foldSources (n : Nat) : List Nat :=
  let ascii := if 97 ≤ n && n ≤ 122 then [n - 32] else []
  let dotted := if n == 105 then [0x130] else []
  let others := lowerRuns.filterMap fun r =>
    let m := r.first + (n - r.target)
    if r.target ≤ n && r.covers m then some m else none
  n :: ascii ++ dotted ++ others

def decidesCase (c : Char) : Bool :=
  if c.toNat < 128 then c.isAlpha else inRanges casedRanges c.toNat

/-- Characters passed over when the neighbours of a letter are looked at. -/
def isCaseIgnorable (c : Char) : Bool :=
  if c.toNat < 128 then "'.:^`".toList.contains c
  else inRanges caseIgnorableRanges c.toNat

def nextToLetter (cs : List Char) : Bool :=
  match cs.dropWhile isCaseIgnorable with
  | c :: _ => decidesCase c
  | [] => false

/-- Lower case, where `before` holds the characters already passed, nearest first. -/
def lowerAfter (before : List Char) : List Char → List Char
  | [] => []
  | c :: cs =>
    (if c == 'Σ' && nextToLetter before && !nextToLetter cs then ['ς'] else lowerChar c) ++
      lowerAfter (c :: before) cs

def lower (s : String) : String := String.ofList (lowerAfter [] s.toList)

def upper (s : String) : String := String.ofList (s.toList.flatMap upperChar)

end SinkAudit.Text
