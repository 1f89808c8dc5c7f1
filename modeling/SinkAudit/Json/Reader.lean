import SinkAudit.Json.Basic
import SinkAudit.Text.Ranges

/-! # Reading JSON

A reader for the whole of JSON, extended by `NaN`, `Infinity` and `-Infinity`. Of two members with
one key the later value counts. An escape for half a surrogate pair stands for no character: such a
text cannot be encoded, and is not read. -/
namespace SinkAudit.Json

def isSpace (c : Char) : Bool := c == ' ' || c == '\t' || c == '\n' || c == '\r'

def skipSpace (cs : List Char) : List Char := cs.dropWhile isSpace

/-- The value of four hexadecimal digits, and what follows. -/
def readHex4 : List Char → Option (Nat × List Char)
  | a :: b :: c :: d :: rest => do
    let a ← Text.hexDigit? a
    let b ← Text.hexDigit? b
    let c ← Text.hexDigit? c
    let d ← Text.hexDigit? d
    some (((a * 16 + b) * 16 + c) * 16 + d, rest)
  | _ => none

def isHighSurrogate (n : Nat) : Bool := 0xD800 ≤ n && n < 0xDC00

def isLowSurrogate (n : Nat) : Bool := 0xDC00 ≤ n && n < 0xE000

/-- The character that two halves of a pair make. -/
def joinPair (high low : Nat) : Option Char :=
  if isLowSurrogate low then some (Char.ofNat (0x10000 + (high - 0xD800) * 0x400 + (low - 0xDC00)))
  else none

/-- The character of an escape, given the value of its digits and what follows it; none for half a
pair without the other half. -/
def surrogatePair (n : Nat) (rest : List Char) : Option (Char × List Char) :=
  if isHighSurrogate n then
    match rest with
    | '\\' :: 'u' :: more =>
      (readHex4 more).bind fun (low, rest) => (joinPair n low).map fun c => (c, rest)
    | _ => none
  else if isLowSurrogate n then none
  else some (Char.ofNat n, rest)

/-- The character that a backslash and a letter stand for. -/
def simpleEscape? (c : Char) : Option Char :=
  if c == '"' || c == '\\' || c == '/' then some c
  else if c == 'b' then some (Char.ofNat 8)
  else if c == 'f' then some (Char.ofNat 12)
  else if c == 'n' then some '\n'
  else if c == 'r' then some '\r'
  else if c == 't' then some '\t'
  else none

/-- One character of a string, and what follows it. -/
def readChar : List Char → Option (Char × List Char)
  | [] => none
  | '\\' :: 'u' :: rest => (readHex4 rest).bind fun (n, rest') => surrogatePair n rest'
  | ['\\'] => none
  | '\\' :: c :: rest => (simpleEscape? c).map fun e => (e, rest)
  | c :: rest => if c.toNat < 32 then none else some (c, rest)

/-- The characters up to the closing quote, and what follows it. -/
def readStringBody : Nat → List Char → Option (List Char × List Char)
  | 0, _ => none
  | fuel + 1, cs =>
    match cs with
    | '"' :: rest => some ([], rest)
    | _ => do
      let (c, rest) ← readChar cs
      let (body, rest) ← readStringBody fuel rest
      some (c :: body, rest)

/-- The number written by decimal digits. -/
def digitsValue (cs : List Char) : Nat := cs.foldl (fun n c => 10 * n + (c.toNat - 48)) 0

/-- The digits of an integer: a lone zero, or digits that do not start with zero. -/
def readWhole : List Char → Option (List Char × List Char)
  | '0' :: rest => some (['0'], rest)
  | cs =>
    let digits := cs.takeWhile Char.isDigit
    if digits.isEmpty then none else some (digits, cs.dropWhile Char.isDigit)

/-- A point and the digits after it, where there are any. -/
def readFraction : List Char → List Char × List Char
  | '.' :: rest =>
    let digits := rest.takeWhile Char.isDigit
    if digits.isEmpty then ([], '.' :: rest) else (digits, rest.dropWhile Char.isDigit)
  | cs => ([], cs)

/-- The exponent, where there is one. -/
def readExponent : List Char → Option Int × List Char
  | cs@(e :: rest) =>
    if e == 'e' || e == 'E' then
      let (negative, rest) := match rest with
        | '-' :: r => (true, r)
        | '+' :: r => (false, r)
        | r => (false, r)
      let digits := rest.takeWhile Char.isDigit
      if digits.isEmpty then (none, cs)
      else
        let n : Int := digitsValue digits
        (some (if negative then -n else n), rest.dropWhile Char.isDigit)
    else (none, cs)
  | [] => (none, [])

/-- A number: an integer where neither a fraction nor an exponent is written. -/
def readUnsigned (negative : Bool) (cs : List Char) : Option (Json × List Char) := do
  let (whole, rest) ← readWhole cs
  let (fraction, rest) := readFraction rest
  let (exponent, rest) := readExponent rest
  if fraction.isEmpty && exponent.isNone then
    let n : Int := digitsValue whole
    some (.int (if negative then -n else n), rest)
  else
    let e : Int := exponent.getD 0 - (fraction.length : Int)
    some (.float (.ofDecimal negative (digitsValue (whole ++ fraction)) e), rest)

/-- What follows a given word. -/
def readWord (word : String) (cs : List Char) : Option (List Char) :=
  if cs.take word.length == word.toList then some (cs.drop word.length) else none

def readNumber : List Char → Option (Json × List Char)
  | '-' :: rest =>
    match readWord "Infinity" rest with
    | some rest => some (.float (.infinity true), rest)
    | none => readUnsigned true rest
  | cs => readUnsigned false cs

def readLiteral (cs : List Char) : Option (Json × List Char) :=
  match readWord "null" cs with
  | some rest => some (.null, rest)
  | none => match readWord "true" cs with
    | some rest => some (.bool true, rest)
    | none => match readWord "false" cs with
      | some rest => some (.bool false, rest)
      | none => match readWord "NaN" cs with
        | some rest => some (.float .nan, rest)
        | none => match readWord "Infinity" cs with
          | some rest => some (.float (.infinity false), rest)
          | none => readNumber cs

/-- A string, and what follows it. -/
def readString : List Char → Option (String × List Char)
  | '"' :: rest => (readStringBody (rest.length + 1) rest).map fun (cs, rest) => (.ofList cs, rest)
  | _ => none

mutual

/-- A value, and what follows it. -/
def readValue : Nat → List Char → Option (Json × List Char)
  | 0, _ => none
  | fuel + 1, cs =>
    match cs with
    | '"' :: _ => (readString cs).map fun (s, rest) => (.str s, rest)
    | '[' :: rest =>
      match skipSpace rest with
      | ']' :: rest => some (.arr [], rest)
      | rest => (readItems fuel rest).map fun (items, rest) => (.arr items, rest)
    | '\x7b' :: rest =>
      match skipSpace rest with
      | '\x7d' :: rest => some (.obj [], rest)
      | rest => (readMembers fuel rest).map fun (ms, rest) => (.obj (Members.ofPairs ms), rest)
    | _ => readLiteral cs

/-- The values up to the closing bracket. -/
def readItems : Nat → List Char → Option (List Json × List Char)
  | 0, _ => none
  | fuel + 1, cs => do
    let (item, rest) ← readValue fuel cs
    match skipSpace rest with
    | ']' :: rest => some ([item], rest)
    | ',' :: rest =>
      let (items, rest) ← readItems fuel (skipSpace rest)
      some (item :: items, rest)
    | _ => none

/-- The members up to the closing brace. -/
def readMembers : Nat → List Char → Option (List (String × Json) × List Char)
  | 0, _ => none
  | fuel + 1, cs => do
    let (key, rest) ← readString cs
    match skipSpace rest with
    | ':' :: rest =>
      let (value, rest) ← readValue fuel (skipSpace rest)
      match skipSpace rest with
      | '\x7d' :: rest => some ([(key, value)], rest)
      | ',' :: rest =>
        let (ms, rest) ← readMembers fuel (skipSpace rest)
        some ((key, value) :: ms, rest)
      | _ => none
    | _ => none

end

/-- The value that a text writes, with nothing but white space around it. -/
def parse (s : String) : Option Json := do
  let cs := s.toList
  let (value, rest) ← readValue (2 * cs.length + 2) (skipSpace cs)
  if (skipSpace rest).isEmpty then some value else none

/-! ## Half pairs -/

/-- The text with an escape for `U+FFFD` in place of each escape for half a pair. -/
def mend : Nat → List Char → List Char
  | 0, cs => cs
  | fuel + 1, cs =>
    match cs with
    | '\\' :: 'u' :: rest =>
      match readHex4 rest with
      | none => '\\' :: 'u' :: mend fuel rest
      | some (n, after) =>
        match surrogatePair n after with
        | some (_, rest) => cs.take (cs.length - rest.length) ++ mend fuel rest
        | none => "\\ufffd".toList ++ mend fuel after
    | '\\' :: c :: rest => '\\' :: c :: mend fuel rest
    | c :: rest => c :: mend fuel rest
    | [] => []

/-- Whether half pairs are all that keeps a text from being read. -/
def hasHalfPair (s : String) : Bool :=
  (parse s).isNone && (parse (String.ofList (mend s.length s.toList))).isSome

end SinkAudit.Json
