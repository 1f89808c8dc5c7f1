import SinkAudit.Text.Case
import SinkAudit.Text.Find

/-! # Quoted texts

How a text is shown inside a message: between quote marks, with everything that would not be
visible written by its code. -/
namespace SinkAudit.Text

/-- A character that is shown as it is. -/
def isPrintable (c : Char) : Bool :=
  if c.toNat < 128 then 32 ≤ c.toNat && c.toNat < 127 else inRanges printableRanges c.toNat

/-- A digit of base sixteen. -/
def hexChar (n : Nat) : Char := Char.ofNat (if n < 10 then 48 + n else 87 + n)

/-- The `width` lowest hexadecimal digits of a number. -/
def hexDigits : Nat → Nat → List Char
  | 0, _ => []
  | width + 1, n => hexDigits width (n / 16) ++ [hexChar (n % 16)]

/-- The code of a character, in the shortest of the three forms that holds it. -/
def codeEscape (n : Nat) : List Char :=
  if n < 0x100 then '\\' :: 'x' :: hexDigits 2 n
  else if n < 0x10000 then '\\' :: 'u' :: hexDigits 4 n
  else '\\' :: 'U' :: hexDigits 8 n

def quotedChar (mark c : Char) : List Char :=
  if c == mark || c == '\\' then ['\\', c]
  else if c == '\t' then ['\\', 't']
  else if c == '\n' then ['\\', 'n']
  else if c == '\r' then ['\\', 'r']
  else if isPrintable c then [c]
  else codeEscape c.toNat

/-- Apostrophes mark the text, unless it holds an apostrophe and no double quote. -/
def quoteMark (s : String) : Char :=
  if contains s "'" && !contains s "\"" then '"' else Char.ofNat 39

/-- The text between quote marks. -/
def quoted (s : String) : String :=
  let mark := quoteMark s
  String.ofList (mark :: (s.toList.flatMap (quotedChar mark) ++ [mark]))

end SinkAudit.Text
