import SinkAudit.Decimal.Shortest
import SinkAudit.Json.Basic
import SinkAudit.Text.Quoted

/-! # Writing JSON

Values are written in ASCII, two blanks deeper at each level; empty arrays and objects stay on one
line. -/
namespace SinkAudit.Json

/-- The escape of a sixteen-bit unit. -/
def unitEscape (n : Nat) : List Char := '\\' :: 'u' :: Text.hexDigits 4 n

/-- A character as it stands in a string: ASCII as it is, the rest by its code, in two units
beyond the basic plane. -/
def escapeChar (c : Char) : List Char :=
  if c == '"' then ['\\', '"']
  else if c == '\\' then ['\\', '\\']
  else if c == '\n' then ['\\', 'n']
  else if c == '\r' then ['\\', 'r']
  else if c == '\t' then ['\\', 't']
  else if c == Char.ofNat 8 then ['\\', 'b']
  else if c == Char.ofNat 12 then ['\\', 'f']
  else if 32 ≤ c.toNat && c.toNat < 127 then [c]
  else if c.toNat < 0x10000 then unitEscape c.toNat
  else
    let n := c.toNat - 0x10000
    unitEscape (0xD800 + n / 0x400) ++ unitEscape (0xDC00 + n % 0x400)

def stringChars (s : String) : List Char := '"' :: (s.toList.flatMap escapeChar ++ ['"'])

def intChars (i : Int) : List Char :=
  if i < 0 then '-' :: Nat.toDigits 10 i.natAbs else Nat.toDigits 10 i.natAbs

def floatChars (x : Decimal.Binary64) : List Char := (x.text "NaN" "Infinity").toList

/-- A line break and the indentation of a level. -/
def newLine (level : Nat) : List Char := '\n' :: List.replicate (2 * level) ' '

mutual

/-- The characters of a value that stands at a level. -/
def renderAt (level : Nat) : Json → List Char
  | .null => "null".toList
  | .bool true => "true".toList
  | .bool false => "false".toList
  | .int i => intChars i
  | .float x => floatChars x
  | .str s => stringChars s
  | .arr [] => ['[', ']']
  | .arr (item :: items) =>
    '[' :: (newLine (level + 1) ++ renderAt (level + 1) item ++ renderItems (level + 1) items ++
      newLine level ++ [']'])
  | .obj [] => ['\x7b', '\x7d']
  | .obj ((key, value) :: ms) =>
    '\x7b' :: (newLine (level + 1) ++ stringChars key ++ ':' :: ' ' :: renderAt (level + 1) value ++
      renderMembers (level + 1) ms ++ newLine level ++ ['\x7d'])

/-- The items after the first. -/
def renderItems (level : Nat) : List Json → List Char
  | [] => []
  | item :: items => ',' :: (newLine level ++ renderAt level item ++ renderItems level items)

/-- The members after the first. -/
def renderMembers (level : Nat) : List (String × Json) → List Char
  | [] => []
  | (key, value) :: ms =>
    ',' :: (newLine level ++ stringChars key ++ ':' :: ' ' :: renderAt level value ++
      renderMembers level ms)

end

/-- The text of a value. -/
def render (v : Json) : String := String.ofList (renderAt 0 v)

end SinkAudit.Json
