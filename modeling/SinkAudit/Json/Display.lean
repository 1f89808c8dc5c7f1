import SinkAudit.Decimal.Shortest
import SinkAudit.Json.Basic
import SinkAudit.Text.Quoted

/-! # JSON values in messages

How a value is shown to the user: strings between quote marks, `None`, `True` and `False` for the
literals, brackets around lists and braces around objects, on one line. -/
namespace SinkAudit.Json

mutual

/-- The value as it is shown inside a message. -/
def display : Json → String
  | .null => "None"
  | .bool true => "True"
  | .bool false => "False"
  | .int i => toString i
  | .float x => x.text "nan" "inf"
  | .str s => Text.quoted s
  | .arr items => "[" ++ displayItems items ++ "]"
  | .obj ms => "\x7b" ++ displayMembers ms ++ "\x7d"

def displayItems : List Json → String
  | [] => ""
  | [item] => display item
  | item :: items => display item ++ ", " ++ displayItems items

def displayMembers : List (String × Json) → String
  | [] => ""
  | [(key, value)] => Text.quoted key ++ ": " ++ display value
  | (key, value) :: ms => Text.quoted key ++ ": " ++ display value ++ ", " ++ displayMembers ms

end

/-- The text of a value: a string stands for itself, every other value is displayed. -/
def text : Json → String
  | .str s => s
  | v => v.display

end SinkAudit.Json
