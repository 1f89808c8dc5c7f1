import SinkAudit.Decimal.Binary64

/-! # JSON values

Objects keep their members in order of first insertion. Integers are unbounded; a number written
with a point or an exponent is a double-precision number. -/
namespace SinkAudit

inductive Json where
  | null
  | bool (b : Bool)
  | int (i : Int)
  | float (x : Decimal.Binary64)
  | str (s : String)
  | arr (items : List Json)
  | obj (members : List (String × Json))
  deriving Repr

/-- The members of an object, in order. -/
abbrev Members := List (String × Json)

/-- The value of a key. -/
def Members.get? (ms : Members) (key : String) : Option Json :=
  (ms.find? (·.1 == key)).map (·.2)

def Members.keys (ms : Members) : List String := ms.map (·.1)

/-- Gives a key a value: a present key keeps its place, a new one goes to the end. -/
def Members.set : Members → String → Json → Members
  | [], key, value => [(key, value)]
  | (k, v) :: ms, key, value =>
    if k == key then (k, value) :: ms else (k, v) :: Members.set ms key value

/-- Members given one after the other; the last value of a key wins. -/
def Members.ofPairs (pairs : List (String × Json)) : Members :=
  pairs.foldl (fun ms p => ms.set p.1 p.2) []

namespace Json

/-- The value of a key of an object. -/
def get? : Json → String → Option Json
  | .obj ms, key => Members.get? ms key
  | _, _ => none

/-- What is found below a value by following keys. -/
def path? (v : Json) : List String → Option Json
  | [] => some v
  | key :: keys => (v.get? key).bind (·.path? keys)

theorem path?_snoc (v : Json) (keys : List String) (key : String) :
    v.path? (keys ++ [key]) = (v.path? keys).bind (·.get? key) := by
  induction keys generalizing v with
  | nil => simp [path?]
  | cons k keys ih =>
    rw [List.cons_append, path?, path?]
    cases v.get? k with
    | none => rfl
    | some w => exact ih w

/-- Everything but nothing: `null`, `false`, zero and what is empty count as false. -/
def truthy : Json → Bool
  | .null => false
  | .bool b => b
  | .int i => i != 0
  | .float x => !x.isZero
  | .str s => !s.isEmpty
  | .arr items => !items.isEmpty
  | .obj ms => !ms.isEmpty

def strings (xs : List String) : Json := .arr (xs.map .str)

end Json

end SinkAudit
