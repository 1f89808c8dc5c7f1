import SinkAudit.Json.Display

/-! # Reports

A report is an object that lists findings. Reports are read as they come: what is missing has a
default, what is of the wrong kind is refused where it is needed. -/
namespace SinkAudit.Report

/-- What is wrong with a report. -/
inductive Malformed where
  /-- A member is asked for where there is no object. -/
  | notAnObject
  /-- A value is of a kind that cannot be used in its place. -/
  | wrongKind
  deriving DecidableEq, Repr

/-- A member of an object. -/
def member? (v : Json) (key : String) : Except Malformed (Option Json) :=
  match v with
  | .obj ms => .ok (Members.get? ms key)
  | _ => .error .notAnObject

/-- A member of an object, or a default. -/
def member (v : Json) (key : String) (default : Json) : Except Malformed Json :=
  (member? v key).map (·.getD default)

/-- The parts of a value that has some: the items of a list, the characters of a text, the keys of
an object. -/
def parts : Json → Except Malformed (List Json)
  | .arr items => .ok items
  | .str s => .ok (s.toList.map fun c => .str (String.ofList [c]))
  | .obj ms => .ok (ms.map fun (key, _) => .str key)
  | _ => .error .wrongKind

/-- The findings of a report. -/
def findings (report : Json) : Except Malformed (List Json) := do
  parts (← member report "findings" (.arr []))

end SinkAudit.Report
