import SinkAudit.Check.Run

/-! # Configuration

Layers of JSON objects, each put over those before it: objects are merged member by member, any
other value replaces what was there. -/
namespace SinkAudit

mutual

/-- Members put over others; new keys go to the end. -/
def Members.overlay (base : Members) : Members → Members
  | [] => base
  | (key, value) :: updates =>
    Members.overlay (base.set key (Json.over (base.get? key) value)) updates

/-- A value put over another. -/
def Json.over (old : Option Json) : Json → Json
  | .obj ms =>
    match old with
    | some (.obj olds) => .obj (Members.overlay olds ms)
    | _ => .obj ms
  | v => v

end

structure Config where
  root : Path
  /-- The least risk that is reported, as it was written. -/
  severity : String := "low"
  /-- Patterns of paths that are left out. -/
  ignore : List String := ["node_modules"]
  disabledChecks : List String := []
  /-- The options of checks, by identifier. -/
  checks : List (String × Members) := []

namespace Config

/-- The layer below all others. -/
def defaults : Members :=
  [("severity", .str "low"),
   ("ignore", .strings ["node_modules"]),
   ("disabled_checks", .arr []),
   ("checks", .obj [])]

/-- The options of checks in a configuration; those that are no objects are left out. -/
def checkOptions (data : Members) : Logged (List (String × Members)) :=
  match (data.get? "checks").filter (·.truthy) with
  | none => return []
  | some (.obj ms) =>
    return ms.filterMap fun (id, v) =>
      match v with
      | .obj options => some (id, options)
      | _ => none
  | some v => do
    Logged.warn .config ("Ignoring non-object 'checks' config: " ++ v.display)
    return []

/-- The configuration that layers, already merged, make. -/
def ofMembers (root : Path) (data : Members) : Logged Config := do
  let checks ← checkOptions data
  let severity := Text.lower ((data.get? "severity").getD (.str "low")).text
  let ignore ← Options.textList "ignore" ((data.get? "ignore").getD (.arr []))
  let disabledChecks ←
    Options.textList "disabled_checks" ((data.get? "disabled_checks").getD (.arr []))
  return { root, severity, ignore, disabledChecks, checks }

/-- The options of a check. -/
def optionsFor (c : Config) (id : String) : Attempt Options :=
  Attempt.withCause .pattern (Options.read id ((c.checks.lookup id).getD []))

def isEnabled (c : Config) (id : String) : Bool := !c.disabledChecks.contains id

def toJson (c : Config) : Json :=
  .obj
    [("project_root", .str c.root.text),
     ("severity", .str c.severity),
     ("ignore", .strings c.ignore),
     ("disabled_checks", .strings c.disabledChecks),
     ("checks", .obj (c.checks.map fun (id, options) => (id, .obj options)))]

end Config

end SinkAudit
