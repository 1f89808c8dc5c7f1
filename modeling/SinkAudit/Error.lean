import SinkAudit.Check.Basic
import SinkAudit.Json.Display
import SinkAudit.Text.Utf8

/-! # Errors

Why a scan cannot be done. -/
namespace SinkAudit

inductive Error where
  /-- A value that names no level of risk. -/
  | unknownRisk (value : Json)
  | unknownChecks (ids : List String)
  /-- A configuration that is not JSON. -/
  | invalidJson (path : Path)
  /-- A configuration with an escape for half a surrogate pair, which makes a text that cannot be
  encoded. -/
  | halfPair (path : Path)
  /-- A configuration that is no object. -/
  | notAnObject (path : Path)
  /-- A configuration that is no text. -/
  | notText (fault : Text.DecodeError)
  /-- A configuration that is a folder. -/
  | folder (path : Path)
  | pattern (fault : Pattern.Fault)
  | analysis (fault : Fault)

def Pattern.Fault.message : Pattern.Fault → String
  | .malformed => "<re.error>"
  | .countTooLarge => "the repetition number is too large"
  | .conflictingFlags => "ASCII and UNICODE flags are incompatible"

namespace Error

def message : Error → String
  | .unknownRisk value => Risk.unknown value
  | .unknownChecks ids => "Unknown check(s): " ++ ", ".intercalate ids
  | .invalidJson path => "Invalid JSON in " ++ path.text ++ ": <json error>"
  | .halfPair path => "Half a surrogate pair in " ++ path.text
  | .notAnObject path => "Invalid config in " ++ path.text ++ ": expected a JSON object"
  | .notText fault => fault.message
  | .folder path => "Is a directory: " ++ path.text
  | .pattern fault => fault.message
  | .analysis _ => "a sink cannot be analysed"

/-- Whether the error lies in what the user wrote and is reported as such. -/
def isUsage : Error → Bool
  | .unknownRisk _ | .unknownChecks _ | .invalidJson _ | .notAnObject _ | .notText _ => true
  | .pattern fault => fault == .conflictingFlags
  | _ => false

end Error

/-- A computation that may fail and that says things on the way. -/
abbrev Attempt := ExceptT Error Logged

namespace Attempt

def ofExcept {ε α : Type} (cause : ε → Error) : Except ε α → Attempt α
  | .ok a => pure a
  | .error e => throw (cause e)

/-- The same computation with another cause of failure. -/
def withCause {ε α : Type} (cause : ε → Error) (x : ExceptT ε Logged α) : Attempt α :=
  ExceptT.mk do ofExcept cause (← x.run)

end Attempt

end SinkAudit
