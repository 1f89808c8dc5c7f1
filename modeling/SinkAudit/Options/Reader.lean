import SinkAudit.Json.Display
import SinkAudit.Options.Basic

/-! # Reading options

Options come as members of an object. What is unknown or of the wrong kind is complained of and
replaced by its default. -/
namespace SinkAudit.Options

/-- The names of all options. -/
def names : List String := ({} : Options).toMembers.keys

/-- Checks whose findings in test files are left out unless asked for. -/
def quietInTests : List String := ["security-headers", "open-redirect"]

/-- A list of texts: a single text counts as one, and members of other kinds are displayed. -/
def textList (label : String) : Json → Logged (List String)
  | .str s => return [s]
  | .arr items => return items.map Json.text
  | v => do
    Logged.warn .config ("Expected a list of strings for " ++ label ++ ", got " ++ v.display)
    return []

/-- The list of texts under a key, if the key is there. -/
def textListAt (check : String) (data : Members) (key : String) (default : List String) :
    Logged (List String) :=
  match data.get? key with
  | some v => textList (check ++ "." ++ key) v
  | none => return default

def positive? : Json → Option Nat
  | .int (.ofNat (n + 1)) => some (n + 1)
  | _ => none

/-- The positive number under a key, or the default. -/
def positiveAt (data : Members) (key : String) (default : Nat) : Logged Nat :=
  match data.get? key with
  | none => return default
  | some v =>
    match positive? v with
    | some n => return n
    | none => do
      Logged.warn .config ("Invalid " ++ key ++ " " ++ v.display ++ "; using " ++ toString default)
      return default

def strategyOf? : Json → Option Strategy
  | .str s => Strategy.ofName? s
  | _ => none

def strategyAt (data : Members) : Logged Strategy :=
  match data.get? "strategy" with
  | none => return .auto
  | some v =>
    match strategyOf? v with
    | some s => return s
    | none => do
      Logged.warn .config ("Unknown strategy " ++ v.display ++ "; falling back to 'auto'")
      return .auto

/-- Complains of members that are no options. -/
def reportUnknown (check : String) (data : Members) : Logged Unit := do
  let unknown := data.keys.filter fun key => !names.contains key
  unless unknown.isEmpty do
    Logged.warn .config
      ("Ignoring unknown options for " ++ check ++ ": " ++ ", ".intercalate (Text.sort unknown))

/-- The options in the members of an object, with an empty ignore list. -/
def readPlain (check : String) (data : Members) : Logged Options := do
  let defaults : Options := {}
  let given (key : String) (default : Json) : Json := (data.get? key).getD default
  reportUnknown check data
  let additionalSinkMethods ← textListAt check data "additional_sink_methods" []
  let additionalEvalFunctions ← textListAt check data "additional_eval_functions" []
  let trustedLibraries ← textListAt check data "trusted_libraries" defaults.trustedLibraries
  let requiredHeaders ← textListAt check data "required_headers" defaults.requiredHeaders
  let ignorePatterns ← textListAt check data "ignore_patterns" []
  let strategy ← strategyAt data
  let lookback ← positiveAt data "lookback" defaults.lookback
  let maxPatternLength ← positiveAt data "max_pattern_length" defaults.maxPatternLength
  return {
    allowLiteralArguments := given "allow_literal_arguments" defaults.allowLiteralArguments
    allowLiteralArrayArguments :=
      given "allow_literal_array_arguments" defaults.allowLiteralArrayArguments
    additionalSinkMethods, additionalEvalFunctions, strategy, trustedLibraries, maxPatternLength
    requiredHeaders, ignorePatterns
    ignoreInTests := given "ignore_in_tests" (.bool (quietInTests.contains check))
    allowReading := given "allow_reading" defaults.allowReading
    lookback }

/-- The options of a check in the members of an object. -/
def read (check : String) (data : Members) : ExceptT Pattern.Fault Logged Options := do
  let o ← readPlain check data
  return { o with ignore := ← IgnoreList.read o.ignorePatterns }

end SinkAudit.Options
