import SinkAudit.Json.Basic
import SinkAudit.Options.Ignore
import SinkAudit.Sink.Response
import SinkAudit.Taint.Verdict

/-! # Options of a check -/
namespace SinkAudit

/-- What to advise about evaluated code. -/
inductive Strategy where
  | auto
  | remove
  | refactor
  | validate
  deriving DecidableEq, Repr

namespace Strategy

def name : Strategy → String
  | .auto => "auto"
  | .remove => "remove"
  | .refactor => "refactor"
  | .validate => "validate"

def all : List Strategy := [.auto, .remove, .refactor, .validate]

def ofName? (s : String) : Option Strategy := all.find? (·.name == s)

end Strategy

/-- The options of one check. Those that are only asked whether they hold keep the value that was
given. -/
structure Options where
  allowLiteralArguments : Json := .bool false
  allowLiteralArrayArguments : Json := .bool false
  additionalSinkMethods : List String := []
  additionalEvalFunctions : List String := []
  strategy : Strategy := .auto
  trustedLibraries : List String := ["dompurify", "sanitize-html", "xss"]
  maxPatternLength : Nat := 100
  requiredHeaders : List String := Catalog.requiredHeaders
  ignorePatterns : List String := []
  ignoreInTests : Json := .bool false
  allowReading : Json := .bool true
  lookback : Nat := 5
  /-- What `ignorePatterns` ignores. -/
  ignore : IgnoreList := []

namespace Options

def exemptions (o : Options) : Exemptions :=
  { trusted := o.trustedLibraries, lookback := o.lookback }

def toMembers (o : Options) : Members :=
  [("allow_literal_arguments", o.allowLiteralArguments),
   ("allow_literal_array_arguments", o.allowLiteralArrayArguments),
   ("additional_sink_methods", .strings o.additionalSinkMethods),
   ("additional_eval_functions", .strings o.additionalEvalFunctions),
   ("strategy", .str o.strategy.name),
   ("trusted_libraries", .strings o.trustedLibraries),
   ("max_pattern_length", .int o.maxPatternLength),
   ("required_headers", .strings o.requiredHeaders),
   ("ignore_patterns", .strings o.ignorePatterns),
   ("ignore_in_tests", o.ignoreInTests),
   ("allow_reading", o.allowReading),
   ("lookback", .int o.lookback)]

end Options

end SinkAudit
