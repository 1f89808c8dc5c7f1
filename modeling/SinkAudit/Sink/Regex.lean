import SinkAudit.Sink.Basic

/-! # Regular expressions

Calls that compile regular expressions, and the shapes of expressions that may take
exponential time. -/
namespace SinkAudit.Catalog

/-- Calls that compile a regular expression, found by the text of the call. -/
def regexCall : Catalog :=
  [{ matcher := "^new\\s+RegExp\\s*\\("
     vulnerability := "redos"
     dangerous := false
     matchKind := .search
     label := "new RegExp"
     safeAlternatives := ["Pre-defined RegExp constants"]
     sample :=
       { before := "new RegExp(userInput)"
         after := "const PATTERNS = \x7b email: /^[a-zA-Z0-9]+$/ \x7d; PATTERNS[userChoice]" }
     effort := "10-15 minutes"
     riskTier := "high"
     remediation :=
       ["Create a whitelist of allowed regex patterns",
        "Use object lookup: PATTERNS[userChoice]",
        "If dynamic needed: escape input with regex escaping function"] },
   { matcher := "^RegExp\\s*\\("
     vulnerability := "redos"
     dangerous := false
     matchKind := .search
     label := "RegExp"
     safeAlternatives := ["Static RegExp literals or validated patterns"]
     sample :=
       { before := "RegExp(userPattern)"
         after := "const safePattern = userPattern.replace(/[.*+?^$\x7b\x7d()|[\\]\\\\]/g, '\\\\$&'); new RegExp(`^$\x7bsafePattern\x7d$`)" }
     effort := "15-20 minutes"
     riskTier := "high"
     remediation :=
       ["Escape user input before RegExp construction",
        "Validate input against allowed character sets",
        "Add length limits to prevent oversized patterns"] }]

/-- A regular expression that is written out. -/
def regexLiteral : SinkPattern :=
  { matcher := "regex-literal"
    vulnerability := "redos"
    dangerous := false
    label := "regex literal"
    safeAlternatives := ["Restructure regex to avoid nested quantifiers"]
    sample :=
      { before := "/(a+)+b/"
        after := "/a+b/" }
    effort := "20-30 minutes"
    riskTier := "high"
    remediation :=
      ["Identify nested quantifiers (*+, ++, ?+)",
       "Restructure regex to avoid exponential backtracking",
       "Use atomic groups if supported: (?>...)",
       "Test regex performance with long inputs"] }

/-- Shapes that may backtrack without bound; the first that occurs names the finding. -/
def regexShape : Catalog :=
  [{ matcher := "\\([^)]*\\+\\)\\+|\\([^)]*\\*\\)\\*|\\([^)]*\\?\\)\\?"
     vulnerability := "redos"
     dangerous := false
     matchKind := .search
     label := "Nested Quantifiers"
     safeAlternatives := ["Atomic group (?>...) or a flattened quantifier"]
     sample :=
       { before := "/(a+)+b/"
         after := "/(?>a+)b/ or /a+b/" }
     effort := "20-30 minutes"
     riskTier := "critical"
     remediation :=
       ["Use atomic groups (?>...) or restructure to avoid nesting"] },
   { matcher := "\\([^)]*\\+[^)]*\\)\\+|\\([^)]*\\*[^)]*\\)\\*"
     vulnerability := "redos"
     dangerous := false
     matchKind := .search
     label := "Nested Repetition"
     safeAlternatives := ["Single-level quantifier"]
     sample :=
       { before := "/(x+)+y/"
         after := "/x+y/" }
     effort := "15-20 minutes"
     riskTier := "critical"
     remediation :=
       ["Flatten nested quantifiers"] },
   { matcher := "\\([^)]*\\|[^)]*\\)\\+|\\([^)]*\\|[^)]*\\)\\*"
     vulnerability := "redos"
     dangerous := false
     matchKind := .search
     label := "Alternation with Quantifier"
     safeAlternatives := ["Character class instead of alternation"]
     sample :=
       { before := "/(a|b)+c/"
         after := "/[ab]+c/" }
     effort := "10-15 minutes"
     riskTier := "high"
     remediation :=
       ["Use character classes instead of alternation when possible"] },
   { matcher := "\\.\\*\\.\\*|\\.\\+\\+\\.\\+"
     vulnerability := "redos"
     dangerous := false
     matchKind := .search
     label := "Nested Wildcards"
     safeAlternatives := ["A single, more specific wildcard"]
     sample :=
       { before := "/.*.*/"
         after := "/.*/ or be more specific" }
     effort := "10-15 minutes"
     riskTier := "critical"
     remediation :=
       ["Remove redundant wildcards or be more specific"] },
   { matcher := "\\([^)]*\\)\\\x7b[0-9]+,\\\x7d[^)]*\\([^)]*\\)\\\x7b[0-9]+,\\\x7d"
     vulnerability := "redos"
     dangerous := false
     matchKind := .search
     label := "Multiple Repetition Groups"
     safeAlternatives := ["Bounded or merged repetition groups"]
     sample :=
       { before := "/(ab)\x7b2,\x7d-(cd)\x7b2,\x7d/"
         after := "/(?:ab)\x7b2,10\x7d-(?:cd)\x7b2,10\x7d/" }
     effort := "20-30 minutes"
     riskTier := "high"
     remediation :=
       ["Restructure regex to avoid nested repetitions"] },
   { matcher := "\\([^()]*[+*][^()]*\\)\\s*[+*\x7b]"
     vulnerability := "redos"
     dangerous := false
     matchKind := .search
     label := "Nested Quantifier Pattern"
     safeAlternatives := ["Restructure to avoid nested quantifiers"]
     sample :=
       { before := "/(a+b?)*c/"
         after := "/(?:ab?)*c/ with bounded input" }
     effort := "20-30 minutes"
     riskTier := "critical"
     remediation :=
       ["Use atomic groups or restructure regex"] }]

end SinkAudit.Catalog
