import SinkAudit.Sink.Basic

/-! # Calls that run text as code

Evaluation, and what it is usually meant for: a category is found by the text of the arguments. -/
namespace SinkAudit.Catalog

/-- Functions that run text as code. -/
def evaluation : Catalog :=
  [{ matcher := "eval"
     vulnerability := "code-injection"
     dangerous := true
     safeAlternatives := ["JSON.parse()", "Map lookups", "Template literals"]
     sample :=
       { before := "eval(userCode)"
         after := "JSON.parse(userJson)" }
     effort := "15-30 minutes"
     riskTier := "critical" },
   { matcher := "Function"
     vulnerability := "code-injection"
     dangerous := true
     safeAlternatives := ["Arrow function or regular function"]
     sample :=
       { before := "new Function('a', body)"
         after := "const fn = (a) => a * 2;" }
     effort := "10 minutes"
     riskTier := "critical"
     remediation :=
       ["Replace Function constructor with arrow function",
        "Use regular function declaration",
        "Validate any dynamic parts",
        "Consider module imports instead"] }]

/-- What evaluated texts are meant for, in the order in which they are tried. -/
def evaluationCategory : Catalog :=
  [{ matcher := "JSON\\.parse|parse\\(.*\\)|^\\s*['\\\"`]\\s*[\x7b\\[]"
     vulnerability := "code-injection"
     dangerous := true
     matchKind := .search
     label := "json"
     safeAlternatives := ["JSON.parse()"]
     sample :=
       { before := "eval('\x7b\"key\": \"' + value + '\"\x7d')"
         after := "JSON.parse('\x7b\"key\": \"' + value + '\"\x7d')" }
     effort := "2 minutes"
     remediation :=
       ["Replace eval() with JSON.parse()",
        "Ensure input is valid JSON string",
        "Add try/catch for JSON parsing errors",
        "Consider using a JSON schema validator"] },
   { matcher := "Math\\.|parseInt|parseFloat"
     vulnerability := "code-injection"
     dangerous := true
     matchKind := .search
     label := "math"
     safeAlternatives := ["Math functions or parseInt/parseFloat"]
     sample :=
       { before := "eval('Math.' + method + '(' + arg + ')')"
         after := "const mathMethods = \x7bsin: Math.sin, cos: Math.cos\x7d; mathMethods[method](arg)" }
     effort := "5 minutes"
     remediation :=
       ["Create whitelist of allowed Math functions",
        "Use direct function calls: Math.sin(x)",
        "Validate inputs are numbers",
        "Consider using a math expression parser library"] },
   { matcher := "\\$\\\x7b|template|interpolat"
     vulnerability := "code-injection"
     dangerous := true
     matchKind := .search
     label := "template"
     safeAlternatives := ["Template literals or template engine"]
     sample :=
       { before := "eval('Hello ' + userName + '!')"
         after := "const template = `Hello $\x7buserName\x7d!`;" }
     effort := "3 minutes"
     remediation :=
       ["Use template literals: `Hello $\x7bname\x7d`",
        "Sanitize variables before interpolation",
        "Use a template engine like Handlebars if complex",
        "Validate template structure"] },
   { matcher := "\\[.*\\]|object\\[|obj\\.|\\."
     vulnerability := "code-injection"
     dangerous := true
     matchKind := .search
     label := "object"
     safeAlternatives := ["Direct property access or Map"]
     sample :=
       { before := "eval('obj.' + property)"
         after := "const allowedProps = \x7bname: true, age: true\x7d; if (allowedProps[property]) obj[property]" }
     effort := "8 minutes"
     remediation :=
       ["Use Map or plain object for key-value access",
        "Whitelist allowed property names",
        "Use hasOwnProperty() check",
        "Consider Object.create(null) for clean objects"] }]

end SinkAudit.Catalog
