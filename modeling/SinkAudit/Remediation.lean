import SinkAudit.Sink.Basic

/-! # Remediation

What to do about a finding: the steps of the sink, then those of its class, each once. -/
namespace SinkAudit

/-- The steps for a class that has none of its own. -/
def genericSteps : List String :=
  ["Identify the specific need behind this call",
   "Choose the safest API that covers that need",
   "Use argument arrays or parameterized APIs instead of string interpolation",
   "Add comprehensive input validation",
   "Test with malicious inputs"]

/-- The steps of each class. -/
def classSteps : List (String × List String) :=
  [("command-injection",
    ["Replace exec() with execFile() or spawn()",
     "Split command and arguments into separate array elements",
     "Use \x7bshell: false\x7d option to prevent shell interpretation",
     "Validate and sanitize all user inputs",
     "Consider using execa library for better security"]),
   ("argument-injection",
    ["Ensure first argument is a safe, validated command path",
     "Pass arguments as separate array elements",
     "Use \x7bshell: false\x7d to prevent shell injection",
     "Validate each argument against an allow-list",
     "Consider using execa or cross-spawn"]),
   ("path-injection",
    ["Resolve executable and module paths from an allow-list",
     "Reject paths containing traversal sequences",
     "Pass arguments as separate array elements"]),
   ("code-injection",
    ["Remove eval() or Function() and call the intended code directly",
     "Parse data with JSON.parse() instead of evaluating it",
     "Use a lookup table for dynamic dispatch",
     "Validate any value that must stay dynamic"]),
   ("redos",
    ["Use pre-defined regex patterns instead of building them from input",
     "Escape user input before using it in a pattern",
     "Validate pattern length and character set",
     "Use a safe regex engine such as re2 for untrusted patterns"]),
   ("xss",
    ["Use textContent instead of innerHTML for plain text",
     "Sanitize HTML with DOMPurify before inserting it",
     "Prefer framework rendering over raw HTML injection",
     "Apply a Content-Security-Policy as defense in depth"]),
   ("open-redirect",
    ["Validate redirect targets against an allow-list of domains",
     "Prefer relative paths for in-app redirects",
     "Parse the URL and compare its hostname before redirecting"]),
   ("missing-header",
    ["Set the missing security headers on every response",
     "Use helmet() to apply a secure default header set"]),
   ("insecure-cookie",
    ["Set httpOnly: true so scripts cannot read the cookie",
     "Set secure: true so the cookie is only sent over HTTPS",
     "Set sameSite: \"strict\" or \"lax\" to limit cross-site sending",
     "Avoid storing sensitive data in script-readable cookies"])]

def stepsForClass (vulnerability : String) : List String :=
  (classSteps.lookup vulnerability).getD genericSteps

namespace SinkPattern

/-- The steps of the sink followed by those of its class, each where it first occurs. -/
def steps (p : SinkPattern) : List String :=
  Text.distinct (p.remediation ++ stepsForClass p.vulnerability)

end SinkPattern

/-- A list of steps followed by those of another list that are not yet there. -/
def addSteps (first more : List String) : List String :=
  more.foldl (fun steps step => if steps.contains step then steps else steps ++ [step]) first

end SinkAudit
