import SinkAudit.Sink.Code
import SinkAudit.Sink.Command
import SinkAudit.Sink.Markup
import SinkAudit.Sink.Redirect
import SinkAudit.Sink.Regex
import SinkAudit.Sink.Response

/-! # Kinds of checks -/
namespace SinkAudit

inductive CheckKind where
  /-- A check that looks for nothing; its evaluation is the common one. -/
  | plain
  | command
  | code
  | regex
  | markup
  | redirect
  | cookie
  | header
  deriving DecidableEq, Repr

namespace CheckKind

/-- The kinds that are run, in their order. -/
def all : List CheckKind := [.command, .code, .regex, .markup, .redirect, .cookie, .header]

def id : CheckKind → String
  | .plain => ""
  | .command => "command-injection"
  | .code => "code-injection"
  | .regex => "redos"
  | .markup => "xss"
  | .redirect => "open-redirect"
  | .cookie => "insecure-cookie"
  | .header => "security-headers"

/-- The name under which a rule is listed in reports. -/
def ruleName : CheckKind → String
  | .plain => "SecurityCheck"
  | .command => "CommandInjectionCheck"
  | .code => "CodeInjectionCheck"
  | .regex => "RedosCheck"
  | .markup => "XssCheck"
  | .redirect => "OpenRedirectCheck"
  | .cookie => "InsecureCookieCheck"
  | .header => "SecurityHeadersCheck"

def description : CheckKind → String
  | .plain => ""
  | .command => "child_process calls whose command or arguments are built from runtime values"
  | .code => "eval() and the Function constructor applied to non-literal code"
  | .regex => "Regular expressions built from runtime values or prone to catastrophic backtracking"
  | .markup => "Unsanitized HTML written into the DOM"
  | .redirect => "Redirects and navigations to unvalidated dynamic URLs"
  | .cookie => "Script-accessible cookies and cookies set without secure attributes"
  | .header => "Response handlers that set headers but omit required security headers"

/-- The class of the vulnerabilities that a check finds. -/
def vulnerability : CheckKind → String
  | .plain => ""
  | .command => "command-injection"
  | .code => "code-injection"
  | .regex => "redos"
  | .markup => "xss"
  | .redirect => "open-redirect"
  | .cookie => "insecure-cookie"
  | .header => "missing-header"

/-- The sinks that a check knows without configuration. -/
def sinks : CheckKind → Catalog
  | .plain => []
  | .command => .command
  | .code => .evaluation
  | .regex => .regexCall
  | .markup => .markup
  | .redirect => .redirect
  | .cookie => .cookie
  | .header => .header

def ofId? (id : String) : Option CheckKind := all.find? (·.id == id)

end CheckKind

end SinkAudit
