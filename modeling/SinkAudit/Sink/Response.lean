import SinkAudit.Sink.Basic

/-! # Cookies and headers

What a server sends beside the body of a response. -/
namespace SinkAudit.Catalog

/-- Places where cookies are set. -/
def cookie : Catalog :=
  [{ matcher := "document.cookie"
     vulnerability := "insecure-cookie"
     dangerous := false
     safeAlternatives := ["Cookie Store API", "HttpOnly cookies set by the server"]
     sample :=
       { before := "document.cookie = `session=$\x7btoken\x7d`"
         after := "res.cookie('session', token, \x7b httpOnly: true, secure: true, sameSite: 'strict' \x7d)" }
     effort := "10-20 minutes"
     riskTier := "medium" },
   { matcher := "cookie"
     vulnerability := "insecure-cookie"
     dangerous := true
     label := "cookie options"
     safeAlternatives := ["\x7b httpOnly: true, secure: true, sameSite: \"strict\" \x7d"]
     sample :=
       { before := "res.cookie('session', token)"
         after := "res.cookie('session', token, \x7b httpOnly: true, secure: true, sameSite: 'strict' \x7d)" }
     effort := "5 minutes"
     riskTier := "high"
     remediation :=
       ["Set httpOnly: true so scripts cannot read the cookie",
        "Set secure: true so the cookie is only sent over HTTPS",
        "Set sameSite: \"strict\" or \"lax\" to limit cross-site sending"] }]

/-- Methods that set headers. -/
def header : Catalog :=
  [{ matcher := "setHeader"
     vulnerability := "missing-header"
     dangerous := true
     safeAlternatives := ["helmet()", "Explicit res.setHeader calls"]
     sample :=
       { before := "res.setHeader('X-Custom', 'value')"
         after := "app.use(helmet())" }
     effort := "10 minutes"
     riskTier := "high" },
   { matcher := "header"
     vulnerability := "missing-header"
     dangerous := true
     safeAlternatives := ["helmet()", "Explicit res.header calls"]
     sample :=
       { before := "res.header('X-Custom', 'value')"
         after := "app.use(helmet())" }
     effort := "10 minutes"
     riskTier := "high" },
   { matcher := "set"
     vulnerability := "missing-header"
     dangerous := true
     safeAlternatives := ["helmet()", "Explicit res.set calls"]
     sample :=
       { before := "res.set('X-Custom', 'value')"
         after := "app.use(helmet())" }
     effort := "10 minutes"
     riskTier := "high" }]

/-- The headers that a response should have. -/
def requiredHeaders : List String :=
  ["Content-Security-Policy", "X-Frame-Options", "X-Content-Type-Options"]

end SinkAudit.Catalog
