import SinkAudit.Sink.Basic

/-! # Navigation

Calls and assignments that lead to another address. -/
namespace SinkAudit.Catalog

/-- Sinks of addresses. -/
def redirect : Catalog :=
  [{ matcher := "redirect"
     vulnerability := "open-redirect"
     dangerous := false
     safeAlternatives := ["Allow-listed domains", "Relative URLs"]
     sample :=
       { before := "res.redirect(req.query.next)"
         after := "if (allowedDomains.includes(url.hostname)) res.redirect(url)" }
     effort := "10-15 minutes"
     riskTier := "high" },
   { matcher := "replace"
     vulnerability := "open-redirect"
     dangerous := false
     safeAlternatives := ["Allow-listed domains", "Relative URLs"]
     sample :=
       { before := "window.location.replace(next)"
         after := "window.location.replace(SAFE_ROUTES[next])" }
     effort := "10-15 minutes"
     riskTier := "high" },
   { matcher := "assign"
     vulnerability := "open-redirect"
     dangerous := false
     safeAlternatives := ["Allow-listed domains", "Relative URLs"]
     sample :=
       { before := "location.assign(target)"
         after := "location.assign(SAFE_ROUTES[target])" }
     effort := "10-15 minutes"
     riskTier := "high" },
   { matcher := "href"
     vulnerability := "open-redirect"
     dangerous := false
     safeAlternatives := ["Allow-listed domains", "Relative URLs"]
     sample :=
       { before := "window.location.href = next"
         after := "window.location.href = validateRedirectUrl(next)" }
     effort := "10-15 minutes"
     riskTier := "high" },
   { matcher := "location"
     vulnerability := "open-redirect"
     dangerous := false
     safeAlternatives := ["Allow-listed domains", "Relative URLs"]
     sample :=
       { before := "window.location = next"
         after := "window.location = validateRedirectUrl(next)" }
     effort := "10-15 minutes"
     riskTier := "high" }]

end SinkAudit.Catalog
