import SinkAudit.Sink.Basic

/-! # Writes of markup

Properties and methods that turn text into parts of a page. -/
namespace SinkAudit.Catalog

/-- Sinks of markup. -/
def markup : Catalog :=
  [{ matcher := "innerHTML"
     vulnerability := "xss"
     dangerous := true
     safeAlternatives := ["textContent", "DOMPurify.sanitize()"]
     sample :=
       { before := "element.innerHTML = userInput"
         after := "element.textContent = userInput" }
     effort := "5-10 minutes"
     riskTier := "critical" },
   { matcher := "outerHTML"
     vulnerability := "xss"
     dangerous := true
     safeAlternatives := ["replaceWith(document.createTextNode(...))", "DOMPurify.sanitize()"]
     sample :=
       { before := "element.outerHTML = markup"
         after := "element.replaceWith(document.createTextNode(markup))" }
     effort := "5-10 minutes"
     riskTier := "critical" },
   { matcher := "insertAdjacentHTML"
     vulnerability := "xss"
     dangerous := true
     safeAlternatives := ["insertAdjacentText", "DOMPurify.sanitize()"]
     sample :=
       { before := "element.insertAdjacentHTML('beforeend', html)"
         after := "element.insertAdjacentText('beforeend', text)" }
     effort := "5-10 minutes"
     riskTier := "critical" },
   { matcher := "write"
     vulnerability := "xss"
     dangerous := true
     safeAlternatives := ["DOM APIs such as createElement/textContent"]
     sample :=
       { before := "document.write(html)"
         after := "container.append(document.createTextNode(text))" }
     effort := "10-15 minutes"
     riskTier := "critical" },
   { matcher := "writeln"
     vulnerability := "xss"
     dangerous := true
     safeAlternatives := ["DOM APIs such as createElement/textContent"]
     sample :=
       { before := "document.writeln(html)"
         after := "container.append(document.createTextNode(text))" }
     effort := "10-15 minutes"
     riskTier := "critical" },
   { matcher := "dangerouslySetInnerHTML"
     vulnerability := "xss"
     dangerous := true
     safeAlternatives := ["Render as JSX children", "DOMPurify.sanitize()"]
     sample :=
       { before := "<div dangerouslySetInnerHTML=\x7b\x7b __html: html \x7d\x7d />"
         after := "<div dangerouslySetInnerHTML=\x7b\x7b __html: DOMPurify.sanitize(html) \x7d\x7d />" }
     effort := "5-10 minutes"
     riskTier := "critical" }]

end SinkAudit.Catalog
