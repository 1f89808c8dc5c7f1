import SinkAudit.Pattern.Reader
import SinkAudit.Pattern.Matcher
import SinkAudit.Tree.Source

/-! # Values that look like user input

A value looks like user input if its text names a part of a request or of the page's address, or
if it is a variable whose name suggests it. -/
namespace SinkAudit

open Pattern in
/-- Chains of accesses that read a request or the address of a page. -/
def userInputPatterns : List Pattern :=
  [sequence [edge, choice (["req", "request", "ctx"].map exactly), exactly ".",
      choice (["body", "query", "params", "headers", "cookies"].map exactly), edge],
   sequence [edge, exactly "window.location", edge],
   sequence [edge, exactly "document.location", edge],
   sequence [edge, exactly "location.", choice (["search", "hash", "href"].map exactly), edge]]

/-- Names of variables that suggest user input. -/
def userInputNames : List String := ["userinput", "userdata", "html", "content", "text"]

/-- Parts of such names. -/
def userInputFragments : List String := ["input", "data", "param", "arg"]

def suggestsInput (name : String) : Bool :=
  userInputNames.contains (Text.lower name) ||
    userInputFragments.any (Text.contains (Text.lower name))

namespace Source

def looksLikeUserInput (s : Source) (i : Nat) : Bool :=
  let i := s.tree.unwrap i
  userInputPatterns.any (·.search (s.text i)) ||
    (s.tree.kind i == .identifier && suggestsInput (s.text i))

end Source

end SinkAudit
