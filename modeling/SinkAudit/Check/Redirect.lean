import SinkAudit.Check.Basic

/-! # Redirects

Calls that redirect and assignments to the address of a page. -/
namespace SinkAudit.Check.Redirect

/-- The names of what, when assigned to, leads to another address. -/
def locationTargets : List String :=
  ["location", "location.href", "window.location", "window.location.href", "document.location",
   "document.location.href"]

/-- The address that a call leads to. -/
def callAddress? (s : Source) (i : Nat) (object : String) (method : Option String) : Option Nat :=
  let arguments := s.tree.callArguments i
  if method == some "redirect" then arguments.getLast?
  else if method.any ["replace", "assign"].contains && Text.endsWith object "location" then
    arguments.head?
  else none

def handleCall (c : Check) (s : Source) (m : Memory) (i : Nat) : Handling :=
  let target := s.callTarget i
  match target.object.filter fun _ => s.tree.kind i == .callExpression with
  | none => m.silent
  | some object =>
    match callAddress? s i object target.method with
    | none => m.silent
    | some address =>
      if c.ignores [some object, some (s.text address)] then m.silent
      else m.asks { sink := c.catalog.sinkOf? target.method, arguments := [address] }

/-- The target of an assignment, by name, if it is the address of the page. -/
def assignedLocation? (s : Source) (i : Nat) : Option String :=
  (s.nameOf? ((s.tree.child? i .left).map s.tree.unwrap)).filter locationTargets.contains

def handleAssignment (c : Check) (s : Source) (m : Memory) (i : Nat) : Handling :=
  match assignedLocation? s i with
  | none => m.silent
  | some name =>
    let right := s.tree.child? i .right
    if c.ignores [some name, some (s.textOf right)] then m.silent
    else
      let sink := if Text.endsWith name ".href" then "href" else "location"
      m.asks { sink := c.catalog.sink? sink, arguments := right.toList }

def describe (p : SinkPattern) : String := p.matcher ++ " navigates to an unvalidated dynamic URL"

def suggestions : List Fix :=
  [{ label := "Allow-list domains"
     template := "const url = new URL(target, base); " ++
       "if (!ALLOWED_HOSTS.includes(url.hostname)) throw new Error('Blocked redirect');" },
   { label := "Validate the redirect", template := "redirect(validateRedirectUrl(target))" },
   { label := "Use relative URLs", template := "redirect('/dashboard')" }]

end SinkAudit.Check.Redirect
