import SinkAudit.Check.Basic
import SinkAudit.Pattern.Reader

/-! # Cookies

Cookies that scripts write or read, and cookies that a server sets without the flags that keep
them safe. -/
namespace SinkAudit

/-- Names of the objects through which a server answers. -/
def responseRoots : List String := ["res", "response", "reply", "ctx", "context"]

/-- Whether a chain of accesses starts at such an object. -/
def isResponse (object : Option String) : Bool :=
  object.any fun name => responseRoots.contains (Text.beforeFirst '.' name)

namespace Check.Cookie

/-- The name of the property through which scripts reach cookies. -/
def scriptCookie : String := "document.cookie"

/-- A flag of a cookie, with what an options object that sets it looks like. -/
structure Flag where
  name : String
  pattern : Pattern
  deriving DecidableEq, Repr

open Pattern in
/-- A flag that is set to `true`. -/
def Flag.switch (name : String) : Flag where
  name := name
  pattern := sequence [edge, exactly name, blanks, exactly ":", blanks, exactly "true", edge]

open Pattern in
/-- The flags that a cookie should have. -/
def requiredFlags : List Flag :=
  [.switch "httpOnly",
   .switch "secure",
   { name := "sameSite"
     pattern := sequence [edge, anyCase "sameSite", blanks, exactly ":", blanks, oneOf "'\"`",
       choice (["strict", "lax", "none"].map anyCase), oneOf "'\"`"] }]

/-- The flags that the text of an options object does not set. -/
def missingFlags (text : String) : List String :=
  (requiredFlags.filter fun f => !f.pattern.search text).map (·.name)

def handleAssignment (c : Check) (s : Source) (m : Memory) (i : Nat) : Handling :=
  let right := s.tree.child? i .right
  if s.nameOf? ((s.tree.child? i .left).map s.tree.unwrap) != some scriptCookie ||
      c.ignores [some (s.textOf right)] then m.silent
  else m.asks
    { sink := c.catalog.sink? scriptCookie, arguments := right.toList, reportStatic := true }

/-- Whether a node is what an assignment assigns to. -/
def isAssigned (s : Source) (i : Nat) : Except Fault Bool :=
  match (s.tree.parent? i).filter fun j => (s.tree.kind j).isAssignment with
  | none => .ok false
  | some parent =>
    match s.tree.child? parent .left with
    | none => .error .noTarget
    | some left => .ok (s.tree.key left == s.tree.key i)

def handleMember (c : Check) (s : Source) (m : Memory) (i : Nat) : Handling :=
  if c.options.allowReading.truthy || s.name? i != some scriptCookie then m.silent
  else do
    if (← isAssigned s i) || c.ignores [some (s.textOf (s.tree.parent? i))] then m.silent
    else
      return (m, some (.report (c.catalog.sink? scriptCookie) .medium
        "document.cookie is read from script; keep sensitive cookies httpOnly"))

/-- The flags that a call leaves out, nothing where that cannot be told. -/
def flagsLeftOut (s : Source) (arguments : List Nat) : List String :=
  match arguments with
  | _ :: _ :: third :: _ =>
    let options := s.tree.unwrap third
    if s.tree.kind options == .object then missingFlags (s.text options) else []
  | [_, _] => requiredFlags.map (·.name)
  | _ => []

def handleCall (c : Check) (s : Source) (m : Memory) (i : Nat) : Handling :=
  let target := s.callTarget i
  let missing := flagsLeftOut s (s.tree.callArguments i)
  if s.tree.kind i != .callExpression || target.method != some "cookie" ||
      !isResponse target.object || c.ignores [some (s.text i)] || missing.isEmpty then m.silent
  else m.asks
    { sink := c.catalog.sink? "cookie"
      reportStatic := true
      message := some ("Cookie set without " ++ ", ".intercalate missing) }

def describe (v : Verdict) : String :=
  if v.isTainted then "document.cookie is written with a user-influenced value"
  else "document.cookie is written from script; prefer server-set httpOnly cookies"

/-- The options that set all flags. -/
def safeOptions : String := "\x7b httpOnly: true, secure: true, sameSite: 'strict' \x7d"

def suggest (s : Source) (p : SinkPattern) (i : Nat) : List Fix :=
  if p.matcher == "cookie" then
    let arguments := s.tree.callArguments i
    let name := (arguments.head?.map s.text).getD "'name'"
    let value := ((arguments.drop 1).head?.map s.text).getD "value"
    [{ label := "Set httpOnly: true, secure: true, sameSite: \"strict\""
       template := nameOrNone (s.callTarget i).object ++ ".cookie(" ++ name ++ ", " ++ value ++
         ", " ++ safeOptions ++ ")" }]
  else
    [{ label := "Set the cookie on the server"
       template := "res.cookie(name, value, " ++ safeOptions ++ ")" }]

end Check.Cookie

end SinkAudit
