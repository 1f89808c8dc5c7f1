import SinkAudit.Check.Cookie
import SinkAudit.Tree.Scope

/-! # Security headers

Functions that set headers of a response but not all that a response should have. Each function is
reported once, at its first call that sets a header. -/
namespace SinkAudit.Check.Header

/-- The name of a header that a member of an object sets. -/
def keyName (s : Source) (i : Nat) : Option String :=
  let key := s.tree.child? i .key
  if s.tree.kind i == .pair then
    Source.firstText (key.bind s.stringValue?) (some (s.textOf key))
  else none

/-- The headers that the first argument of a call names. -/
def namesIn? (s : Source) (i : Nat) : Option (List String) :=
  match s.stringValue? i with
  | some name => some [name]
  | none =>
    if s.tree.kind i == .object then some ((s.tree.namedChildren i).filterMap (keyName s)) else none

/-- Whether a call's name says that it sets headers. -/
def setsHeaders (target : CallTarget) : Bool :=
  (target.method == some "setHeader" && target.object.isSome) ||
    (target.method.any ["header", "set"].contains && isResponse target.object)

/-- The headers that a call sets, none where it sets no headers. -/
def headerNames? (s : Source) (i : Nat) : Option (List String) :=
  if s.tree.kind i == .callExpression && setsHeaders (s.callTarget i) then
    ((s.tree.callArguments i).head?.map s.tree.unwrap).bind (namesIn? s)
  else none

/-- Whether a file sets headers by a library. -/
def usesHelmet (s : Source) : Bool :=
  s.tree.all.any fun i => s.tree.kind i == .callExpression && s.calleeName? i == some "helmet"

def prepare (s : Source) (m : Memory) : Memory := { m with usesHelmet := usesHelmet s }

/-- The children of a node that are not functions. -/
def nested (t : Tree) (i : Nat) : List Nat := (t.children i).filter fun j => !(t.kind j).isFunction

/-- The headers, in lower case, that are set at and below a node and outside of functions below. -/
def headersBelow (s : Source) (i : Nat) : List String :=
  ((headerNames? s i).getD []).map Text.lower ++
    (nested s.tree i).attach.flatMap fun ⟨j, _⟩ => headersBelow s j
termination_by s.tree.size - i
decreasing_by
  rename_i h
  have := Tree.lt_of_mem_children (List.mem_filter.mp h).1
  omega

theorem headersBelow_eq (s : Source) (i : Nat) :
    headersBelow s i =
      ((headerNames? s i).getD []).map Text.lower ++
        (nested s.tree i).flatMap (headersBelow s) := by
  rw [headersBelow]
  simp

/-- The required headers that a scope does not set. -/
def missingIn (c : Check) (s : Source) (scope : Nat) : List String :=
  let present := headersBelow s scope
  c.options.requiredHeaders.filter fun name => !present.contains (Text.lower name)

def inquiry (c : Check) (s : Source) (i : Nat) (missing : List String) : Inquiry where
  sink := c.catalog.sinkOf? (s.callTarget i).method
  reportStatic := true
  message := some ("Missing security headers: " ++ ", ".intercalate missing)

def handleCall (c : Check) (s : Source) (m : Memory) (i : Nat) : Handling :=
  if m.usesHelmet || (headerNames? s i).isNone || c.ignores [some (s.text i)] then m.silent
  else
    let scope := (s.tree.enclosingScope i).node
    let (emitter, free) := m.emitter.claim (s.tree.key scope)
    let m := { m with emitter }
    let missing := missingIn c s scope
    if !free || missing.isEmpty then m.silent else m.asks (inquiry c s i missing)

def suggest (s : Source) (i : Nat) : List Fix :=
  let object := nameOrNone (s.callTarget i).object
  [{ label := "Add the missing headers"
     template := object ++ ".setHeader('Content-Security-Policy', \"default-src 'self'\")" },
   { label := "Use helmet", template := "app.use(helmet())" },
   { label := "Set headers explicitly"
     template := object ++ ".setHeader('X-Content-Type-Options', 'nosniff')" }]

end SinkAudit.Check.Header
