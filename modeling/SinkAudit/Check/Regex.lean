import SinkAudit.Check.Code

/-! # Regular expressions

Regular expressions that are put together when the program runs, that have a shape which may take
exponential time, or that are very long. -/
namespace SinkAudit.Check.Regex

/-- The steps for a shape and for the sink in which it occurs. -/
def shapeSteps (p shape : SinkPattern) : List String := addSteps shape.remediation p.steps

def inquiry (p : SinkPattern) (arguments : List Nat) (shape : Option SinkPattern) (long : Bool) :
    Inquiry where
  sink := some p
  arguments := arguments
  structural := shape.isSome
  reportStatic := long
  remediation := shape.map (shapeSteps p)
  alternatives := shape.map (·.safeAlternatives)
  effort := shape.map (·.effort)

/-- The first sink of the catalog that a call is. -/
def callSink? (c : Check) (s : Source) (i : Nat) : Option SinkPattern :=
  c.catalog.find? fun p => s.isSinkCall p i

def isLong (c : Check) (body : String) : Bool := c.options.maxPatternLength < body.length

def handleCall (c : Check) (s : Source) (m : Memory) (i : Nat) : Handling :=
  let target := s.callTarget i
  match (s.tree.callArguments i).head?.map s.tree.unwrap with
  | none => m.silent
  | some first =>
    if target.method != some "RegExp" || !target.isGlobal || c.ignores [some (s.text first)] then
      m.silent
    else
      let p := (callSink? c s i).getD (.generic c.kind.vulnerability "RegExp")
      let value := s.stringValue? first
      let shape := Catalog.regexShape.sink? (value.getD (s.text first))
      Memory.asks { m with shape } (inquiry p [first] shape (value.any (isLong c)))

def handleLiteral (c : Check) (s : Source) (m : Memory) (i : Nat) : Handling :=
  let body := s.textOf (s.tree.child? i .pattern)
  let shape := Catalog.regexShape.sink? body
  if c.ignores [some body] || (shape.isNone && !isLong c body) then m.silent
  else Memory.asks { m with shape } (inquiry Catalog.regexLiteral [] shape (isLong c body))

def describe (c : Check) (m : Memory) (p : SinkPattern) (v : Verdict) : String :=
  match v.isTainted, m.shape with
  | true, some shape => p.name ++ " combines a user-influenced pattern with " ++ shape.name
  | true, none => p.name ++ " compiles a user-influenced pattern"
  | false, some shape =>
    p.name ++ " contains " ++ shape.name ++ " and may backtrack catastrophically"
  | false, none =>
    p.name ++ " is longer than " ++ toString c.options.maxPatternLength ++ " characters"

def suggestions : List Fix :=
  [{ label := "Use a static regex"
     template := "const PATTERNS = \x7b email: /^[^@\\s]+@[^@\\s]+$/ \x7d;" },
   { label := "Validate input"
     template := "if (value.length > 100 || !/^[\\w-]+$/.test(value)) " ++
       "throw new Error('Invalid pattern');" },
   { label := "Use a safe regex engine"
     template := "const RE2 = require('re2'); new RE2(pattern)  // or check with safe-regex" },
   { label := "Bound execution time", template := "run the match in a worker with a timeout" },
   { label := "Escape input"
     template := "value.replace(/[.*+?^$\x7b\x7d()|[\\]\\\\]/g, '\\\\$&')" }]

end SinkAudit.Check.Regex
