import SinkAudit.Check.Basic
import SinkAudit.Tree.Binding

/-! # Commands

Calls of the process module whose command is put together when the program runs. The module and
its methods are known by the names that the file gives them. -/
namespace SinkAudit.Check.Command

/-- The names of the process module. -/
def processModules : List String := ["child_process", "node:child_process"]

/-- The local names that stand for the process module or a member of it. -/
def aliasesIn (s : Source) : List String :=
  (settled s.moduleNames).filterMap fun (name, origin) =>
    if processModules.contains origin then some name else none

/-- The local names that stand for methods that run commands. -/
def boundIn (c : Check) (s : Source) : List (String × String) :=
  (aliasesIn s).filterMap fun name =>
    let method := (lastFor name s.memberNames).getD name
    if c.methods.contains method then some (name, method) else none

/-- What is learnt from a file before its nodes are visited. -/
def prepare (c : Check) (s : Source) (m : Memory) : Memory :=
  { m with aliases := aliasesIn s, boundFunctions := boundIn c s }

/-- What a call calls, without its wrappers. -/
def calledNode? (s : Source) (i : Nat) : Option Nat := (s.tree.callee? i).map s.tree.unwrap

/-- The method that a call calls, by the name that the process module gives it. -/
def methodName? (s : Source) (m : Memory) (i : Nat) : Option String :=
  let bound := ((calledNode? s i).filter fun f => s.tree.kind f == .identifier).bind fun f =>
    m.boundFunctions.lookup (s.text f)
  Source.firstText bound (s.calleeName? i)

/-- Whether an expression is the process module. -/
def isProcessModule (s : Source) (m : Memory) (i : Nat) : Bool :=
  if s.tree.kind i == .callExpression then
    (s.callTarget i).method == some "require" &&
      ((s.tree.callArguments i).head?.bind s.stringValue?).any processModules.contains
  else (s.name? i).any fun name => name == "child_process" || m.aliases.contains name

/-- Whether a call calls the process module. -/
def isProcessCall (s : Source) (m : Memory) (i : Nat) : Bool :=
  match calledNode? s i with
  | none => false
  | some f =>
    match s.tree.kind f with
    | .identifier => (m.boundFunctions.lookup (s.text f)).isSome
    | .memberExpression =>
      ((s.tree.child? f .object).map s.tree.unwrap).any (isProcessModule s m)
    | _ => false

/-- Whether a pair turns on the shell. -/
def isShellPair (s : Source) (i : Nat) : Bool :=
  let t := s.tree
  t.kind i == .pair && Text.trimQuotes (s.textOf (t.child? i .key)) == "shell" &&
    ((t.child? i .value).map t.unwrap).any fun v =>
      t.kind v == .trueLiteral || t.kind v == .stringLiteral

/-- Whether one of the arguments turns on the shell. -/
def enablesShell (s : Source) (arguments : List Nat) : Bool :=
  arguments.any fun i =>
    let i := s.tree.unwrap i
    s.tree.kind i == .object && (s.tree.namedChildren i).any (isShellPair s)

/-- Whether literal arguments make a call of a method acceptable. -/
def allowsLiteral (c : Check) (method : String) : Bool :=
  (Catalog.textMethods.contains method && c.options.allowLiteralArguments.truthy) ||
    (Catalog.listMethods.contains method && c.options.allowLiteralArrayArguments.truthy)

/-- The evaluation of a call of a method with arguments. -/
def inquiry (c : Check) (s : Source) (method : String) (arguments : List Nat) : Inquiry where
  sink := (c.catalog.sink? method).or (some (.generic c.kind.vulnerability method))
  arguments := arguments.take (if Catalog.textMethods.contains method then 1 else 2)
  structural := enablesShell s arguments
  reportStatic := true

def handleCall (c : Check) (s : Source) (m : Memory) (i : Nat) : Handling :=
  match methodName? s m i with
  | none => m.silent
  | some method =>
    let arguments := s.tree.callArguments i
    if s.tree.kind i != .callExpression || !c.methods.contains method || !isProcessCall s m i ||
        c.ignores [some (s.text i)] || arguments.isEmpty ||
        (arguments.all s.tree.isLiteralArgument && allowsLiteral c method) then m.silent
    else m.asks (inquiry c s method arguments)

def describe (p : SinkPattern) (v : Verdict) : String :=
  if v.isTainted then
    p.matcher ++ "() runs a command built from user-influenced input (" ++ p.vulnerability ++ ")"
  else p.matcher ++ "() runs a shell command; prefer argument arrays and \x7bshell: false\x7d"

/-- The expression of a word that is nothing but a substitution. -/
def slot? (word : List Char) : Option (List Char) :=
  match word with
  | '$' :: '\x7b' :: rest =>
    let e := rest.dropLast
    if rest.getLast? == some '\x7d' && !e.isEmpty && !e.contains '\x7b' && !e.contains '\x7d' then
      some e
    else none
  | _ => none

def holdsSlot (word : List Char) : Bool := Text.containsChars ['$', '\x7b'] word

/-- A word of a command as an element of an argument list. -/
def argumentOf (word : List Char) : String :=
  match slot? word with
  | some e => String.ofList e
  | none =>
    let mark := if holdsSlot word then "`" else "'"
    mark ++ String.ofList word ++ mark

/-- The call of a function with the words of a command apart. -/
def callWith (function command : String) (arguments : List String) : String :=
  function ++ "(" ++ command ++ ", [" ++ ", ".intercalate arguments ++ "], \x7b shell: false \x7d)"

/-- The words of a command text, without the quotes around it. -/
def commandWords (text : String) : List (List Char) := Text.wordsOf (Source.inner text.toList)

/-- A call of a function that runs a command without a shell. -/
def argvTemplate (function : String) (words : List (List Char)) : String :=
  match words with
  | word :: rest =>
    if holdsSlot word then callWith function "command" ["arg1", "arg2"]
    else callWith function ("'" ++ String.ofList word ++ "'") (rest.map argumentOf)
  | [] => callWith function "command" ["arg1", "arg2"]

def suggest (s : Source) (p : SinkPattern) (i : Nat) : List Fix :=
  let first := (s.tree.callArguments i).head?.map s.tree.unwrap
  let words := match first.filter fun j => (s.tree.kind j).isString with
    | some j => commandWords (s.text j)
    | none => []
  let sync := Text.endsWith p.matcher "Sync"
  [{ label := "Use execFile"
     template := argvTemplate (if sync then "execFileSync" else "execFile") words },
   { label := "Use spawn", template := argvTemplate (if sync then "spawnSync" else "spawn") words },
   { label := "Use a safer process library"
     template := "execa / zx / cross-spawn with arguments passed as an array" },
   { label := "Validate input"
     template := "if (!/^[\\w.\\/:-]+$/.test(value)) throw new Error('Invalid argument');" },
   { label := "Disable the shell", template := "\x7b shell: false \x7d" }]

end SinkAudit.Check.Command
