import SinkAudit.Tree.Source

/-! # Names bound to modules

What local names a file gives to modules and to their members, by `import` or by `require`. Of
several bindings of one name the last counts. -/
namespace SinkAudit

structure Binding where
  name : String
  /-- The module. -/
  origin : String
  /-- The member of the module, unless the name stands for the module. -/
  member : Option String := none
  deriving DecidableEq, Repr

namespace Source

/-- A text unless it is missing or empty. -/
def solid (text : Option String) : Option String := text.filter (!·.isEmpty)

/-- A name that a pattern binds to a property. -/
def patternName (s : Source) (i : Nat) : Option (String × Option String) :=
  let t := s.tree
  match t.kind i with
  | .shorthandPattern => some (s.text i, some (s.text i))
  | .pairPattern =>
    let key := Text.trimQuotes (s.textOf (t.child? i .key))
    (solid (s.nameOf? (t.child? i .value))).map (·, solid (some key))
  | .assignmentPattern => (solid (s.nameOf? (t.child? i .left))).map fun name => (name, some name)
  | _ => none

/-- The names on the left of a declaration, each with the property that it takes. -/
def declaredNames (s : Source) (i : Nat) : List (String × Option String) :=
  match s.tree.kind i with
  | .identifier => [(s.text i, none)]
  | .objectPattern => (s.tree.namedChildren i).filterMap s.patternName
  | _ => []

/-- The module that a `require` call asks for. -/
def required? (s : Source) (i : Nat) : Option String :=
  let t := s.tree
  if t.kind i == .callExpression && s.nameOf? (t.child? i .callee) == some "require" then
    solid ((t.callArguments i).head?.bind s.stringValue?)
  else none

def declaratorBindings (s : Source) (i : Nat) : List Binding :=
  let t := s.tree
  match ((t.child? i .value).map t.unwrap).bind s.required?, t.child? i .declared with
  | some origin, some left =>
    (s.declaredNames left).map fun (name, member) => { name, origin, member }
  | _, _ => []

/-- The binding of one name between the braces of an import. -/
def specifierBinding (s : Source) (origin : String) (i : Nat) : Option Binding :=
  let t := s.tree
  if t.kind i == .importSpecifier then
    let member := s.nameOf? (t.child? i .declared)
    (solid (firstText (s.nameOf? (t.child? i .localName)) member)).map fun name =>
      { name, origin, member }
  else none

/-- The bindings of one part of an import. -/
def clauseBindings (s : Source) (origin : String) (i : Nat) : List Binding :=
  let t := s.tree
  match t.kind i with
  | .identifier => [{ name := s.text i, origin }]
  | .namespaceImport =>
    let name := s.nameOf? ((t.children i).find? fun j => t.kind j == .identifier)
    ((solid name).map fun name => { name, origin }).toList
  | .namedImports => (t.namedChildren i).filterMap (s.specifierBinding origin)
  | _ => []

def importBindings (s : Source) (i : Nat) : List Binding :=
  let t := s.tree
  match solid ((t.child? i .source).bind s.stringValue?),
      (t.children i).find? fun j => t.kind j == .importClause with
  | some origin, some clause => (t.namedChildren clause).flatMap (s.clauseBindings origin)
  | _, _ => []

def bindingsAt (s : Source) (i : Nat) : List Binding :=
  match s.tree.kind i with
  | .variableDeclarator => s.declaratorBindings i
  | .importStatement => s.importBindings i
  | _ => []

/-- All bindings of a file in the order of its text. -/
def bindings (s : Source) : List Binding := s.tree.all.flatMap s.bindingsAt

/-- The names that stand for modules or members, each with its module; the last counts. -/
def moduleNames (s : Source) : List (String × String) := s.bindings.map fun b => (b.name, b.origin)

/-- The names that stand for members, each with its member; the last counts. -/
def memberNames (s : Source) : List (String × String) :=
  s.bindings.filterMap fun b => (solid b.member).map (b.name, ·)

end Source

/-- The entry for a name in a list where the last counts. -/
def lastFor (name : String) (entries : List (String × String)) : Option String :=
  (entries.reverse.find? (·.1 == name)).map (·.2)

/-- The entries that count, in order of their names. -/
def settled (entries : List (String × String)) : List (String × String) :=
  (Text.sort (Text.distinct (entries.map (·.1)))).filterMap fun name =>
    (lastFor name entries).map (name, ·)

end SinkAudit
