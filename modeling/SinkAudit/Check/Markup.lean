import SinkAudit.Check.Basic

/-! # Markup

Values that become parts of a page: assignments to markup properties, calls that write markup, and
the attribute that sets it. -/
namespace SinkAudit.Check.Markup

def handleAssignment (c : Check) (s : Source) (m : Memory) (i : Nat) : Handling :=
  let t := s.tree
  match ((t.child? i .left).map t.unwrap).filter fun j => t.kind j == .memberExpression with
  | none => m.silent
  | some left =>
    match (s.nameOf? (t.child? left .property)).filter ["innerHTML", "outerHTML"].contains with
    | none => m.silent
    | some property =>
      let right := t.child? i .right
      let object := s.nameOf? (t.child? left .object)
      if c.ignores [object, some (s.text left), some (s.textOf right)] then m.silent
      else m.asks { sink := c.catalog.sink? property, arguments := right.toList }

/-- The arguments of a call that become markup. -/
def writtenArguments (s : Source) (i : Nat) : List Nat :=
  let target := s.callTarget i
  let arguments := s.tree.callArguments i
  if target.method == some "insertAdjacentHTML" && target.object.isSome then
    (arguments.drop 1).take 1
  else if target.method.any ["write", "writeln"].contains &&
      target.object.any ["document", "window.document"].contains then arguments
  else []

def handleCall (c : Check) (s : Source) (m : Memory) (i : Nat) : Handling :=
  let target := s.callTarget i
  let values := writtenArguments s i
  if values.isEmpty || c.ignores [target.object, some (s.text i)] then m.silent
  else m.asks { sink := c.catalog.sinkOf? target.method, arguments := values }

/-- The attribute that sets markup. -/
def markupAttribute : String := "dangerouslySetInnerHTML"

/-- Whether a pair of the attribute's object holds the markup. -/
def isMarkupPair (s : Source) (i : Nat) : Bool :=
  s.tree.kind i == .pair &&
    Text.trimQuotes (s.textOf (s.tree.child? i .key)) == "__html"

/-- The markup in the value of the attribute. -/
def markupOf? (s : Source) (value : Nat) : Option Nat :=
  let t := s.tree
  if t.kind value == .object then
    ((t.namedChildren value).find? (isMarkupPair s)).bind (t.child? · .value)
  else some value

/-- The expression between the braces after an attribute's name. -/
def attributeValue? (s : Source) (parts : List Nat) : Option Nat :=
  let t := s.tree
  (parts.find? fun j => t.kind j == .jsxExpression).bind fun e =>
    ((t.namedChildren e).find? fun j => t.kind j != .comment).map t.unwrap

def handleAttribute (c : Check) (s : Source) (m : Memory) (i : Nat) : Handling :=
  match s.tree.namedChildren i with
  | [] => m.silent
  | name :: parts =>
    if s.text name != markupAttribute then m.silent
    else
      match (attributeValue? s parts).bind (markupOf? s) with
      | none => m.silent
      | some value =>
        if c.ignores [some (s.text value)] then m.silent
        else m.asks { sink := c.catalog.sink? markupAttribute, arguments := [value] }

def describe (p : SinkPattern) : String := p.matcher ++ " receives unsanitized dynamic HTML"

def suggest (s : Source) (i : Nat) : Except Fault (List Fix) :=
  let t := s.tree
  if (t.kind i).isAssignment then
    match t.child? i .left with
    | none => .error .noTarget
    | some left =>
      let value := s.textOf (t.child? i .right)
      .ok
        [{ label := "Use textContent"
           template := s.textOf (t.child? left .object) ++ ".textContent = " ++ value },
         { label := "Sanitize HTML"
           template := s.text left ++ " = DOMPurify.sanitize(" ++ value ++ ")" }]
  else
    .ok
      [{ label := "Use textContent", template := "element.textContent = value" },
       { label := "Sanitize HTML", template := "DOMPurify.sanitize(value)" }]

end SinkAudit.Check.Markup
