import SinkAudit.Tree.Expression
import SinkAudit.Text.Find
import SinkAudit.Text.Utf8

/-! # Source texts

The bytes of a file beside its tree: the text of nodes, the names that expressions spell, and
places as lines and columns. Bytes that are no text are left out of a node's text. -/
namespace SinkAudit

structure Source where
  tree : Tree
  bytes : Array UInt8

/-- A place in a text; lines and columns count from one, columns in bytes. -/
structure Position where
  line : Nat
  column : Nat
  deriving DecidableEq, Repr

/-- What a call names: the object that has the method, if it is not a bare call, and the method. -/
structure CallTarget where
  object : Option String := none
  method : Option String := none
  deriving DecidableEq, Repr

namespace Source

def slice (s : Source) (start stop : Nat) : List UInt8 := (s.bytes.extract start stop).toList

/-- The text of a node. -/
def text (s : Source) (i : Nat) : String :=
  String.ofList (Text.decode (s.slice (s.tree.node i).start (s.tree.node i).stop))

/-- The text of a node that may be missing. -/
def textOf (s : Source) : Option Nat → String
  | some i => s.text i
  | none => ""

/-- The place of a byte, given its offset. -/
def position (s : Source) (offset : Nat) : Position :=
  let before := s.slice 0 offset
  { line := before.count 10 + 1, column := (before.reverse.takeWhile (· != 10)).length + 1 }

def startOf (s : Source) (i : Nat) : Position := s.position (s.tree.node i).start

def stopOf (s : Source) (i : Nat) : Position := s.position (s.tree.node i).stop

/-- A text without its first and last character. -/
def inner (cs : List Char) : List Char := (cs.drop 1).dropLast

/-- A text without the quotes around it, if it has any. -/
def unquoted (cs : List Char) : List Char :=
  match cs with
  | c :: _ :: _ => if "'\"".toList.contains c && cs.getLast? == some c then inner cs else cs
  | _ => cs

/-- The value of a string literal; a template has one only without substitutions. -/
def stringValue? (s : Source) (i : Nat) : Option String :=
  match s.tree.kind i with
  | .stringLiteral => some (String.ofList (unquoted (Text.trim (s.text i)).toList))
  | .templateString =>
    if s.tree.hasSubstitution i then none
    else some (String.ofList (inner (Text.trim (s.text i)).toList))
  | .stringFragment => some (s.text i)
  | _ => none

/-- The first of two texts unless it is missing or empty. -/
def firstText (a b : Option String) : Option String :=
  if a.any (!·.isEmpty) then a else b

/-- Two names as one with a dot between, if neither is missing or empty. -/
def dotted (object property : Option String) : Option String :=
  match object, property with
  | some o, some p => if o.isEmpty || p.isEmpty then none else some (o ++ "." ++ p)
  | _, _ => none

/-- The string between the brackets of an access. -/
def indexText? (s : Source) (i : Nat) : Option String :=
  ((s.tree.child? i .index).filter fun j => s.tree.kind j == .stringLiteral).bind s.stringValue?

/-- The name that an expression spells. Of a chain of accesses it is the parts that have a name,
with dots between. -/
def name? (s : Source) (i : Nat) : Option String :=
  if (s.tree.kind i).isName then some (s.text i)
  else
    let below (f : Field) : Option String :=
      (s.tree.child? i f).attach.bind fun ⟨j, _⟩ => s.name? j
    match s.tree.kind i with
    | .thisKeyword => some "this"
    | .memberExpression =>
      (dotted (below .object) (below .property)).or (firstText (below .object) (below .property))
    | .subscriptExpression =>
      (dotted (below .object) (s.indexText? i)).or (below .object)
    | _ => none
termination_by s.tree.size - i
decreasing_by
  rename_i h
  have := Tree.lt_of_child? h
  omega

def nameOf? (s : Source) (i : Option Nat) : Option String := i.bind s.name?

theorem name?_eq (s : Source) (i : Nat) :
    s.name? i =
      if (s.tree.kind i).isName then some (s.text i)
      else
        let object := s.nameOf? (s.tree.child? i .object)
        let property := s.nameOf? (s.tree.child? i .property)
        match s.tree.kind i with
        | .thisKeyword => some "this"
        | .memberExpression => (dotted object property).or (firstText object property)
        | .subscriptExpression => (dotted object (s.indexText? i)).or object
        | _ => none := by
  rw [name?]
  have below (f : Field) : ((s.tree.child? i f).attach.bind fun x => s.name? x.1) =
      s.nameOf? (s.tree.child? i f) := by
    cases h : s.tree.child? i f <;> simp [nameOf?]
  simp only [below]

/-- What a call names. -/
def callTarget (s : Source) (i : Nat) : CallTarget :=
  let t := s.tree
  match (t.callee? i).map t.unwrap with
  | some f =>
    match t.kind f with
    | .identifier => { method := s.name? f }
    | .memberExpression =>
      { object := s.nameOf? (t.child? f .object), method := s.nameOf? (t.child? f .property) }
    | _ => {}
  | none => {}

/-- The last part of the name of what a call calls. -/
def calleeName? (s : Source) (i : Nat) : Option String :=
  firstText (s.callTarget i).method
    ((s.nameOf? ((s.tree.callee? i).map s.tree.unwrap)).map (Text.afterLast '.'))

end Source

end SinkAudit
