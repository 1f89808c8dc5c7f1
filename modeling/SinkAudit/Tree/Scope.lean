import SinkAudit.Tree.Basic

/-! # Scopes

The scope of a node is the nearest function, or the whole program, around it; its statements are
those of the body. Statements before a node are found by their place in the text. -/
namespace SinkAudit

structure Scope where
  node : Nat
  statements : List Nat
  deriving DecidableEq, Repr

namespace Tree

def isScope (t : Tree) (i : Nat) : Bool := (t.kind i).isFunction || t.kind i == .program

/-- The node that holds the statements of a scope. -/
def body? (t : Tree) (i : Nat) : Option Nat :=
  if t.kind i == .program then some i
  else (t.child? i .body).filter fun j => t.kind j == .statementBlock || t.kind j == .classBody

def isStatement (t : Tree) (i : Nat) : Bool := t.kind i != .comment && t.kind i != .hashBang

def bodyStatements (t : Tree) (i : Nat) : List Nat :=
  match t.body? i with
  | some body => (t.namedChildren body).filter t.isStatement
  | none => []

def scopeAt (t : Tree) (i : Nat) : Scope := { node := i, statements := t.bodyStatements i }

/-- The scope of a node. Where none is around it, the topmost node stands for one, whose statements
are known only if it is a program. -/
def enclosingScope (t : Tree) (i : Nat) : Scope :=
  match _h : t.parent? i with
  | some j => if t.isScope j then t.scopeAt j else t.enclosingScope j
  | none => if t.kind i == .program then t.scopeAt i else { node := i, statements := [] }
termination_by i
decreasing_by exact parent?_lt _h

/-- The last `limit` statements before the one that holds a node, nearest first. -/
def precedingStatements (t : Tree) (i : Nat) (scope : Scope) (limit : Nat) : List Nat :=
  if scope.statements.any (t.spans · i) then
    (scope.statements.takeWhile fun s => !t.spans s i).reverse.take limit
  else []

end Tree

end SinkAudit
