import SinkAudit.Tree.Kind

/-! # Syntax trees

A tree is a table of nodes, each with a link to its parent; the first node is the root. A link
counts only if it points to an earlier node, so every path upwards ends and every path downwards
goes to later nodes. Nodes are named by their index; an index outside of the table names a node
that has neither parent nor children. -/
namespace SinkAudit

structure Node where
  kind : Kind
  /-- The offset of the first byte. -/
  start : Nat
  /-- The offset after the last byte. -/
  stop : Nat
  parent : Option Nat := none
  /-- Whether the node is more than a token. -/
  named : Bool := true
  field : Option Field := none
  deriving DecidableEq, Repr

/-- The node that an index outside of the table names. -/
def Node.outside : Node := { kind := .other "", start := 0, stop := 0, named := false }

structure Tree where
  nodes : Array Node
  deriving DecidableEq, Repr

namespace Tree

def size (t : Tree) : Nat := t.nodes.size

def node (t : Tree) (i : Nat) : Node := t.nodes.getD i .outside

theorem node_of_size_le {t : Tree} {i : Nat} (h : t.size ≤ i) : t.node i = .outside := by
  rw [node, Array.getD_eq_getD_getElem?, Array.getElem?_eq_none h]
  rfl

def kind (t : Tree) (i : Nat) : Kind := (t.node i).kind

def parent? (t : Tree) (i : Nat) : Option Nat := (t.node i).parent.filter (· < i)

theorem parent?_lt {t : Tree} {i j : Nat} (h : t.parent? i = some j) : j < i := by
  unfold parent? at h
  simpa using (Option.filter_eq_some_iff.mp h).2

def children (t : Tree) (i : Nat) : List Nat :=
  (List.range t.size).filter fun j => t.parent? j == some i

theorem mem_children {t : Tree} {i j : Nat} :
    j ∈ t.children i ↔ j < t.size ∧ t.parent? j = some i := by
  simp [children]

theorem lt_of_mem_children {t : Tree} {i j : Nat} (h : j ∈ t.children i) : i < j ∧ j < t.size :=
  ⟨parent?_lt (mem_children.mp h).2, (mem_children.mp h).1⟩

def namedChildren (t : Tree) (i : Nat) : List Nat := (t.children i).filter fun j => (t.node j).named

theorem mem_children_of_named {t : Tree} {i j : Nat} (h : j ∈ t.namedChildren i) :
    j ∈ t.children i :=
  (List.mem_filter.mp h).1

theorem lt_of_mem_namedChildren {t : Tree} {i j : Nat} (h : j ∈ t.namedChildren i) :
    i < j ∧ j < t.size :=
  lt_of_mem_children (mem_children_of_named h)

/-- The child with a given role. -/
def child? (t : Tree) (i : Nat) (f : Field) : Option Nat :=
  (t.children i).find? fun j => (t.node j).field == some f

theorem mem_children_of_child? {t : Tree} {i j : Nat} {f : Field} (h : t.child? i f = some j) :
    j ∈ t.children i :=
  List.mem_of_find?_eq_some h

theorem lt_of_child? {t : Tree} {i j : Nat} {f : Field} (h : t.child? i f = some j) :
    i < j ∧ j < t.size :=
  lt_of_mem_children (mem_children_of_child? h)

/-- The nodes of the subtree below and at a node, each before its children. -/
def walk (t : Tree) (i : Nat) : List Nat :=
  i :: (t.children i).attach.flatMap fun ⟨j, _⟩ => t.walk j
termination_by t.size - i
decreasing_by
  rename_i h
  have := lt_of_mem_children h
  omega

theorem walk_eq (t : Tree) (i : Nat) : t.walk i = i :: (t.children i).flatMap t.walk := by
  rw [walk]
  simp

/-- All nodes that the root reaches. -/
def all (t : Tree) : List Nat := t.walk 0

/-- Where a node is and what it is: equal for nodes that cannot be told apart by either. -/
structure Key where
  start : Nat
  stop : Nat
  kind : Kind
  deriving DecidableEq, Repr

def key (t : Tree) (i : Nat) : Key :=
  { start := (t.node i).start, stop := (t.node i).stop, kind := t.kind i }

/-- Whether one node's bytes lie within another's. -/
def spans (t : Tree) (outer inner : Nat) : Bool :=
  (t.node outer).start ≤ (t.node inner).start && (t.node inner).stop ≤ (t.node outer).stop

end Tree

end SinkAudit
