import SinkAudit.Tree.Basic

/-! # The shape of expressions

What can be said about an expression without its text: what it is wrapped in, what a call calls
and with which arguments, and whether its value is fixed. -/
namespace SinkAudit.Tree

/-- The expression inside of a wrapper. -/
def wrapped? (t : Tree) (i : Nat) : Option Nat :=
  (t.child? i .expression).or (t.namedChildren i).head?

theorem lt_of_wrapped? {t : Tree} {i j : Nat} (h : t.wrapped? i = some j) : i < j ∧ j < t.size := by
  unfold wrapped? at h
  rcases Option.or_eq_some_iff.mp h with h | ⟨_, h⟩
  · exact lt_of_child? h
  · exact lt_of_mem_namedChildren (List.mem_of_head? h)

/-- The expression inside of all parentheses, `await`s and casts around it. -/
def unwrap (t : Tree) (i : Nat) : Nat :=
  if (t.kind i).isWrapper then
    match _h : t.wrapped? i with
    | some j => t.unwrap j
    | none => i
  else i
termination_by t.size - i
decreasing_by
  have := lt_of_wrapped? _h
  omega

theorem le_unwrap (t : Tree) (i : Nat) : i ≤ t.unwrap i := by
  fun_induction unwrap t i with
  | case1 i _ j h ih =>
    have := lt_of_wrapped? h
    omega
  | case2 => exact Nat.le_refl _
  | case3 => exact Nat.le_refl _

theorem unwrap_lt_size {t : Tree} {i : Nat} (h : i < t.size) : t.unwrap i < t.size := by
  fun_induction unwrap t i with
  | case1 i _ j hj ih => exact ih (lt_of_wrapped? hj).2
  | case2 => exact h
  | case3 => exact h

/-- The arguments of a call. -/
def callArguments (t : Tree) (i : Nat) : List Nat :=
  match t.child? i .arguments with
  | some list =>
    if t.kind list == .arguments then
      (t.namedChildren list).filter fun j => t.kind j != .comment
    else []
  | none => []

theorem lt_of_mem_callArguments {t : Tree} {i j : Nat} (h : j ∈ t.callArguments i) :
    i < j ∧ j < t.size := by
  unfold callArguments at h
  split at h
  · next list hl =>
    split at h
    · have h₁ := lt_of_child? hl
      have h₂ := lt_of_mem_namedChildren (List.mem_filter.mp h).1
      omega
    · simp at h
  · simp at h

/-- What a call calls. -/
def callee? (t : Tree) (i : Nat) : Option Nat :=
  match t.kind i with
  | .callExpression => t.child? i .callee
  | .newExpression => t.child? i .newCallee
  | _ => none

/-- The elements of an array that are not comments. -/
def elements (t : Tree) (i : Nat) : List Nat :=
  (t.namedChildren i).filter fun j => t.kind j != .comment

def hasSubstitution (t : Tree) (i : Nat) : Bool :=
  (t.namedChildren i).any fun j => t.kind j == .templateSubstitution

/-- The operator of an expression: the child in that role, else its first token. -/
def operator? (t : Tree) (i : Nat) : Option Kind :=
  match t.child? i .operator with
  | some j => some (t.kind j)
  | none => ((t.children i).find? fun j => !(t.node j).named).map t.kind

/-- Whether an expression that is not wrapped is one whose value is computed when it runs, as far
as can be told without its parts. -/
def isDynamicLeaf (t : Tree) (i : Nat) : Bool :=
  match t.kind i with
  | .templateString => t.hasSubstitution i
  | .binaryExpression => t.operator? i == some .plus
  | .object => (t.namedChildren i).any fun j => t.kind j == .shorthandProperty
  | k => k.isReference

/-- The part of an object's member that may hold a computed value. -/
def memberValue? (t : Tree) (i : Nat) : Option Nat :=
  match t.kind i with
  | .pair => t.child? i .value
  | .spreadElement => some i
  | _ => none

/-- The parts of an expression, not wrapped, from which it takes its value. -/
def valueParts (t : Tree) (i : Nat) : List Nat :=
  match t.kind i with
  | .spreadElement => (t.namedChildren i).head?.toList
  | .array => t.elements i
  | .object => (t.namedChildren i).filterMap t.memberValue?
  | .ternary => (t.child? i .consequence).toList ++ (t.child? i .alternative).toList
  | .callExpression => t.callArguments i
  | .newExpression => t.callArguments i
  | _ => []

theorem lt_of_mem_valueParts {t : Tree} {i j : Nat} (h : j ∈ t.valueParts i) :
    i < j ∧ j < t.size := by
  unfold valueParts at h
  split at h
  · exact lt_of_mem_namedChildren (List.mem_of_head? (by simpa using h))
  · exact lt_of_mem_namedChildren (List.mem_filter.mp h).1
  · obtain ⟨k, hk, hj⟩ := List.mem_filterMap.mp h
    have := lt_of_mem_namedChildren hk
    unfold memberValue? at hj
    split at hj
    · have := lt_of_child? hj
      omega
    · simp_all
    · simp at hj
  · rcases List.mem_append.mp h with h | h
    · exact lt_of_child? (by simpa using h)
    · exact lt_of_child? (by simpa using h)
  · exact lt_of_mem_callArguments h
  · exact lt_of_mem_callArguments h
  · simp at h

/-- Whether an expression may have a value that is computed when it runs. Of shapes that tell
nothing the answer is no. -/
def isDynamic (t : Tree) (i : Nat) : Bool :=
  t.isDynamicLeaf (t.unwrap i) ||
    (t.valueParts (t.unwrap i)).attach.any fun ⟨j, _⟩ => t.isDynamic j
termination_by t.size - i
decreasing_by
  rename_i h
  have := lt_of_mem_valueParts h
  have := le_unwrap t i
  omega

theorem isDynamic_eq (t : Tree) (i : Nat) :
    t.isDynamic i =
      (t.isDynamicLeaf (t.unwrap i) || (t.valueParts (t.unwrap i)).any t.isDynamic) := by
  rw [isDynamic]
  simp

/-- Whether an expression is written out in full. -/
def isLiteral (t : Tree) (i : Nat) : Bool :=
  let i := t.unwrap i
  (t.kind i).isLiteral || (t.kind i == .templateString && !t.hasSubstitution i)

/-- Whether an expression is a literal or an array of literals. -/
def isLiteralArgument (t : Tree) (i : Nat) : Bool :=
  let i := t.unwrap i
  t.isLiteral i || (t.kind i == .array && (t.elements i).all t.isLiteral)

end SinkAudit.Tree
