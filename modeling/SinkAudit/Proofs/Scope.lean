import Mathlib.Logic.Relation
import SinkAudit.Check.Header

/-! # Walks and scopes

Two ways lead from a node to its scope and back: upwards to the nearest function or program, and
downwards through all children that are not functions. In a tree whose only program is the root
they agree: below a scope and outside of the functions in it stand exactly the nodes whose scope it
is (`inner_iff_scopeOf`). -/
namespace SinkAudit.Tree

theorem mem_walk {t : Tree} {i j : Nat} :
    j ∈ t.walk i ↔ Relation.ReflTransGen (fun a b => b ∈ t.children a) i j := by
  induction i using walk.induct t with
  | case1 i ih =>
    rw [walk_eq, List.mem_cons, List.mem_flatMap, Relation.ReflTransGen.cases_head_iff]
    refine or_congr eq_comm ⟨?_, ?_⟩
    · rintro ⟨k, hk, hj⟩
      exact ⟨k, hk, (ih k hk).mp hj⟩
    · rintro ⟨k, hk, hj⟩
      exact ⟨k, hk, (ih k hk).mpr hj⟩

theorem parent?_zero (t : Tree) : t.parent? 0 = none := by
  cases h : t.parent? 0 with
  | none => rfl
  | some j => exact absurd (parent?_lt h) (Nat.not_lt_zero j)

/-- An index outside of the table has no parent. -/
theorem lt_size_of_parent? {t : Tree} {i j : Nat} (h : t.parent? i = some j) : i < t.size := by
  refine Nat.lt_of_not_le fun hi => ?_
  simp [parent?, node_of_size_le hi, Node.outside] at h

theorem mem_children_of_parent? {t : Tree} {i j : Nat} (h : t.parent? i = some j) :
    i ∈ t.children j :=
  mem_children.mpr ⟨lt_size_of_parent? h, h⟩

theorem parent_mem_all {t : Tree} {i j : Nat} (hi : i ∈ t.all) (h : t.parent? i = some j) :
    j ∈ t.all := by
  rcases Relation.ReflTransGen.cases_tail (mem_walk.mp hi) with rfl | ⟨k, hk, hik⟩
  · simp [parent?_zero] at h
  · have : k = j := by simpa [h] using (mem_children.mp hik).2.symm
    exact mem_walk.mpr (this ▸ hk)

/-- The root is the only node of the tree without a parent. -/
theorem eq_zero_of_parent?_none {t : Tree} {i : Nat} (hi : i ∈ t.all) (h : t.parent? i = none) :
    i = 0 := by
  rcases Relation.ReflTransGen.cases_tail (mem_walk.mp hi) with rfl | ⟨k, _, hik⟩
  · rfl
  · rw [(mem_children.mp hik).2] at h
    cases h

/-! ## The scope of a node -/

def scopeOf (t : Tree) (i : Nat) : Nat := (t.enclosingScope i).node

theorem scopeOf_child {t : Tree} {i j : Nat} (h : t.parent? i = some j) :
    t.scopeOf i = if t.isScope j then j else t.scopeOf j := by
  rw [scopeOf, enclosingScope]
  split
  · rename_i k hk
    cases h.symm.trans hk
    split
    · rfl
    · rfl
  · rename_i hn
    cases h.symm.trans hn

theorem scopeOf_root {t : Tree} {i : Nat} (h : t.parent? i = none) : t.scopeOf i = i := by
  rw [scopeOf, enclosingScope]
  split
  · rename_i k hk
    cases h.symm.trans hk
  · split
    · rfl
    · rfl

/-- A scope is a function, a program or the topmost node, and stands in the same tree. -/
theorem scopeOf_spec (t : Tree) (i : Nat) :
    (t.isScope (t.scopeOf i) = true ∨ t.parent? (t.scopeOf i) = none) ∧
      (i ∈ t.all → t.scopeOf i ∈ t.all) := by
  induction i using Nat.strongRecOn with
  | ind i ih =>
    cases h : t.parent? i with
    | none =>
      rw [scopeOf_root h]
      exact ⟨.inr h, id⟩
    | some j =>
      rw [scopeOf_child h]
      split
      · rename_i hj
        exact ⟨.inl hj, fun hi => parent_mem_all hi h⟩
      · obtain ⟨hs, hm⟩ := ih j (parent?_lt h)
        exact ⟨hs, fun hi => hm (parent_mem_all hi h)⟩

def RootedProgram (t : Tree) : Prop := ∀ i ∈ t.all, t.kind i = .program → i = 0

instance (t : Tree) : Decidable t.RootedProgram :=
  inferInstanceAs (Decidable (∀ i ∈ t.all, t.kind i = .program → i = 0))

/-- Scopes can be told apart by their keys. -/
def DistinctScopes (t : Tree) : Prop :=
  ∀ i ∈ t.all, ∀ j ∈ t.all, t.isScope i = true → t.isScope j = true → t.key i = t.key j → i = j

instance (t : Tree) : Decidable t.DistinctScopes :=
  inferInstanceAs (Decidable (∀ i ∈ t.all, ∀ j ∈ t.all,
    t.isScope i = true → t.isScope j = true → t.key i = t.key j → i = j))

theorem isScope_of_key_eq {t : Tree} {i j : Nat} (h : t.key i = t.key j) :
    t.isScope i = t.isScope j := by
  have hk : t.kind i = t.kind j := congrArg Key.kind h
  rw [isScope, isScope, hk]

theorem DistinctScopes.scopeOf_inj {t : Tree} (hd : t.DistinctScopes) {i j : Nat} (hi : i ∈ t.all)
    (hj : j ∈ t.all) (h : t.key (t.scopeOf i) = t.key (t.scopeOf j)) :
    t.scopeOf i = t.scopeOf j := by
  obtain ⟨hsi, hmi⟩ := t.scopeOf_spec i
  obtain ⟨hsj, hmj⟩ := t.scopeOf_spec j
  by_cases hs : t.isScope (t.scopeOf i) = true
  · exact hd _ (hmi hi) _ (hmj hj) hs (isScope_of_key_eq h ▸ hs) h
  -- neither is a function or a program, so both are the root
  · have hs' : ¬ t.isScope (t.scopeOf j) = true := isScope_of_key_eq h ▸ hs
    rw [eq_zero_of_parent?_none (hmi hi) (hsi.resolve_left hs),
      eq_zero_of_parent?_none (hmj hj) (hsj.resolve_left hs')]

/-! ## The inside of a scope -/

open Check.Header (nested)

/-- A node is reached from another without going into a function. -/
def Inner (t : Tree) : Nat → Nat → Prop := Relation.ReflTransGen fun a b => b ∈ nested t a

theorem mem_nested {t : Tree} {i j : Nat} :
    j ∈ nested t i ↔ j ∈ t.children i ∧ (t.kind j).isFunction = false := by
  simp [nested]

theorem Inner.mem_all {t : Tree} {i j : Nat} (h : t.Inner i j) (hi : i ∈ t.all) : j ∈ t.all := by
  have hc : Relation.ReflTransGen (fun a b => b ∈ t.children a) i j :=
    Relation.ReflTransGen.mono (fun _ _ hb => (mem_nested.mp hb).1) _ _ h
  exact mem_walk.mpr ((mem_walk.mp hi).trans hc)

theorem Inner.le {t : Tree} {i j : Nat} (h : t.Inner i j) : i ≤ j := by
  induction h with
  | refl => exact Nat.le_refl _
  | tail _ hj ih => exact Nat.le_trans ih (Nat.le_of_lt (lt_of_mem_children (mem_nested.mp hj).1).1)

theorem isFunction_of_not_isScope {t : Tree} {i : Nat} (h : ¬ t.isScope i = true) :
    (t.kind i).isFunction = false := by
  cases hf : (t.kind i).isFunction with
  | false => rfl
  | true => simp [isScope, hf] at h

theorem inner_scopeOf (t : Tree) (i : Nat) (hf : (t.kind i).isFunction = false) :
    t.Inner (t.scopeOf i) i := by
  induction i using Nat.strongRecOn with
  | ind i ih =>
    cases h : t.parent? i with
    | none =>
      rw [scopeOf_root h]
      exact .refl
    | some j =>
      have hn : i ∈ nested t j := mem_nested.mpr ⟨mem_children_of_parent? h, hf⟩
      rw [scopeOf_child h]
      split
      · exact .single hn
      · rename_i hj
        exact (ih j (parent?_lt h) (isFunction_of_not_isScope hj)).tail hn

theorem Inner.scopeOf_eq {t : Tree} (hr : t.RootedProgram) {i j : Nat} (hi : i ∈ t.all)
    (hs : t.isScope i = true ∨ t.parent? i = none) (h : t.Inner i j) :
    j = i ∨ t.scopeOf j = i := by
  induction h with
  | refl => exact .inl rfl
  | @tail k j hk hj ih =>
    obtain ⟨hc, _⟩ := mem_nested.mp hj
    have hp := (mem_children.mp hc).2
    refine .inr ?_
    rw [scopeOf_child hp]
    rcases Relation.ReflTransGen.cases_tail hk with rfl | ⟨l, hl, hkl⟩
    · rcases hs with hs | hs
      · rw [if_pos hs]
      · rw [scopeOf_root hs, ite_self]
    -- below the start no node on the way is a function, and none is a program
    · obtain ⟨hkc, hkf⟩ := mem_nested.mp hkl
      have hk0 : k ≠ 0 := by have := (lt_of_mem_children hkc).1; omega
      have hki : k ≠ i := by
        have := (lt_of_mem_children hkc).1
        have := Inner.le hl
        omega
      have hks : ¬ t.isScope k = true := by
        have hkp : t.kind k ≠ .program := fun hp => hk0 (hr k (Inner.mem_all hk hi) hp)
        simp [isScope, hkf, hkp]
      rw [if_neg hks]
      exact ih.resolve_left hki

/-- The nodes inside of a scope are those whose scope it is. -/
theorem inner_iff_scopeOf {t : Tree} (hr : t.RootedProgram) {i j : Nat} (hi : i ∈ t.all)
    (hj : t.isScope j = false) : t.Inner (t.scopeOf i) j ↔ t.scopeOf j = t.scopeOf i := by
  obtain ⟨hs, hm⟩ := t.scopeOf_spec i
  constructor
  · intro h
    rcases h.scopeOf_eq hr (hm hi) hs with rfl | h
    · exact scopeOf_root (hs.resolve_left (by simp [hj]))
    · exact h
  · intro h
    exact h ▸ inner_scopeOf t j (isFunction_of_not_isScope (by simp [hj]))

end SinkAudit.Tree
