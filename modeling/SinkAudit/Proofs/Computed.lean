import Mathlib.Logic.Relation
import SinkAudit.Proofs.Literal
import SinkAudit.Proofs.Wrapping

/-! # Computed values by reachability

An expression may have a computed value if, going from it to a part from which it takes its value,
to a part of that and so on, one can come to a leaf that is computed (`isDynamic_iff_reaches`). The
paths are those of `TakesFrom`, the leaves those of `ComputedLeaf`; both are said of one node and
its children at a time and know nothing of the search. -/
namespace SinkAudit.Tree
variable {t : Tree} {i j : Nat}

/-- An expression takes its value from a part of it. -/
inductive TakesFrom (t : Tree) : Nat → Nat → Prop
  | role {i j : Nat} (hk : (t.kind i).isWrapper = true) (h : t.child? i .expression = some j) :
      TakesFrom t i j
  | first {i j : Nat} (hk : (t.kind i).isWrapper = true) (hn : t.child? i .expression = none)
      (h : (t.namedChildren i).head? = some j) : TakesFrom t i j
  | spread {i j : Nat} (hk : t.kind i = .spreadElement)
      (h : (t.namedChildren i).head? = some j) : TakesFrom t i j
  | element {i j : Nat} (hk : t.kind i = .array) (h : j ∈ t.namedChildren i)
      (hc : t.kind j ≠ .comment) : TakesFrom t i j
  | pairValue {i j k : Nat} (hk : t.kind i = .object) (h : k ∈ t.namedChildren i)
      (hp : t.kind k = .pair) (hv : t.child? k .value = some j) : TakesFrom t i j
  | spreadMember {i j : Nat} (hk : t.kind i = .object) (h : j ∈ t.namedChildren i)
      (hs : t.kind j = .spreadElement) : TakesFrom t i j
  | consequence {i j : Nat} (hk : t.kind i = .ternary) (h : t.child? i .consequence = some j) :
      TakesFrom t i j
  | alternative {i j : Nat} (hk : t.kind i = .ternary) (h : t.child? i .alternative = some j) :
      TakesFrom t i j
  | argument {i j : Nat} (hk : t.kind i = .callExpression ∨ t.kind i = .newExpression)
      (h : j ∈ t.callArguments i) : TakesFrom t i j

/-- An expression is computed whatever its parts are. -/
inductive ComputedLeaf (t : Tree) (i : Nat) : Prop
  | reference (hk : t.kind i = .identifier ∨ t.kind i = .memberExpression ∨
      t.kind i = .subscriptExpression)
  | substitution {j : Nat} (hk : t.kind i = .templateString) (h : j ∈ t.namedChildren i)
      (hj : t.kind j = .templateSubstitution)
  | sum (hk : t.kind i = .binaryExpression) (h : t.operator? i = some .plus)
  | shorthand {j : Nat} (hk : t.kind i = .object) (h : j ∈ t.namedChildren i)
      (hj : t.kind j = .shorthandProperty)

/-! ## Steps and leaves as they are searched -/

theorem mem_valueParts_of_takesFrom (h : t.TakesFrom i j) :
    (t.kind i).isWrapper = true ∧ t.wrapped? i = some j ∨ j ∈ t.valueParts i := by
  cases h with
  | role hk h => exact .inl ⟨hk, by rw [wrapped?, h]; rfl⟩
  | first hk hn h => exact .inl ⟨hk, by rw [wrapped?, hn]; exact h⟩
  | spread hk h => exact .inr (by simp [valueParts, hk, h])
  | element hk h hc => exact .inr (by simp [valueParts, hk, elements, h, hc])
  | @pairValue k hk h hp hv =>
    have hmember : t.memberValue? k = some j := by simp only [memberValue?, hp, hv]
    exact .inr (by simpa [valueParts, hk] using ⟨k, h, hmember⟩)
  | spreadMember hk h hs =>
    have hmember : t.memberValue? j = some j := by simp only [memberValue?, hs]
    exact .inr (by simpa [valueParts, hk] using ⟨j, h, hmember⟩)
  | consequence hk h => exact .inr (by simp [valueParts, hk, h])
  | alternative hk h => exact .inr (by simp [valueParts, hk, h])
  | argument hk h =>
    rcases hk with hk | hk
    · exact .inr (by simpa [valueParts, hk] using h)
    · exact .inr (by simpa [valueParts, hk] using h)

theorem takesFrom_of_wrapped? (hk : (t.kind i).isWrapper = true) (h : t.wrapped? i = some j) :
    t.TakesFrom i j := by
  rcases Option.or_eq_some_iff.mp h with h | ⟨hn, h⟩
  · exact .role hk h
  · exact .first hk hn h

theorem takesFrom_of_mem_valueParts (h : j ∈ t.valueParts i) : t.TakesFrom i j := by
  unfold valueParts at h
  split at h
  · rename_i hk
    exact .spread hk (by simpa using h)
  · rename_i hk
    obtain ⟨hj, hc⟩ := List.mem_filter.mp h
    exact .element hk hj (by simpa using hc)
  · rename_i hk
    obtain ⟨k, hmem, hv⟩ := List.mem_filterMap.mp h
    unfold memberValue? at hv
    split at hv
    · rename_i hp
      exact .pairValue hk hmem hp hv
    · rename_i hs
      obtain rfl : k = j := Option.some.inj hv
      exact .spreadMember hk hmem hs
    · cases hv
  · rename_i hk
    rcases List.mem_append.mp h with h | h
    · exact .consequence hk (by simpa using h)
    · exact .alternative hk (by simpa using h)
  · rename_i hk
    exact .argument (.inl hk) h
  · rename_i hk
    exact .argument (.inr hk) h
  · cases h

theorem computedLeaf_iff : t.ComputedLeaf i ↔ t.isDynamicLeaf i = true := by
  constructor
  · intro h
    cases h with
    | reference hk => rcases hk with hk | hk | hk <;> simp [isDynamicLeaf, hk, Kind.isReference]
    | @substitution j hk h hj => simpa [isDynamicLeaf, hk, hasSubstitution] using ⟨j, h, hj⟩
    | sum hk h => simp [isDynamicLeaf, hk, h]
    | @shorthand j hk h hj => simpa [isDynamicLeaf, hk] using ⟨j, h, hj⟩
  · intro h
    unfold isDynamicLeaf at h
    split at h
    · rename_i hk
      obtain ⟨j, hj, hs⟩ := List.any_eq_true.mp h
      exact .substitution hk hj (by simpa using hs)
    · rename_i hk
      exact .sum hk (by simpa using h)
    · rename_i hk
      obtain ⟨j, hj, hs⟩ := List.any_eq_true.mp h
      exact .shorthand hk hj (by simpa using hs)
    · refine .reference ?_
      unfold Kind.isReference at h
      split at h
      · rename_i hk
        exact .inl hk
      · rename_i hk
        exact .inr (.inl hk)
      · rename_i hk
        exact .inr (.inr hk)
      · cases h

/-- A wrapper is no leaf, and what it wraps is not among its parts. -/
theorem apart_of_isWrapper (h : (t.kind i).isWrapper = true) :
    t.isDynamicLeaf i = false ∧ t.valueParts i = [] := by
  unfold isDynamicLeaf valueParts
  cases hk : t.kind i <;> simp_all [Kind.isWrapper, Kind.isReference]

/-- One step of the search: an expression is computed if it is a computed leaf or takes its value
from one that is computed. -/
theorem isDynamic_iff_step :
    t.isDynamic i = true ↔ t.ComputedLeaf i ∨ ∃ j, t.TakesFrom i j ∧ t.isDynamic j = true := by
  rw [computedLeaf_iff]
  cases hw : (t.kind i).isWrapper with
  | false =>
    rw [isDynamic_eq, unwrap_of_not_wrapper hw, Bool.or_eq_true, List.any_eq_true]
    refine or_congr_right (exists_congr fun j => and_congr_left fun _ => ?_)
    refine ⟨takesFrom_of_mem_valueParts, fun h => ?_⟩
    rcases mem_valueParts_of_takesFrom h with ⟨hw', _⟩ | h
    · cases hw.symm.trans hw'
    · exact h
  | true =>
    obtain ⟨hleaf, hparts⟩ := apart_of_isWrapper hw
    rw [hleaf]
    constructor
    · intro h
      cases hj : t.wrapped? i with
      | none =>
        rw [isDynamic_eq, unwrap_of_empty hj, hleaf, hparts] at h
        cases h
      | some j =>
        rw [← isDynamic_unwrap, unwrap_of_wrapped? hw hj, isDynamic_unwrap] at h
        exact .inr ⟨j, takesFrom_of_wrapped? hw hj, h⟩
    · rintro (h | ⟨j, hj, h⟩)
      · cases h
      · rcases mem_valueParts_of_takesFrom hj with ⟨_, hj⟩ | hj
        · rw [← isDynamic_unwrap, unwrap_of_wrapped? hw hj, isDynamic_unwrap]
          exact h
        · rw [hparts] at hj
          cases hj

/-! ## Paths -/

theorem TakesFrom.lt (h : t.TakesFrom i j) : i < j ∧ j < t.size := by
  rcases mem_valueParts_of_takesFrom h with ⟨_, h⟩ | h
  · exact lt_of_wrapped? h
  · exact lt_of_mem_valueParts h

def ReachesComputed (t : Tree) (i : Nat) : Prop :=
  ∃ leaf, Relation.ReflTransGen t.TakesFrom i leaf ∧ t.ComputedLeaf leaf

theorem isDynamic_of_reaches (h : t.ReachesComputed i) : t.isDynamic i = true := by
  obtain ⟨leaf, hpath, hleaf⟩ := h
  induction hpath using Relation.ReflTransGen.head_induction_on with
  | refl => exact isDynamic_iff_step.mpr (.inl hleaf)
  | head hstep _ ih => exact isDynamic_iff_step.mpr (.inr ⟨_, hstep, ih⟩)

theorem reaches_of_isDynamic (h : t.isDynamic i = true) : t.ReachesComputed i := by
  -- parts come later in the table, so there is an end to them
  induction hn : t.size - i using Nat.strongRecOn generalizing i with
  | ind n ih =>
    rcases isDynamic_iff_step.mp h with hleaf | ⟨j, hstep, hj⟩
    · exact ⟨i, .refl, hleaf⟩
    · have hlt := hstep.lt
      obtain ⟨leaf, hpath, hleaf⟩ := ih (t.size - j) (by omega) hj rfl
      exact ⟨leaf, .head hstep hpath, hleaf⟩

theorem isDynamic_of_isLiteralArgument (h : t.isLiteralArgument i = true) :
    t.isDynamic i = false := by
  unfold isLiteralArgument at h
  dsimp only at h
  rw [isLiteral_unwrap, Bool.or_eq_true, Bool.and_eq_true, beq_iff_eq] at h
  rcases h with h | ⟨hk, hall⟩
  · exact isDynamic_of_isLiteral h
  · -- an array is computed only if one of its elements is
    rw [isDynamic_eq, isDynamicLeaf, valueParts, hk]
    refine List.any_eq_false.mpr fun j hj => ?_
    simp [isDynamic_of_isLiteral (List.all_eq_true.mp hall j hj)]

/-- An expression counts as computed if and only if a computed leaf can be reached from it. None of
those that count as literals, alone or in a list of arguments, does. -/
theorem isDynamic_iff_reaches (t : Tree) :
    (∀ i, t.isDynamic i = true ↔ t.ReachesComputed i) ∧
    (∀ i, t.isLiteral i = true → t.isDynamic i = false) ∧
    ∀ nodes : List Nat, nodes.all t.isLiteralArgument = true →
      ∀ i ∈ nodes, t.isDynamic i = false := by
  refine ⟨fun i => ⟨reaches_of_isDynamic, isDynamic_of_reaches⟩, fun i => isDynamic_of_isLiteral,
    fun nodes h i hi => ?_⟩
  exact isDynamic_of_isLiteralArgument (List.all_eq_true.mp h i hi)

/-- The tree of `f({a:[...(b?'c':d)]},['e'])`. -/
def nestedValue : Tree := ⟨#[
  { kind := .program, start := 0, stop := 27 },
  { kind := .callExpression, start := 0, stop := 27, parent := some 0 },
  { kind := .identifier, start := 0, stop := 1, parent := some 1, field := some .callee },
  { kind := .arguments, start := 1, stop := 27, parent := some 1, field := some .arguments },
  { kind := .object, start := 2, stop := 20, parent := some 3 },
  { kind := .pair, start := 3, stop := 19, parent := some 4 },
  { kind := .propertyIdentifier, start := 3, stop := 4, parent := some 5, field := some .key },
  { kind := .array, start := 5, stop := 19, parent := some 5, field := some .value },
  { kind := .spreadElement, start := 6, stop := 18, parent := some 7 },
  { kind := .parenthesized, start := 9, stop := 18, parent := some 8 },
  { kind := .ternary, start := 10, stop := 17, parent := some 9 },
  { kind := .identifier, start := 10, stop := 11, parent := some 10 },
  { kind := .stringLiteral, start := 12, stop := 15, parent := some 10
    field := some .consequence },
  { kind := .identifier, start := 16, stop := 17, parent := some 10, field := some .alternative },
  { kind := .array, start := 21, stop := 26, parent := some 3 },
  { kind := .stringLiteral, start := 22, stop := 25, parent := some 14 }]⟩

/-- The call is computed because the name in its first argument can be reached; the text beside that
name and the second argument are literals and not computed. -/
theorem nestedValue_reaches :
    Relation.ReflTransGen nestedValue.TakesFrom 1 13 ∧ nestedValue.isDynamic 1 = true ∧
      nestedValue.isLiteral 12 = true ∧ nestedValue.isDynamic 12 = false ∧
      [12, 14].all nestedValue.isLiteralArgument = true ∧ nestedValue.isDynamic 14 = false := by
  have hmember : Relation.ReflTransGen nestedValue.TakesFrom 1 7 :=
    .tail (.single (.argument (.inl rfl) (by decide : 4 ∈ nestedValue.callArguments 1)))
      (.pairValue (k := 5) rfl (by decide) rfl (by decide))
  have hgroup : Relation.ReflTransGen nestedValue.TakesFrom 7 9 :=
    .tail (.single (.element rfl (by decide : 8 ∈ nestedValue.namedChildren 7) (by decide)))
      (.spread rfl (by decide))
  have hname : Relation.ReflTransGen nestedValue.TakesFrom 9 13 :=
    .tail (.single (.first rfl (by decide) (by decide : _ = some 10)))
      (.alternative rfl (by decide))
  have hpath := (hmember.trans hgroup).trans hname
  have hliteral : nestedValue.isLiteral 12 = true := by decide +kernel
  have hlist : [12, 14].all nestedValue.isLiteralArgument = true := by decide +kernel
  obtain ⟨hiff, hfixed, hlists⟩ := isDynamic_iff_reaches nestedValue
  exact ⟨hpath, (hiff 1).mpr ⟨13, hpath, .reference (.inl rfl)⟩, hliteral, hfixed 12 hliteral,
    hlist, hlists [12, 14] hlist 14 (by decide)⟩

end SinkAudit.Tree
