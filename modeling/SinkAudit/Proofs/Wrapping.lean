import SinkAudit.Tree.Expression

/-! # Wrappers and what they are put around

Unwrapping goes from a wrapper to the child in the role of the expression, else to the first child
that is more than a token. A comment is such a child, and so are the type arguments of a cast. Where
one of them comes first unwrapping ends there and the wrapper looks as if nothing were in it; in all
other cases the innermost value is reached (`unwrap_reaches_value`). -/
namespace SinkAudit

/-- Comments and type arguments, which stand in a wrapper beside its value. -/
def Kind.isAside (k : Kind) : Bool := k == .comment || k == .other "type_arguments"

theorem Kind.isAside_iff {k : Kind} :
    k.isAside = true ↔ k = .comment ∨ k = .other "type_arguments" := by
  simp [isAside]

namespace Tree
variable {t : Tree} {i j v w e : Nat}

/-! ## Steps of unwrapping -/

theorem unwrap_of_not_wrapper (h : (t.kind i).isWrapper = false) : t.unwrap i = i := by
  rw [unwrap, h]
  rfl

theorem unwrap_of_empty (h : t.wrapped? i = none) : t.unwrap i = i := by
  rw [unwrap]
  split
  · split
    · rename_i j hj
      cases h.symm.trans hj
    · rfl
  · rfl

theorem unwrap_of_wrapped? (hw : (t.kind i).isWrapper = true) (h : t.wrapped? i = some j) :
    t.unwrap i = t.unwrap j := by
  rw [unwrap, if_pos hw]
  split
  · rename_i k hk
    cases h.symm.trans hk
    rfl
  · rename_i hnone
    cases h.symm.trans hnone

theorem unwrap_unwrap (t : Tree) (i : Nat) : t.unwrap (t.unwrap i) = t.unwrap i := by
  fun_induction unwrap t i with
  | case1 i hw j hj ih => exact ih
  | case2 i hw hnone => exact unwrap_of_empty hnone
  | case3 i hw => exact unwrap_of_not_wrapper (by simpa using hw)

theorem isDynamic_unwrap (t : Tree) (i : Nat) : t.isDynamic (t.unwrap i) = t.isDynamic i := by
  rw [isDynamic_eq, isDynamic_eq t i, unwrap_unwrap]

theorem isLiteral_unwrap (t : Tree) (i : Nat) : t.isLiteral (t.unwrap i) = t.isLiteral i := by
  simp only [isLiteral, unwrap_unwrap]

/-! ## Values -/

/-- What may stand for the value of a wrapper, in the order in which it is looked at. -/
def insides (t : Tree) (i : Nat) : List Nat :=
  (t.child? i .expression).toList ++ t.namedChildren i

/-- The value that a wrapper is put around: the first that is neither a comment nor type
arguments. -/
def wrappedValue? (t : Tree) (i : Nat) : Option Nat :=
  (t.insides i).find? fun j => !(t.kind j).isAside

theorem wrapped?_eq (t : Tree) (i : Nat) : t.wrapped? i = (t.insides i).head? := by
  unfold wrapped? insides
  cases t.child? i .expression with
  | none => rfl
  | some j => rfl

theorem wrappedValue?_of_empty (h : t.wrapped? i = none) : t.wrappedValue? i = none := by
  rw [wrapped?_eq, List.head?_eq_none_iff] at h
  rw [wrappedValue?, h]
  rfl

theorem not_isAside_of_wrappedValue? (h : t.wrappedValue? i = some j) :
    (t.kind j).isAside = false := by
  simpa using List.find?_some h

inductive Wraps (t : Tree) : Nat → Nat → Prop
  | self (i : Nat) : Wraps t i i
  | inside {i j e : Nat} (hw : (t.kind i).isWrapper = true) (hv : t.wrappedValue? i = some j)
      (h : Wraps t j e) : Wraps t i e

structure Innermost (t : Tree) (w e : Nat) : Prop where
  wraps : t.Wraps w e
  /-- Nothing is left to unwrap. -/
  bare : (t.kind e).isWrapper = true → t.wrappedValue? e = none

theorem Wraps.not_isAside (h : t.Wraps w e) (hne : e ≠ w) : (t.kind e).isAside = false := by
  induction h with
  | self => exact absurd rfl hne
  | @inside i j e _ hv _ ih =>
    by_cases he : e = j
    · rw [he]
      exact not_isAside_of_wrappedValue? hv
    · exact ih he

/-! ## What comes before a value -/

/-- A comment or type arguments come first in a wrapper. -/
def Misleads (t : Tree) (i : Nat) : Prop :=
  (t.kind i).isWrapper = true ∧ ∃ j, t.wrapped? i = some j ∧ (t.kind j).isAside = true

/-- On the way inwards stands a wrapper in which the value does not come first. -/
def Astray (t : Tree) (w : Nat) : Prop := ∃ v, t.Wraps w v ∧ t.Misleads v

theorem Astray.inside (hw : (t.kind i).isWrapper = true) (hv : t.wrappedValue? i = some j)
    (h : t.Astray j) : t.Astray i := by
  obtain ⟨v, hjv, hm⟩ := h
  exact ⟨v, .inside hw hv hjv, hm⟩

theorem wrappedValue?_eq (hw : (t.kind i).isWrapper = true) (h : ¬ t.Misleads i) :
    t.wrappedValue? i = t.wrapped? i := by
  cases hi : t.wrapped? i with
  | none => exact wrappedValue?_of_empty hi
  | some j =>
    have ha : (t.kind j).isAside = false := Bool.eq_false_iff.mpr fun ha => h ⟨hw, j, hi, ha⟩
    rw [wrapped?_eq] at hi
    obtain ⟨rest, hrest⟩ := List.head?_eq_some_iff.mp hi
    rw [wrappedValue?, hrest]
    exact List.find?_cons_of_pos (by simp [ha])

theorem isWrapper_of_isAside (h : (t.kind i).isAside = true) : (t.kind i).isWrapper = false := by
  rcases Kind.isAside_iff.mp h with h | h
  · rw [h]
    rfl
  · rw [h]
    rfl

theorem Misleads.isAside_unwrap (h : t.Misleads w) : (t.kind (t.unwrap w)).isAside = true := by
  obtain ⟨hw, j, hj, ha⟩ := h
  rw [unwrap_of_wrapped? hw hj, unwrap_of_not_wrapper (isWrapper_of_isAside ha)]
  exact ha

/-! ## What unwrapping reaches -/

theorem Astray.isWrapper (h : t.Astray w) : (t.kind w).isWrapper = true := by
  obtain ⟨v, hwv, hm⟩ := h
  cases hwv with
  | self => exact hm.1
  | inside hw _ _ => exact hw

theorem Astray.isAside_unwrap (h : t.Astray w) : (t.kind (t.unwrap w)).isAside = true := by
  obtain ⟨v, hwv, hm⟩ := h
  induction hwv with
  | self => exact hm.isAside_unwrap
  | @inside i j v hw hv _ ih =>
    -- of several such wrappers the outermost is where unwrapping ends
    by_cases hi : t.Misleads i
    · exact hi.isAside_unwrap
    · rw [wrappedValue?_eq hw hi] at hv
      rw [unwrap_of_wrapped? hw hv]
      exact ih hm

theorem Astray.unwrap_ne (h : t.Astray w) : t.unwrap w ≠ w := by
  intro he
  have ha := h.isAside_unwrap
  rw [he] at ha
  cases (isWrapper_of_isAside ha).symm.trans h.isWrapper

theorem innermost_unwrap (h : ¬ t.Astray w) : t.Innermost w (t.unwrap w) := by
  fun_induction unwrap t w with
  | case1 w hw j hj ih =>
    have hv : t.wrappedValue? w = some j := by
      rw [wrappedValue?_eq hw fun hm => h ⟨w, .self w, hm⟩]
      exact hj
    obtain ⟨hwraps, hbare⟩ := ih fun ha => h (ha.inside hw hv)
    exact ⟨.inside hw hv hwraps, hbare⟩
  | case2 w hw hnone => exact ⟨.self w, fun _ => wrappedValue?_of_empty hnone⟩
  | case3 w hw => exact ⟨.self w, fun hw' => absurd hw' hw⟩

/-- From every expression on the way, unwrapping goes to the same end. -/
theorem Wraps.unwrap_eq (h : t.Wraps w e) (hw : ¬ t.Astray w) : t.unwrap w = t.unwrap e := by
  induction h with
  | self => rfl
  | @inside i j e hk hv _ ih =>
    have hj : t.wrapped? i = some j := by
      rw [← wrappedValue?_eq hk fun hm => hw ⟨i, .self i, hm⟩]
      exact hv
    rw [unwrap_of_wrapped? hk hj]
    exact ih fun ha => hw (ha.inside hk hv)

theorem Innermost.unwrap_eq (h : t.Innermost w e) (hw : ¬ t.Astray w) : t.unwrap w = e := by
  rw [h.wraps.unwrap_eq hw]
  cases hk : (t.kind e).isWrapper with
  | false => exact unwrap_of_not_wrapper hk
  | true =>
    have he : ¬ t.Misleads e := fun hm => hw ⟨e, h.wraps, hm⟩
    refine unwrap_of_empty ?_
    rw [← wrappedValue?_eq hk he]
    exact h.bare hk

/-- A comment and type arguments are neither computed nor literal. -/
theorem unclassified_of_isAside (h : (t.kind (t.unwrap w)).isAside = true) :
    t.isDynamic w = false ∧ t.isLiteral w = false := by
  rw [isDynamic_eq, isDynamicLeaf, valueParts, isLiteral]
  rcases Kind.isAside_iff.mp h with h | h
  · simp [h, Kind.isReference, Kind.isLiteral]
  · simp [h, Kind.isReference, Kind.isLiteral]

/-- Unwrapping reaches the innermost value, which is no comment and no type arguments and by which
it is told whether the wrapper's value is computed or literal, exactly unless a comment or type
arguments come first in one of the wrappers; then it ends there, and the wrapper counts as neither
computed nor literal whatever is in it. -/
theorem unwrap_reaches_value (t : Tree) (w : Nat) :
    (¬ t.Astray w →
      (∀ e, t.Innermost w e ↔ e = t.unwrap w) ∧
      (t.unwrap w ≠ w → (t.kind (t.unwrap w)).isAside = false) ∧
      ∀ e, t.Wraps w e → t.isDynamic w = t.isDynamic e ∧ t.isLiteral w = t.isLiteral e) ∧
    (t.Astray w →
      t.unwrap w ≠ w ∧ (t.kind (t.unwrap w)).isAside = true ∧
        t.isDynamic w = false ∧ t.isLiteral w = false) := by
  constructor
  · intro h
    have hin := innermost_unwrap h
    refine ⟨fun e => ⟨fun he => (he.unwrap_eq h).symm, ?_⟩, hin.wraps.not_isAside, fun e he => ?_⟩
    · rintro rfl
      exact hin
    · rw [← isDynamic_unwrap t w, ← isDynamic_unwrap t e, ← isLiteral_unwrap t w,
        ← isLiteral_unwrap t e, he.unwrap_eq h]
      exact ⟨rfl, rfl⟩
  · intro h
    exact ⟨h.unwrap_ne, h.isAside_unwrap, unclassified_of_isAside h.isAside_unwrap⟩

/-- The tree of `f((/**/a),<T>'b',(c as T)!)`. -/
def threeWrappers : Tree := ⟨#[
  { kind := .program, start := 0, stop := 27 },
  { kind := .callExpression, start := 0, stop := 27, parent := some 0 },
  { kind := .identifier, start := 0, stop := 1, parent := some 1, field := some .callee },
  { kind := .arguments, start := 1, stop := 27, parent := some 1, field := some .arguments },
  { kind := .parenthesized, start := 2, stop := 9, parent := some 3 },
  { kind := .comment, start := 3, stop := 7, parent := some 4 },
  { kind := .identifier, start := 7, stop := 8, parent := some 4 },
  { kind := .typeAssertion, start := 10, stop := 16, parent := some 3 },
  { kind := .other "type_arguments", start := 10, stop := 13, parent := some 7 },
  { kind := .typeIdentifier, start := 11, stop := 12, parent := some 8 },
  { kind := .stringLiteral, start := 13, stop := 16, parent := some 7 },
  { kind := .nonNull, start := 17, stop := 26, parent := some 3 },
  { kind := .parenthesized, start := 17, stop := 25, parent := some 11 },
  { kind := .asExpression, start := 18, stop := 24, parent := some 12 },
  { kind := .identifier, start := 18, stop := 19, parent := some 13 },
  { kind := .typeIdentifier, start := 23, stop := 24, parent := some 13 }]⟩

/-- The name in the three wrappers of the last argument is reached; in the first argument the
comment is. -/
theorem threeWrappers_last_reached :
    ¬ threeWrappers.Astray 11 ∧ threeWrappers.Wraps 11 14 ∧
      (∀ e, threeWrappers.Innermost 11 e ↔ e = threeWrappers.unwrap 11) ∧
      threeWrappers.isDynamic 11 = threeWrappers.isDynamic 14 ∧
      threeWrappers.Astray 4 ∧
      (threeWrappers.kind (threeWrappers.unwrap 4)).isAside = true := by
  have hlast : ¬ threeWrappers.Astray 11 := fun h =>
    absurd h.isAside_unwrap (by decide +kernel)
  have hcast : threeWrappers.Wraps 13 14 := .inside (by decide) (by decide) (.self 14)
  have hgroup : threeWrappers.Wraps 12 14 := .inside (j := 13) (by decide) (by decide) hcast
  have hwraps : threeWrappers.Wraps 11 14 := .inside (j := 12) (by decide) (by decide) hgroup
  have hfirst : threeWrappers.Astray 4 := ⟨4, .self 4, by decide, 5, by decide, by decide⟩
  obtain ⟨hinnermost, _, hsame⟩ := (unwrap_reaches_value threeWrappers 11).1 hlast
  obtain ⟨_, haside, _⟩ := (unwrap_reaches_value threeWrappers 4).2 hfirst
  exact ⟨hlast, hwraps, hinnermost, (hsame 14 hwraps).1, hfirst, haside⟩

/-- Unwrapping ends at the comment in the first argument, which is computed and does not count as
such, and at the type arguments in the second, which is a literal and does not count as such. -/
theorem threeWrappers_others_missed :
    threeWrappers.Innermost 4 6 ∧ threeWrappers.kind (threeWrappers.unwrap 4) = .comment ∧
      threeWrappers.isDynamic 6 = true ∧ threeWrappers.isDynamic 4 = false ∧
      threeWrappers.Innermost 7 10 ∧
      threeWrappers.kind (threeWrappers.unwrap 7) = .other "type_arguments" ∧
      threeWrappers.isLiteral 10 = true ∧ threeWrappers.isLiteral 7 = false := by
  have hname : threeWrappers.Innermost 4 6 :=
    ⟨.inside (by decide) (by decide) (.self 6), by decide⟩
  have htext : threeWrappers.Innermost 7 10 :=
    ⟨.inside (by decide) (by decide) (.self 10), by decide⟩
  exact ⟨hname, by decide +kernel, by decide +kernel, by decide +kernel, htext,
    by decide +kernel, by decide +kernel, by decide +kernel⟩

end Tree

end SinkAudit
