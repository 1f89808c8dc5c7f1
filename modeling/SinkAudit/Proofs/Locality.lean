import SinkAudit.Proofs.Scope
import SinkAudit.Taint.Verdict

/-! # What a verdict reads

The verdict on a value depends on the bytes of the sink and of the statements in the window before
it, and on no others (`exposure_local`). Text is read on two ways: downwards, from a node to the
names and strings below it, and upwards, from the value to the sink. Where every node lies within
its parent, what the first reads lies within the node where it starts, and the second does not
leave the sink. -/
namespace SinkAudit

namespace Tree

def SpansNest (t : Tree) : Prop := ∀ j < t.size, ∀ i ∈ t.parent? j, t.spans i j = true

instance (t : Tree) : Decidable t.SpansNest :=
  inferInstanceAs (Decidable (∀ j < t.size, ∀ i ∈ t.parent? j, t.spans i j = true))

variable {t : Tree} {i j k r : Nat}

theorem spans_iff : t.spans i j = true ↔
    (t.node i).start ≤ (t.node j).start ∧ (t.node j).stop ≤ (t.node i).stop := by
  simp [spans]

theorem mem_walk_self (t : Tree) (i : Nat) : i ∈ t.walk i := mem_walk.mpr .refl

theorem mem_walk_trans (hj : j ∈ t.walk i) (hk : k ∈ t.walk j) : k ∈ t.walk i :=
  mem_walk.mpr ((mem_walk.mp hj).trans (mem_walk.mp hk))

theorem mem_walk_of_child (h : j ∈ t.children i) : j ∈ t.walk i := mem_walk.mpr (.single h)

theorem mem_walk_of_child? {f : Field} (h : t.child? i f = some j) : j ∈ t.walk i :=
  mem_walk_of_child (mem_children_of_child? h)

theorem unwrap_mem_walk (t : Tree) (i : Nat) : t.unwrap i ∈ t.walk i := by
  fun_induction unwrap t i with
  | case1 i _ j h ih =>
    refine mem_walk_trans (mem_walk_of_child ?_) ih
    unfold wrapped? at h
    rcases Option.or_eq_some_iff.mp h with h | ⟨_, h⟩
    · exact mem_children_of_child? h
    · exact mem_children_of_named (List.mem_of_head? h)
  | case2 i => exact mem_walk_self t i
  | case3 i => exact mem_walk_self t i

/-- On the way up from a node below another, the parent is not passed by. -/
theorem parent_mem_walk (hi : i ∈ t.walk r) (hr : i ≠ r) (h : t.parent? i = some j) :
    j ∈ t.walk r := by
  rcases Relation.ReflTransGen.cases_tail (mem_walk.mp hi) with he | ⟨k, hk, hik⟩
  · exact absurd he hr
  · have hkj : k = j := by simpa [h] using (mem_children.mp hik).2.symm
    rw [← hkj]
    exact mem_walk.mpr hk

theorem SpansNest.spans_of_mem_walk (ht : t.SpansNest) (h : j ∈ t.walk i) :
    t.spans i j = true := by
  induction mem_walk.mp h with
  | refl => simp [spans]
  | @tail k j hk hj ih =>
    obtain ⟨hlt, hp⟩ := mem_children.mp hj
    have hik := spans_iff.mp (ih (mem_walk.mpr hk))
    have hkj := spans_iff.mp (ht j hlt k hp)
    exact spans_iff.mpr ⟨by omega, by omega⟩

end Tree

namespace Source

section
variable {t : Tree} {a b : Array UInt8} {i j sink : Nat}

def SameBytes (t : Tree) (a b : Array UInt8) (i : Nat) : Prop :=
  ∀ k < (t.node i).stop, (t.node i).start ≤ k → a[k]? = b[k]?

instance (t : Tree) (a b : Array UInt8) (i : Nat) : Decidable (SameBytes t a b i) :=
  inferInstanceAs (Decidable (∀ k < (t.node i).stop, (t.node i).start ≤ k → a[k]? = b[k]?))

theorem SameBytes.of_spans (h : SameBytes t a b i) (hs : t.spans i j = true) :
    SameBytes t a b j := by
  obtain ⟨hstart, hstop⟩ := Tree.spans_iff.mp hs
  intro k hk hk'
  exact h k (by omega) (by omega)

theorem SameBytes.text_eq (h : SameBytes t a b i) : (mk t a).text i = (mk t b).text i := by
  have hslice : (mk t a).slice (t.node i).start (t.node i).stop =
      (mk t b).slice (t.node i).start (t.node i).stop := by
    unfold slice
    rw [Array.toList_extract, Array.toList_extract, List.extract_eq_take_drop,
      List.extract_eq_take_drop]
    refine List.ext_getElem? fun k => ?_
    simp only [List.getElem?_take, List.getElem?_drop, Array.getElem?_toList]
    split
    · exact h _ (by omega) (by omega)
    · rfl
  unfold text
  rw [hslice]

/-! ## Downwards -/

def AgreeBelow (t : Tree) (a b : Array UInt8) (i : Nat) : Prop :=
  ∀ j ∈ t.walk i, (mk t a).text j = (mk t b).text j

theorem SameBytes.agreeBelow (ht : t.SpansNest) (h : SameBytes t a b i) : AgreeBelow t a b i := by
  intro j hj
  exact (h.of_spans (ht.spans_of_mem_walk hj)).text_eq

theorem AgreeBelow.of_mem (h : AgreeBelow t a b i) (hj : j ∈ t.walk i) : AgreeBelow t a b j :=
  fun _ hk => h _ (Tree.mem_walk_trans hj hk)

theorem AgreeBelow.text_eq (h : AgreeBelow t a b i) : (mk t a).text i = (mk t b).text i :=
  h i (Tree.mem_walk_self t i)

theorem AgreeBelow.stringValue?_eq (h : AgreeBelow t a b i) :
    (mk t a).stringValue? i = (mk t b).stringValue? i := by
  simp only [stringValue?, h.text_eq]

theorem AgreeBelow.indexText?_eq (h : AgreeBelow t a b i) :
    (mk t a).indexText? i = (mk t b).indexText? i := by
  unfold indexText?
  dsimp only
  cases hj : t.child? i .index with
  | none => simp
  | some j =>
    have hvalue := (h.of_mem (Tree.mem_walk_of_child? hj)).stringValue?_eq
    rw [Option.filter_some]
    split
    · simp [hvalue]
    · simp

theorem nameOf?_child_eq (h : ∀ j ∈ t.children i, (mk t a).name? j = (mk t b).name? j) (f : Field) :
    (mk t a).nameOf? (t.child? i f) = (mk t b).nameOf? (t.child? i f) := by
  cases hj : t.child? i f with
  | none => simp [nameOf?]
  | some j => exact h j (Tree.mem_children_of_child? hj)

theorem AgreeBelow.name?_eq (h : AgreeBelow t a b i) : (mk t a).name? i = (mk t b).name? i := by
  induction i using Tree.walk.induct t with
  | case1 i ih =>
    have hbelow := nameOf?_child_eq fun j hj => ih j hj (h.of_mem (Tree.mem_walk_of_child hj))
    rw [Source.name?_eq, Source.name?_eq]
    dsimp only
    rw [h.text_eq, h.indexText?_eq, hbelow, hbelow]

theorem callee_mem_walk {f : Nat} (h : (t.callee? i).map t.unwrap = some f) : f ∈ t.walk i := by
  obtain ⟨g, hg, rfl⟩ := Option.map_eq_some_iff.mp h
  refine Tree.mem_walk_trans ?_ (t.unwrap_mem_walk g)
  unfold Tree.callee? at hg
  split at hg
  · exact Tree.mem_walk_of_child? hg
  · exact Tree.mem_walk_of_child? hg
  · cases hg

theorem AgreeBelow.callTarget_eq (h : AgreeBelow t a b i) :
    (mk t a).callTarget i = (mk t b).callTarget i := by
  unfold callTarget
  dsimp only
  cases hf : (t.callee? i).map t.unwrap with
  | none => rfl
  | some f =>
    have hcallee := h.of_mem (callee_mem_walk hf)
    have hbelow := nameOf?_child_eq fun j hj =>
      (hcallee.of_mem (Tree.mem_walk_of_child hj)).name?_eq
    dsimp only
    rw [hcallee.name?_eq, hbelow, hbelow]

theorem AgreeBelow.isSanitizerCall_eq (h : AgreeBelow t a b i) (trusted : List String) :
    (mk t a).isSanitizerCall trusted i = (mk t b).isSanitizerCall trusted i := by
  have htarget := (h.of_mem (t.unwrap_mem_walk i)).callTarget_eq
  unfold isSanitizerCall
  dsimp only
  rw [htarget]

theorem AgreeBelow.looksLikeUserInput_eq (h : AgreeBelow t a b i) :
    (mk t a).looksLikeUserInput i = (mk t b).looksLikeUserInput i := by
  have htext := (h.of_mem (t.unwrap_mem_walk i)).text_eq
  unfold looksLikeUserInput
  dsimp only
  rw [htext]

/-! ## Upwards -/

/-- The search for a sanitizer starts at or below the sink and ends there at the latest, so it asks
only about nodes below the sink. -/
theorem AgreeBelow.findSanitizer_eq (h : AgreeBelow t a b sink) (trusted : List String)
    (hi : i ∈ t.walk sink) :
    (mk t a).findSanitizer (some (t.key sink)) trusted i =
      (mk t b).findSanitizer (some (t.key sink)) trusted i := by
  induction i using Nat.strongRecOn with
  | ind i ih =>
    have hbelow := h.of_mem hi
    rw [findSanitizer, findSanitizer]
    dsimp only
    rw [hbelow.isSanitizerCall_eq, hbelow.text_eq]
    by_cases hstop : some (t.key sink) = some (t.key i)
    · simp [hstop]
    · have hne : i ≠ sink := fun he => hstop (by rw [he])
      simp only [beq_iff_eq, hstop, if_false]
      split
      · rfl
      · split
        · rename_i j hj
          exact ih j (Tree.parent?_lt hj) (Tree.parent_mem_walk hi hne hj)
        · rfl

theorem findValidation_eq {statements : List Nat}
    (h : ∀ j ∈ statements, (mk t a).text j = (mk t b).text j) :
    (mk t a).findValidation statements = (mk t b).findValidation statements := by
  unfold findValidation
  induction statements with
  | nil => simp
  | cons j rest ih =>
    rw [List.findSome?_cons, List.findSome?_cons, h j (by simp), ih fun k hk => h k (by simp [hk])]

end

/-- A verdict is local. Two files with one tree, in which every node lies within its parent, give
the same answer about a value at or below a sink if they have the same bytes where the sink is and
where the statements are that may validate what reaches it. -/
theorem exposure_local {t : Tree} (ht : t.SpansNest) {sink i : Nat} (hi : i ∈ t.walk sink)
    (exempt : Exemptions) {a b : Array UInt8} (hsink : SameBytes t a b sink)
    (hwindow : ∀ j ∈ t.precedingStatements sink (t.enclosingScope sink) exempt.lookback,
      SameBytes t a b j) :
    (mk t a).exposure exempt (some sink) i = (mk t b).exposure exempt (some sink) i := by
  have hbelow : AgreeBelow t a b sink := hsink.agreeBelow ht
  have hinput := (hbelow.of_mem hi).looksLikeUserInput_eq
  have hsanitizer := hbelow.findSanitizer_eq exempt.trusted hi
  have hvalidation := findValidation_eq fun j hj => (hwindow j hj).text_eq
  unfold exposure
  simp only [Option.map_some, Option.getD_some, window]
  rw [hinput, hsanitizer, hvalidation]

/-- The tree of `s.has(x);b;e(x)`, where the last statement is a call. -/
def threeStatements : Tree := ⟨#[
  { kind := .program, start := 0, stop := 15 },
  { kind := .other "expression_statement", start := 0, stop := 9, parent := some 0 },
  { kind := .other "expression_statement", start := 9, stop := 11, parent := some 0 },
  { kind := .other "expression_statement", start := 11, stop := 15, parent := some 0 },
  { kind := .callExpression, start := 11, stop := 15, parent := some 3 },
  { kind := .identifier, start := 11, stop := 12, parent := some 4, field := some .callee },
  { kind := .arguments, start := 12, stop := 15, parent := some 4, field := some .arguments },
  { kind := .identifier, start := 13, stop := 14, parent := some 6 }]⟩

/-- With one statement in view it does not matter that the statement before it is a validation in
one file and none in the other. -/
theorem threeStatements_local :
    let a := "s.has(x);b;e(x)".toUTF8.data
    let b := "s.hat(x);b;e(x)".toUTF8.data
    threeStatements.SpansNest ∧ 7 ∈ threeStatements.walk 4 ∧ SameBytes threeStatements a b 4 ∧
      (∀ j ∈ threeStatements.precedingStatements 4 (threeStatements.enclosingScope 4) 1,
        SameBytes threeStatements a b j) ∧ a ≠ b ∧
      (mk threeStatements a).exposure { lookback := 1 } (some 4) 7 =
        (mk threeStatements b).exposure { lookback := 1 } (some 4) 7 := by
  intro a b
  have ht : threeStatements.SpansNest := by decide +kernel
  have hi : 7 ∈ threeStatements.walk 4 := by decide +kernel
  have hsink : SameBytes threeStatements a b 4 := by decide +kernel
  have hwindow : ∀ j ∈ threeStatements.precedingStatements 4 (threeStatements.enclosingScope 4) 1,
      SameBytes threeStatements a b j := by decide +kernel
  exact ⟨ht, hi, hsink, hwindow, by decide +kernel,
    exposure_local ht hi { lookback := 1 } hsink hwindow⟩

end Source

end SinkAudit
