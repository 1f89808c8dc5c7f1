import SinkAudit.Proofs.Ancestry
import SinkAudit.Proofs.Wrapping
import SinkAudit.Taint.Sanitizer

/-! # The sanitizer around a value

A value that goes into a sink is looked at from the inside out, and of the nodes between the two the
first that is a sanitizer call, once its wrappers are off, counts
(`Source.findSanitizer_nearest`). A call around the sink is out of reach, and so is one that makes
up only a part of the value: taking the wrappers off a node on the way never leads into the value
further than to the value without its own. -/
namespace SinkAudit

/-! ## The way from a value up to a sink -/

namespace Tree
variable {t : Tree} {a b c i j k sink arg : Nat}

/-- A node stands on the way from a value up to a sink, the sink itself left out. -/
structure OnPath (t : Tree) (sink arg k : Nat) : Prop where
  below : t.Above sink k
  reached : t.AtOrAbove k arg

theorem not_onPath_self : ¬ t.OnPath sink sink k := by
  intro h
  have hlt := h.below.lt
  have hle := AtOrAbove.le h.reached
  omega

/-- The way from a node is the node and the way from its parent. -/
theorem onPath_iff_of_parent? (h : t.parent? i = some j) (hi : t.Above sink i) :
    t.OnPath sink i k ↔ k = i ∨ t.OnPath sink j k := by
  constructor
  · intro hk
    by_cases hki : k = i
    · exact .inl hki
    · have habove := above_of_ne hk.reached (Ne.symm hki)
      exact .inr ⟨hk.below, (above_iff_of_parent? h).mp habove⟩
  · rintro (rfl | hk)
    · exact ⟨hi, .refl⟩
    · exact ⟨hk.below, hk.reached.tail h⟩

/-- Two nodes above a third stand above each other. -/
theorem AtOrAbove.comparable (ha : t.AtOrAbove a c) (hb : t.AtOrAbove b c) :
    t.AtOrAbove a b ∨ t.AtOrAbove b a := by
  induction ha with
  | refl => exact .inr hb
  | @tail p c hap hp ih =>
    by_cases hbc : c = b
    · subst hbc
      exact .inl (hap.tail hp)
    · exact ih ((above_iff_of_parent? hp).mp (above_of_ne hb hbc))

theorem parent?_of_wrapped? (h : t.wrapped? i = some j) : t.parent? j = some i := by
  rcases Option.or_eq_some_iff.mp h with h | ⟨_, h⟩
  · exact (mem_children.mp (mem_children_of_child? h)).2
  · exact (mem_children.mp (mem_children_of_named (List.mem_of_head? h))).2

/-- A node above a value that leads into it when its wrappers are off leads to the value without
its own. -/
theorem unwrap_eq_of_inside (hk : t.AtOrAbove k arg) (hin : t.AtOrAbove arg (t.unwrap k)) :
    t.unwrap k = t.unwrap arg := by
  fun_induction unwrap t k with
  | case1 k hw j hj ih =>
    by_cases hka : arg = k
    · rw [hka, unwrap_of_wrapped? hw hj]
    · have hparent : t.parent? j = some k := parent?_of_wrapped? hj
      rcases AtOrAbove.comparable hin (atOrAbove_iff.mpr (unwrap_mem_walk t j)) with h | h
      · -- The value would be above the wrapped node, so at or above the wrapper too.
        by_cases hja : j = arg
        · rw [hja]
        · have hup := AtOrAbove.le ((above_iff_of_parent? hparent).mp (above_of_ne h hja))
          have hdown := AtOrAbove.le hk
          omega
      · exact ih h hin
  | case2 k hw hj =>
    obtain rfl : k = arg := Nat.le_antisymm (AtOrAbove.le hk) (AtOrAbove.le hin)
    exact (unwrap_of_empty hj).symm
  | case3 k hw =>
    obtain rfl : k = arg := Nat.le_antisymm (AtOrAbove.le hk) (AtOrAbove.le hin)
    exact (unwrap_of_not_wrapper (by simpa using hw)).symm

end Tree

/-! ## Sanitizer calls -/

namespace Source
variable {s : Source} {trusted : List String} {sink arg i j k : Nat}

/-- A node is a call, and the name of what it calls says that it cleans or checks its argument. -/
structure Sanitizes (s : Source) (trusted : List String) (i : Nat) : Prop where
  call : s.tree.kind i = .callExpression
  named : ∃ method, (s.callTarget i).method = some method ∧ method ≠ "" ∧
    ((s.callTarget i).isTrusted trusted = true ∨ isSanitizerName method = true)

theorem isSanitizerCall_iff :
    s.isSanitizerCall trusted i = true ↔ s.Sanitizes trusted (s.tree.unwrap i) := by
  simp only [isSanitizerCall, Bool.and_eq_true, beq_iff_eq, Option.any_eq_true, Bool.or_eq_true,
    Bool.not_eq_true', String.isEmpty_eq_false_iff]
  constructor
  · intro h
    exact ⟨h.1, h.2⟩
  · intro h
    exact ⟨h.call, h.named⟩

/-- The first node on the way up from a value that is a sanitizer call without its wrappers. -/
structure NearestSanitizer (s : Source) (trusted : List String) (sink arg k : Nat) : Prop where
  onPath : s.tree.OnPath sink arg k
  sanitizes : s.Sanitizes trusted (s.tree.unwrap k)
  first : ∀ l, s.tree.OnPath sink arg l → s.tree.Above k l →
    ¬ s.Sanitizes trusted (s.tree.unwrap l)

theorem nearestSanitizer_iff_eq (hi : s.tree.Above sink i)
    (hs : s.Sanitizes trusted (s.tree.unwrap i)) :
    s.NearestSanitizer trusted sink i k ↔ k = i := by
  constructor
  · intro hk
    by_cases hki : i = k
    · exact hki.symm
    · exact absurd hs (hk.first i ⟨hi, .refl⟩ (Tree.above_of_ne hk.onPath.reached hki))
  · rintro rfl
    refine ⟨⟨hi, .refl⟩, hs, ?_⟩
    intro l hl hkl
    have hlt := hkl.lt
    have hle := Tree.AtOrAbove.le hl.reached
    omega

theorem nearestSanitizer_iff_of_parent? (h : s.tree.parent? i = some j) (hi : s.tree.Above sink i)
    (hs : ¬ s.Sanitizes trusted (s.tree.unwrap i)) :
    s.NearestSanitizer trusted sink i k ↔ s.NearestSanitizer trusted sink j k := by
  have hpath (l : Nat) := Tree.onPath_iff_of_parent? (k := l) h hi
  constructor
  · intro hk
    refine ⟨?_, hk.sanitizes, fun l hl => hk.first l ((hpath l).mpr (.inr hl))⟩
    rcases (hpath k).mp hk.onPath with rfl | hkj
    · exact absurd hk.sanitizes hs
    · exact hkj
  · intro hk
    refine ⟨(hpath k).mpr (.inr hk.onPath), hk.sanitizes, ?_⟩
    intro l hl hkl
    rcases (hpath l).mp hl with rfl | hlj
    · exact hs
    · exact hk.first l hlj hkl

theorem above_of_not_stop (hi : s.tree.AtOrAbove sink i)
    (hstop : ¬ (some (s.tree.key sink) == some (s.tree.key i)) = true) : s.tree.Above sink i := by
  apply Tree.above_of_ne hi
  intro heq
  exact hstop (beq_iff_eq.mpr (congrArg (some <| s.tree.key ·) heq.symm))

/-- The search goes the way up, node by node, and ends at the sink: no other node on the way is
taken for it. -/
theorem findSanitizer_iff (trusted : List String) (hi : s.tree.AtOrAbove sink i)
    (hkeys : ∀ k, s.tree.OnPath sink i k → s.tree.key k ≠ s.tree.key sink) :
    (s.findSanitizer (some (s.tree.key sink)) trusted i = none ↔
      ∀ k, s.tree.OnPath sink i k → ¬ s.Sanitizes trusted (s.tree.unwrap k)) ∧
    ∀ r, s.findSanitizer (some (s.tree.key sink)) trusted i = some r ↔
      ∃ k, s.NearestSanitizer trusted sink i k ∧ r = Text.trim (s.text k) := by
  fun_induction findSanitizer s (some (s.tree.key sink)) trusted i with
  | case1 i hstop =>
    have hkey : s.tree.key i = s.tree.key sink := (Option.some.inj (beq_iff_eq.mp hstop)).symm
    -- no other node up to here has the key of the sink
    obtain rfl : i = sink := by
      by_contra hne
      exact hkeys i ⟨Tree.above_of_ne hi hne, .refl⟩ hkey
    have hnone (k : Nat) : ¬ s.tree.OnPath i i k := Tree.not_onPath_self
    have hnearest (k : Nat) : ¬ s.NearestSanitizer trusted i i k := fun hk => hnone k hk.onPath
    simp [hnone, hnearest]
  | case2 i hstop hc =>
    have hbelow := above_of_not_stop hi hstop
    have hs := isSanitizerCall_iff.mp hc
    constructor
    · refine iff_of_false (Option.some_ne_none _) ?_
      intro hpath
      exact hpath i ⟨hbelow, .refl⟩ hs
    · intro r
      rw [Option.some.injEq, eq_comm]
      simp only [nearestSanitizer_iff_eq hbelow hs, exists_eq_left]
  | case3 i hstop hc j hj ih =>
    have hbelow := above_of_not_stop hi hstop
    have hs := mt isSanitizerCall_iff.mpr hc
    have hpath (k : Nat) := Tree.onPath_iff_of_parent? (k := k) hj hbelow
    obtain ⟨hnone, hsome⟩ := ih ((Tree.above_iff_of_parent? hj).mp hbelow)
      fun k hk => hkeys k ((hpath k).mpr (.inr hk))
    constructor
    · rw [hnone]
      simp only [hpath, forall_eq_or_imp, hs, not_false_iff, true_and]
    · intro r
      rw [hsome]
      simp only [nearestSanitizer_iff_of_parent? hj hbelow hs]
  | case4 i hstop hc hj => exact absurd (above_of_not_stop hi hstop) (Tree.not_above_of_root hj)

/-! ## A second test at each node -/

theorem findSanitizer_eq (s : Source) (stop : Option Tree.Key) (trusted : List String) (i : Nat) :
    s.findSanitizer stop trusted i =
      if stop == some (s.tree.key i) then none
      else if s.isSanitizerCall trusted i then some (Text.trim (s.text i))
      else (s.tree.parent? i).bind (s.findSanitizer stop trusted) := by
  rw [findSanitizer]
  split
  · rfl
  · split
    · rfl
    · split
      · rename_i j hj
        rw [hj, Option.bind_some]
      · rename_i hj
        rw [hj, Option.bind_none]

/-- The search that at each node also asks the node without its wrappers. -/
def findSanitizerTwice (s : Source) (stop : Option Tree.Key) (trusted : List String) (i : Nat) :
    Option String :=
  if stop == some (s.tree.key i) then none
  else if s.isSanitizerCall trusted i then some (Text.trim (s.text i))
  else if s.tree.unwrap i != i && s.isSanitizerCall trusted (s.tree.unwrap i) then
    some (Text.trim (s.text (s.tree.unwrap i)))
  else
    match _h : s.tree.parent? i with
    | some j => s.findSanitizerTwice stop trusted j
    | none => none
termination_by i
decreasing_by exact Tree.parent?_lt _h

/-- The second test asks what the first has answered. -/
theorem isSanitizerCall_unwrap (s : Source) (trusted : List String) (i : Nat) :
    s.isSanitizerCall trusted (s.tree.unwrap i) = s.isSanitizerCall trusted i := by
  rw [Bool.eq_iff_iff, isSanitizerCall_iff, isSanitizerCall_iff, Tree.unwrap_unwrap]

theorem findSanitizerTwice_eq (s : Source) (stop : Option Tree.Key) (trusted : List String)
    (i : Nat) : s.findSanitizerTwice stop trusted i = s.findSanitizer stop trusted i := by
  fun_induction findSanitizerTwice s stop trusted i with
  | case1 i hstop => rw [findSanitizer_eq, if_pos hstop]
  | case2 i hstop hc => rw [findSanitizer_eq, if_neg hstop, if_pos hc]
  | case3 i hstop hc hinner =>
    rw [isSanitizerCall_unwrap, Bool.and_eq_true] at hinner
    exact absurd hinner.2 hc
  | case4 i hstop hc _ j hj ih =>
    rw [findSanitizer_eq, if_neg hstop, if_neg hc, hj]
    exact ih
  | case5 i hstop hc _ hj =>
    rw [findSanitizer_eq, if_neg hstop, if_neg hc, hj]
    rfl

/-! ## What counts -/

/-- The sanitizer of a value is the nearest one around it below the sink. What counts stands below
the sink, and inside of the value it is the value without its wrappers or nothing. To ask a node
without its wrappers as well changes nothing. -/
theorem findSanitizer_nearest (s : Source) (trusted : List String) {sink arg : Nat}
    (harg : s.tree.AtOrAbove sink arg)
    (hkeys : ∀ k, s.tree.OnPath sink arg k → s.tree.key k ≠ s.tree.key sink) :
    (s.findSanitizer (some (s.tree.key sink)) trusted arg = none ↔
      ∀ k, s.tree.OnPath sink arg k → ¬ s.Sanitizes trusted (s.tree.unwrap k)) ∧
    (∀ r, s.findSanitizer (some (s.tree.key sink)) trusted arg = some r ↔
      ∃ k, s.NearestSanitizer trusted sink arg k ∧ r = Text.trim (s.text k)) ∧
    (∀ k, s.tree.OnPath sink arg k →
      s.tree.Above sink (s.tree.unwrap k) ∧
        (s.tree.AtOrAbove arg (s.tree.unwrap k) → s.tree.unwrap k = s.tree.unwrap arg)) ∧
    ∀ stop i, s.findSanitizerTwice stop trusted i = s.findSanitizer stop trusted i := by
  obtain ⟨hnone, hsome⟩ := findSanitizer_iff trusted harg hkeys
  refine ⟨hnone, hsome, ?_, fun stop i => findSanitizerTwice_eq s stop trusted i⟩
  intro k hk
  have hinside : s.tree.AtOrAbove k (s.tree.unwrap k) :=
    Tree.atOrAbove_iff.mpr (Tree.unwrap_mem_walk s.tree k)
  exact ⟨hk.below.trans_left hinside, Tree.unwrap_eq_of_inside hk.reached⟩

def sanitizedCall : Source where
  bytes := "escape(send((purify(x)),a+escape(b)))".toUTF8.data
  tree := ⟨#[
    { kind := .program, start := 0, stop := 37 },
    { kind := .callExpression, start := 0, stop := 37, parent := some 0 },
    { kind := .identifier, start := 0, stop := 6, parent := some 1, field := some .callee },
    { kind := .arguments, start := 6, stop := 37, parent := some 1, field := some .arguments },
    { kind := .callExpression, start := 7, stop := 36, parent := some 3 },
    { kind := .identifier, start := 7, stop := 11, parent := some 4, field := some .callee },
    { kind := .arguments, start := 11, stop := 36, parent := some 4, field := some .arguments },
    { kind := .parenthesized, start := 12, stop := 23, parent := some 6 },
    { kind := .callExpression, start := 13, stop := 22, parent := some 7 },
    { kind := .identifier, start := 13, stop := 19, parent := some 8, field := some .callee },
    { kind := .arguments, start := 19, stop := 22, parent := some 8, field := some .arguments },
    { kind := .identifier, start := 20, stop := 21, parent := some 10 },
    { kind := .binaryExpression, start := 24, stop := 35, parent := some 6 },
    { kind := .identifier, start := 24, stop := 25, parent := some 12, field := some .left },
    { kind := .plus, start := 25, stop := 26, parent := some 12, named := false },
    { kind := .callExpression, start := 26, stop := 35, parent := some 12, field := some .right },
    { kind := .identifier, start := 26, stop := 32, parent := some 15, field := some .callee },
    { kind := .arguments, start := 32, stop := 35, parent := some 15, field := some .arguments },
    { kind := .identifier, start := 33, stop := 34, parent := some 17 }]⟩

/-- The sink is the inner call. Its first argument is a sanitizer in parentheses. Its second has one
only as an operand, and the one around the sink does not count for it. -/
theorem sanitizedCall_nearest :
    let t := sanitizedCall.tree
    t.AtOrAbove 4 7 ∧ t.AtOrAbove 4 12 ∧ (∀ k ≤ 18, 4 < k → t.key k ≠ t.key 4) ∧
      (∃ k, sanitizedCall.NearestSanitizer [] 4 7 k ∧
        "(purify(x))" = Text.trim (sanitizedCall.text k)) ∧
      sanitizedCall.Sanitizes [] 1 ∧ sanitizedCall.Sanitizes [] 15 ∧
      ∀ k, t.OnPath 4 12 k → ¬ sanitizedCall.Sanitizes [] (t.unwrap k) := by
  intro t
  have hlist : t.AtOrAbove 4 6 := .single (by decide : t.parent? 6 = some 4)
  have hfirst : t.AtOrAbove 4 7 := hlist.tail (by decide : t.parent? 7 = some 6)
  have hsecond : t.AtOrAbove 4 12 := hlist.tail (by decide : t.parent? 12 = some 6)
  have hkeys : ∀ k ≤ 18, 4 < k → t.key k ≠ t.key 4 := by decide
  have hpath {arg : Nat} (harg : arg ≤ 18) : ∀ k, t.OnPath 4 arg k → t.key k ≠ t.key 4 := by
    intro k hk
    exact hkeys k (Nat.le_trans hk.reached.le harg) hk.below.lt
  have hcall {i : Nat} (hi : t.unwrap i = i) (hc : sanitizedCall.isSanitizerCall [] i = true) :
      sanitizedCall.Sanitizes [] i := hi ▸ isSanitizerCall_iff.mp hc
  have hwrapped := (findSanitizer_nearest sanitizedCall [] hfirst (hpath (by decide))).2.1
  have hbare := (findSanitizer_nearest sanitizedCall [] hsecond (hpath (by decide))).1
  exact ⟨hfirst, hsecond, hkeys, (hwrapped _).mp (by decide +kernel),
    hcall (by decide +kernel) (by decide +kernel), hcall (by decide +kernel) (by decide +kernel),
    hbare.mp (by decide +kernel)⟩

end Source

end SinkAudit
