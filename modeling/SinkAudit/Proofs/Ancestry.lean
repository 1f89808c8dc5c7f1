import Mathlib.Data.List.Pairwise
import SinkAudit.Proofs.Locality

/-! # Statements before a node, by spans and by ancestry

The statements before a node are found by spans alone: the first statement of the scope whose bytes
hold the node's. Where children lie within their parents, in order and apart, two nodes of which one
spans the other stand on one path upwards, so this is the statement that is the node or an ancestor
of it, and there is no other (`precedingStatements_by_ancestry`). -/
namespace SinkAudit.Tree

variable {t : Tree} {a b i j k n r st : Nat}

/-! ## Ancestors -/

/-- A node is the parent of another, or a parent of its parent, and so on. -/
def Above (t : Tree) : Nat → Nat → Prop := Relation.TransGen fun a b => t.parent? b = some a

def AtOrAbove (t : Tree) : Nat → Nat → Prop :=
  Relation.ReflTransGen fun a b => t.parent? b = some a

theorem atOrAbove_iff : t.AtOrAbove a b ↔ b ∈ t.walk a := by
  have hstep : (fun a b => t.parent? b = some a) = fun a b => b ∈ t.children a := by
    funext a b
    exact propext ⟨mem_children_of_parent?, fun h => (mem_children.mp h).2⟩
  rw [mem_walk, AtOrAbove, hstep]

theorem AtOrAbove.le (h : t.AtOrAbove a b) : a ≤ b := by
  induction h with
  | refl => exact Nat.le_refl a
  | tail _ hp ih => exact Nat.le_trans ih (Nat.le_of_lt (parent?_lt hp))

theorem above_of_ne (h : t.AtOrAbove a b) (hne : b ≠ a) : t.Above a b := by
  rcases Relation.reflTransGen_iff_eq_or_transGen.mp h with heq | habove
  · exact absurd heq hne
  · exact habove

/-- What stands above a node is its parent or stands above that. -/
theorem above_iff_of_parent? (h : t.parent? i = some j) : t.Above k i ↔ t.AtOrAbove k j := by
  rw [Above, Relation.TransGen.tail'_iff]
  constructor
  · rintro ⟨p, hkp, hp⟩
    cases h.symm.trans hp
    exact hkp
  · exact fun hkj => ⟨j, hkj, h⟩

theorem not_above_of_root (h : t.parent? i = none) : ¬ t.Above k i := by
  rw [Above, Relation.TransGen.tail'_iff]
  rintro ⟨p, _, hp⟩
  cases h.symm.trans hp

theorem Above.lt (h : t.Above a b) : a < b := by
  obtain ⟨p, hap, hp⟩ := Relation.TransGen.tail'_iff.mp h
  exact Nat.lt_of_le_of_lt (AtOrAbove.le hap) (parent?_lt hp)

/-! ## The scope of a node -/

/-- The nearest function or program above a node. -/
structure NearestScope (t : Tree) (i scope : Nat) : Prop where
  above : t.Above scope i
  isScope : t.isScope scope = true
  nearest : ∀ k, t.Above k i → t.Above scope k → t.isScope k = false

/-- No function and no program stands above a node, and the topmost node takes their place. -/
structure RootScope (t : Tree) (i scope : Nat) : Prop where
  none_above : ∀ k, t.Above k i → t.isScope k = false
  atOrAbove : t.AtOrAbove scope i
  root : t.parent? scope = none

theorem nearestScope_parent (h : t.parent? i = some j) (hj : t.isScope j = true) :
    t.NearestScope i j := by
  refine ⟨.single h, hj, fun k hk hjk => ?_⟩
  have hle := AtOrAbove.le ((above_iff_of_parent? h).mp hk)
  have hlt := hjk.lt
  omega

/-- A node whose parent is no scope has the scope of its parent. -/
theorem NearestScope.child (h : t.parent? i = some j) (hj : t.isScope j = false)
    (hs : t.NearestScope j k) : t.NearestScope i k := by
  refine ⟨hs.above.tail h, hs.isScope, fun l hl hkl => ?_⟩
  rcases Relation.reflTransGen_iff_eq_or_transGen.mp ((above_iff_of_parent? h).mp hl) with rfl | hlj
  · exact hj
  · exact hs.nearest l hlj hkl

theorem RootScope.child (h : t.parent? i = some j) (hj : t.isScope j = false)
    (hs : t.RootScope j k) : t.RootScope i k := by
  refine ⟨fun l hl => ?_, hs.atOrAbove.tail h, hs.root⟩
  rcases Relation.reflTransGen_iff_eq_or_transGen.mp ((above_iff_of_parent? h).mp hl) with rfl | hlj
  · exact hj
  · exact hs.none_above l hlj

theorem scopeOf_nearest (t : Tree) (i : Nat) :
    t.NearestScope i (t.scopeOf i) ∨ t.RootScope i (t.scopeOf i) := by
  induction i using Nat.strongRecOn with
  | ind i ih =>
    cases h : t.parent? i with
    | none =>
      rw [scopeOf_root h]
      exact .inr ⟨fun k hk => absurd hk (not_above_of_root h), .refl, h⟩
    | some j =>
      rw [scopeOf_child h]
      split
      · rename_i hj
        exact .inl (nearestScope_parent h hj)
      · rename_i hj
        have hj : t.isScope j = false := by simpa using hj
        exact (ih j (parent?_lt h)).imp (.child h hj) (.child h hj)

theorem scopeOf_atOrAbove (t : Tree) (i : Nat) : t.AtOrAbove (t.scopeOf i) i := by
  rcases t.scopeOf_nearest i with h | h
  · exact h.above.to_reflTransGen
  · exact h.atOrAbove

/-! ## The statements of a scope -/

/-- The node that holds the statements of a scope is the scope or a child of it. -/
theorem parent?_of_body? (h : t.body? i = some b) : b = i ∨ t.parent? b = some i := by
  unfold body? at h
  split at h
  · exact .inl (Option.some.inj h).symm
  · obtain ⟨hb, _⟩ := Option.filter_eq_some_iff.mp h
    exact .inr (mem_children.mp (mem_children_of_child? hb)).2

/-- Statements of a scope are children of what holds them; where a node is its own scope, it holds
them itself. -/
theorem exists_body_of_mem_statements (h : st ∈ (t.enclosingScope i).statements) :
    ∃ b, t.body? (t.scopeOf i) = some b ∧ t.parent? st = some b ∧ (t.scopeOf i = i → b = i) := by
  have hbody {s : Nat} (hst : st ∈ t.bodyStatements s) :
      ∃ b, t.body? s = some b ∧ t.parent? st = some b := by
    unfold bodyStatements at hst
    split at hst
    · rename_i b hb
      have hmem := mem_children_of_named (List.mem_filter.mp hst).1
      exact ⟨b, hb, (mem_children.mp hmem).2⟩
    · simp at hst
  fun_induction enclosingScope t i with
  | case1 i j hp hj =>
    obtain ⟨b, hb, hst⟩ := hbody h
    have hlt := parent?_lt hp
    rw [scopeOf_child hp, if_pos hj]
    exact ⟨b, hb, hst, fun he => by omega⟩
  | case2 i j hp hj ih =>
    obtain ⟨b, hb, hst, _⟩ := ih h
    have hlt := parent?_lt hp
    have hle := (t.scopeOf_atOrAbove j).le
    rw [scopeOf_child hp, if_neg hj]
    exact ⟨b, hb, hst, fun he => by omega⟩
  | case3 i hp hk =>
    obtain ⟨b, hb, hst⟩ := hbody h
    rw [scopeOf_root hp]
    refine ⟨b, hb, hst, fun _ => ?_⟩
    rw [body?, if_pos hk] at hb
    exact (Option.some.inj hb).symm
  | case4 i hp hk => simp at h

theorem statements_nodup (t : Tree) (i : Nat) : (t.enclosingScope i).statements.Nodup := by
  have hbody (s : Nat) : (t.bodyStatements s).Nodup := by
    unfold bodyStatements
    split
    · exact ((List.nodup_range.filter _).filter _).filter _
    · exact List.nodup_nil
  fun_induction enclosingScope t i with
  | case1 i j _ _ => exact hbody j
  | case2 i j _ _ ih => exact ih
  | case3 i _ _ => exact hbody i
  | case4 i _ _ => exact List.nodup_nil

/-! ## Spans -/

def SiblingsApart (t : Tree) : Prop :=
  ∀ i < t.size, (t.children i).Pairwise fun a b => (t.node a).stop ≤ (t.node b).start

instance (t : Tree) : Decidable t.SiblingsApart :=
  inferInstanceAs (Decidable (∀ i < t.size,
    (t.children i).Pairwise fun a b => (t.node a).stop ≤ (t.node b).start))

def Apart (t : Tree) (a b : Nat) : Prop :=
  (t.node a).stop ≤ (t.node b).start ∨ (t.node b).stop ≤ (t.node a).start

instance (t : Tree) : Std.Symm t.Apart := ⟨fun _ _ => Or.symm⟩

/-- Only one child of a node spans a given node that is not empty. -/
theorem SiblingsApart.eq_of_spans (hs : t.SiblingsApart) (hw : (t.node n).start < (t.node n).stop)
    (ha : t.parent? a = some i) (hb : t.parent? b = some i) (han : t.spans a n = true)
    (hbn : t.spans b n = true) : a = b := by
  have hi : i < t.size := Nat.lt_trans (parent?_lt ha) (lt_size_of_parent? ha)
  have hpair : (t.children i).Pairwise t.Apart := (hs i hi).imp Or.inl
  by_cases hne : a = b
  · exact hne
  · have hapart : t.Apart a b :=
      hpair.forall (mem_children_of_parent? ha) (mem_children_of_parent? hb) hne
    rw [spans_iff] at han hbn
    unfold Apart at hapart
    omega

theorem SpansNest.spans_of_atOrAbove (hn : t.SpansNest) (h : t.AtOrAbove a b) :
    t.spans a b = true :=
  hn.spans_of_mem_walk (atOrAbove_iff.mp h)

/-- Of two nodes below a third, one of which spans the other, one stands above the other. -/
theorem comparable_of_spans (hn : t.SpansNest) (hs : t.SiblingsApart)
    (hw : (t.node n).start < (t.node n).stop) (ha : t.AtOrAbove r a) (hr : t.AtOrAbove r n)
    (h : t.spans a n = true) : t.AtOrAbove a n ∨ t.AtOrAbove n a := by
  -- down the path from the common ancestor, until one of the two is met or the paths part
  induction hr using Relation.ReflTransGen.head_induction_on with
  | refl => exact .inr ha
  | @head r c hc hcn ih =>
    rcases Relation.ReflTransGen.cases_head ha with rfl | ⟨d, hd, hda⟩
    · exact .inl (.head hc hcn)
    · have hspan := spans_iff.mp (hn.spans_of_atOrAbove hda)
      have hdn : t.spans d n = true := by
        rw [spans_iff] at h ⊢
        omega
      obtain rfl := hs.eq_of_spans hw hc hd (hn.spans_of_atOrAbove hcn) hdn
      exact ih hda

/-- A statement of a node's scope spans the node only if it is the node or stands above it. -/
theorem spans_iff_atOrAbove (hn : t.SpansNest) (hs : t.SiblingsApart)
    (hw : (t.node n).start < (t.node n).stop) (hst : st ∈ (t.enclosingScope n).statements)
    (hb : t.parent? st ≠ some n) : t.spans st n = true ↔ t.AtOrAbove st n := by
  refine ⟨fun h => ?_, hn.spans_of_atOrAbove⟩
  obtain ⟨body, hbody, hp, hself⟩ := exists_body_of_mem_statements hst
  have hscope : t.AtOrAbove (t.scopeOf n) n := t.scopeOf_atOrAbove n
  have hdown : t.AtOrAbove (t.scopeOf n) body := by
    rcases parent?_of_body? hbody with rfl | hparent
    · exact .refl
    · exact .single hparent
  rcases comparable_of_spans hn hs hw (hdown.tail hp) hscope h with h | h
  · exact h
  -- a node above the statement would be what holds the statement, or stand above the scope
  · rcases Relation.ReflTransGen.cases_tail h with rfl | ⟨p, hnp, hpst⟩
    · exact .refl
    · obtain rfl : body = p := Option.some.inj (hp.symm.trans hpst)
      have hne : n ≠ body := fun he => hb (he ▸ hp)
      have habove : t.Above n body :=
        (Relation.reflTransGen_iff_eq_or_transGen.mp hnp).resolve_left hne.symm
      have hle := hscope.le
      rcases parent?_of_body? hbody with rfl | hparent
      · have hlt := habove.lt
        omega
      · have hge := ((above_iff_of_parent? hparent).mp habove).le
        exact absurd (hself (by omega)).symm hne

/-- At most one statement of a scope is a given node or stands above it. -/
theorem eq_of_mem_statements (hn : t.SpansNest) (hs : t.SiblingsApart)
    (hw : (t.node n).start < (t.node n).stop) (ha : a ∈ (t.enclosingScope i).statements)
    (hb : b ∈ (t.enclosingScope i).statements) (han : t.AtOrAbove a n) (hbn : t.AtOrAbove b n) :
    a = b := by
  obtain ⟨body, hbody, hpa, _⟩ := exists_body_of_mem_statements ha
  obtain ⟨body', hbody', hpb, _⟩ := exists_body_of_mem_statements hb
  cases hbody.symm.trans hbody'
  exact hs.eq_of_spans hw hpa hpb (hn.spans_of_atOrAbove han) (hn.spans_of_atOrAbove hbn)

/-! ## Statements before a node -/

/-- The last `limit` elements before a place in a list, nearest first. -/
structure LastBefore (l : List Nat) (i limit : Nat) (found : List Nat) : Prop where
  length : found.length = min limit i
  nearest : ∀ k < min limit i, found[k]? = l[i - 1 - k]?

theorem lastBefore_take {l : List Nat} (hi : i ≤ l.length) (limit : Nat) :
    LastBefore l i limit ((l.take i).reverse.take limit) := by
  have hlen : (l.take i).length = i := by simp [hi]
  refine ⟨by simp [hi], fun k hk => ?_⟩
  have hki : k < i := by omega
  rw [List.getElem?_take_of_lt (by omega), List.getElem?_reverse (by omega), hlen,
    List.getElem?_take_of_lt (by omega)]

/-- The statements before a node are those before the only one that spans it. -/
theorem precedingStatements_of_spans {scope : Scope} (hi : scope.statements[i]? = some st)
    (hst : t.spans st n = true)
    (hfirst : ∀ j < i, ∀ s, scope.statements[j]? = some s → t.spans s n = false) (limit : Nat) :
    t.precedingStatements n scope limit = (scope.statements.take i).reverse.take limit := by
  obtain ⟨hlt, hget⟩ := List.getElem?_eq_some_iff.mp hi
  have hindex : scope.statements.findIdx (t.spans · n) = i := by
    rw [List.findIdx_eq hlt, hget]
    exact ⟨hst, fun j hj => hfirst j hj _ (List.getElem?_eq_getElem (Nat.lt_trans hj hlt))⟩
  have hany : scope.statements.any (t.spans · n) = true :=
    List.any_eq_true.mpr ⟨st, List.mem_of_getElem? hi, hst⟩
  rw [precedingStatements, if_pos hany, List.takeWhile_eq_take_findIdx_not]
  simp only [Bool.not_not, hindex]

/-- The scope of a node is the nearest function or program above it, or the root; the statements
before the node are those before the only statement that is the node or an ancestor of it, and none
where there is no such statement. -/
theorem precedingStatements_by_ancestry (hn : t.SpansNest) (hs : t.SiblingsApart)
    (hw : (t.node n).start < (t.node n).stop)
    (hb : ∀ st ∈ (t.enclosingScope n).statements, t.parent? st ≠ some n) (limit : Nat) :
    let scope := t.enclosingScope n
    (t.NearestScope n scope.node ∨ t.RootScope n scope.node) ∧
      (∀ i st, scope.statements[i]? = some st → t.AtOrAbove st n →
        (∀ j st', scope.statements[j]? = some st' → t.AtOrAbove st' n → j = i) ∧
          LastBefore scope.statements i limit (t.precedingStatements n scope limit)) ∧
      ((∀ st ∈ scope.statements, ¬ t.AtOrAbove st n) →
        t.precedingStatements n scope limit = []) := by
  intro scope
  have hspans : ∀ st ∈ scope.statements, (t.spans st n = true ↔ t.AtOrAbove st n) :=
    fun st hst => spans_iff_atOrAbove hn hs hw hst (hb st hst)
  refine ⟨t.scopeOf_nearest n, fun i st hi hst => ?_, fun hnone => ?_⟩
  · have hmem := List.mem_of_getElem? hi
    have hunique : ∀ j st', scope.statements[j]? = some st' → t.AtOrAbove st' n → j = i := by
      intro j st' hj hst'
      have heq := eq_of_mem_statements hn hs hw hmem (List.mem_of_getElem? hj) hst hst'
      exact (List.getElem?_inj (List.getElem?_eq_some_iff.mp hj).1 (t.statements_nodup n)).mp
        (by rw [hi, hj, heq])
    refine ⟨hunique, ?_⟩
    rw [precedingStatements_of_spans hi ((hspans st hmem).mpr hst) ?_ limit]
    · exact lastBefore_take (Nat.le_of_lt (List.getElem?_eq_some_iff.mp hi).1) limit
    · intro j hj s hjs
      cases hspan : t.spans s n with
      | false => rfl
      | true =>
        have hji := hunique j s hjs ((hspans s (List.mem_of_getElem? hjs)).mp hspan)
        omega
  · have hany : ¬ scope.statements.any (t.spans · n) = true := by
      rw [List.any_eq_true]
      rintro ⟨st, hst, hspan⟩
      exact hnone st hst ((hspans st hst).mp hspan)
    rw [precedingStatements, if_neg hany]

/-- The tree of `function f(a=b){c;/**/e;{h;}}`. -/
def nestedBlock : Tree := ⟨#[
  { kind := .program, start := 0, stop := 29 },
  { kind := .functionDeclaration, start := 0, stop := 29, parent := some 0 },
  { kind := .identifier, start := 9, stop := 10, parent := some 1 },
  { kind := .other "formal_parameters", start := 10, stop := 15, parent := some 1 },
  { kind := .assignmentPattern, start := 11, stop := 14, parent := some 3 },
  { kind := .identifier, start := 13, stop := 14, parent := some 4, field := some .right },
  { kind := .statementBlock, start := 15, stop := 29, parent := some 1, field := some .body },
  { kind := .other "\x7b", start := 15, stop := 16, parent := some 6, named := false },
  { kind := .other "expression_statement", start := 16, stop := 18, parent := some 6 },
  { kind := .comment, start := 18, stop := 22, parent := some 6 },
  { kind := .other "expression_statement", start := 22, stop := 24, parent := some 6 },
  { kind := .statementBlock, start := 24, stop := 28, parent := some 6 },
  { kind := .other "expression_statement", start := 25, stop := 27, parent := some 11 },
  { kind := .identifier, start := 25, stop := 26, parent := some 12 },
  { kind := .other "\x7d", start := 28, stop := 29, parent := some 6, named := false }]⟩

/-- Of the name in the inner block, the statements before that block are found, one or all of them;
of the default of the parameter, none. -/
theorem nestedBlock_by_ancestry :
    nestedBlock.SpansNest ∧ nestedBlock.SiblingsApart ∧
      nestedBlock.enclosingScope 13 = { node := 1, statements := [8, 10, 11] } ∧
      nestedBlock.AtOrAbove 11 13 ∧
      LastBefore [8, 10, 11] 2 1
        (nestedBlock.precedingStatements 13 (nestedBlock.enclosingScope 13) 1) ∧
      LastBefore [8, 10, 11] 2 5
        (nestedBlock.precedingStatements 13 (nestedBlock.enclosingScope 13) 5) ∧
      nestedBlock.enclosingScope 5 = { node := 1, statements := [8, 10, 11] } ∧
      nestedBlock.precedingStatements 5 (nestedBlock.enclosingScope 5) 5 = [] := by
  have hn : nestedBlock.SpansNest := by decide +kernel
  have hs : nestedBlock.SiblingsApart := by decide +kernel
  have hscope : nestedBlock.enclosingScope 13 = { node := 1, statements := [8, 10, 11] } := by
    decide +kernel
  have hscope' : nestedBlock.enclosingScope 5 = { node := 1, statements := [8, 10, 11] } := by
    decide +kernel
  have habove : nestedBlock.AtOrAbove 11 13 :=
    .tail (.single (by decide : nestedBlock.parent? 12 = some 11))
      (by decide : nestedBlock.parent? 13 = some 12)
  have hbefore (limit : Nat) : LastBefore [8, 10, 11] 2 limit
      (nestedBlock.precedingStatements 13 (nestedBlock.enclosingScope 13) limit) := by
    have hspec :=
      precedingStatements_by_ancestry hn hs (n := 13) (by decide) (by decide +kernel) limit
    rw [hscope] at hspec ⊢
    exact (hspec.2.1 2 11 rfl habove).2
  refine ⟨hn, hs, hscope, habove, hbefore 1, hbefore 5, hscope', ?_⟩
  refine (precedingStatements_by_ancestry hn hs (n := 5) (by decide) (by decide +kernel) 5).2.2 ?_
  intro st hst hat
  have hle := hat.le
  rw [hscope'] at hst
  simp only [List.mem_cons, List.not_mem_nil, or_false] at hst
  omega

end SinkAudit.Tree
