import SinkAudit.Proofs.Ancestry
import SinkAudit.Proofs.Finds

/-! # Nodes in the order of their rows

A tree is walked with a stack: the node on top is visited, and its children take its place. This is
the walk that goes through each child's nodes before the next child's (`stackWalk_singleton`). Where
the rows of the table stand in that order, a walk goes through the rows of a subtree from the first
to the last (`InPreorder.walk_increasing`). A check adds at most one finding at each node that it
visits, and none at a node whose kind it does not handle, so the findings of a run belong to rows
that increase (`run_in_row_order`). -/
namespace SinkAudit

namespace Tree
variable {t : Tree} {c i j k m : Nat}

/-! ## A walk with a stack -/

/-- The nodes that a stack leads to; its top is its last element. -/
def stackWalk (t : Tree) (stack : List Nat) : List Nat :=
  match _h : stack.getLast? with
  | none => []
  | some i => i :: t.stackWalk (stack.dropLast ++ (t.children i).reverse)
termination_by (stack.flatMap t.walk).length
decreasing_by
  obtain ⟨rest, rfl⟩ := List.getLast?_eq_some_iff.mp _h
  have hchildren : ((t.children i).reverse.flatMap t.walk).length =
      ((t.children i).flatMap t.walk).length :=
    ((List.reverse_perm (t.children i)).flatMap_right t.walk).length_eq
  simp only [List.dropLast_concat, List.flatMap_append, List.length_append, hchildren,
    List.flatMap_singleton, t.walk_eq i, List.length_cons]
  omega

theorem stackWalk_eq (t : Tree) (stack : List Nat) :
    t.stackWalk stack = stack.reverse.flatMap t.walk := by
  fun_induction stackWalk t stack with
  | case1 stack h =>
    rw [List.getLast?_eq_none_iff.mp h]
    rfl
  | case2 stack i h ih =>
    obtain ⟨rest, rfl⟩ := List.getLast?_eq_some_iff.mp h
    rw [ih]
    simp [t.walk_eq i]

theorem stackWalk_singleton (t : Tree) (i : Nat) : t.stackWalk [i] = t.walk i := by
  rw [stackWalk_eq]
  simp

/-! ## Rows in preorder -/

/-- Each row but the first belongs to the row before it or to one above that. -/
def InPreorder (t : Tree) : Prop :=
  ∀ j, j + 1 < t.size → ∃ p, t.parent? (j + 1) = some p ∧ t.AtOrAbove p j

theorem inPreorder_iff :
    t.InPreorder ↔ ∀ j < t.size - 1, ∃ p ∈ t.parent? (j + 1), j ∈ t.walk p := by
  simp only [InPreorder, atOrAbove_iff, Option.mem_def, Nat.lt_sub_iff_add_lt]

instance : Decidable t.InPreorder := decidable_of_iff _ inPreorder_iff.symm

/-- What stands above a row stands above the row before it, unless that comes too early. -/
theorem InPreorder.atOrAbove_pred (h : t.InPreorder) (hc : t.AtOrAbove c (j + 1)) (hle : c ≤ j) :
    t.AtOrAbove c j := by
  have habove := above_of_ne hc (by omega)
  obtain ⟨q, hcq, hq⟩ := Relation.TransGen.tail'_iff.mp habove
  obtain ⟨p, hp, hpj⟩ := h j (lt_size_of_parent? hq)
  cases hp.symm.trans hq
  exact hcq.trans hpj

/-- The rows of a subtree have no gaps. -/
theorem InPreorder.atOrAbove_between (h : t.InPreorder) (hk : t.AtOrAbove c k) (hc : c ≤ m)
    (hm : m ≤ k) : t.AtOrAbove c m := by
  -- downwards from the last row, one row at a time
  induction hm with
  | refl => exact hk
  | step hmk ih => exact ih (h.atOrAbove_pred hk (Nat.le_trans hc hmk))

/-- The subtree of a child ends before the next child. -/
theorem InPreorder.lt_sibling (h : t.InPreorder) (hc : c ∈ t.children i) (hm : m ∈ t.children i)
    (hcm : c < m) (hk : t.AtOrAbove c k) : k < m := by
  by_contra hkm
  have hbetween := h.atOrAbove_between hk (Nat.le_of_lt hcm) (Nat.le_of_not_lt hkm)
  have habove := above_of_ne hbetween (Nat.ne_of_gt hcm)
  have hle := AtOrAbove.le ((above_iff_of_parent? (mem_children.mp hm).2).mp habove)
  have hlt := (lt_of_mem_children hc).1
  omega

theorem children_increasing (t : Tree) (i : Nat) : (t.children i).Pairwise (· < ·) :=
  List.pairwise_lt_range.filter _

/-- A walk goes from lower rows to higher ones. -/
theorem InPreorder.walk_increasing (h : t.InPreorder) (i : Nat) :
    (t.walk i).Pairwise (· < ·) := by
  induction i using walk.induct t with
  | case1 i ih =>
    rw [walk_eq, List.pairwise_cons, List.pairwise_flatMap]
    refine ⟨?_, ih, ?_⟩
    · intro k hk
      obtain ⟨c, hc, hck⟩ := List.mem_flatMap.mp hk
      exact Nat.lt_of_lt_of_le (lt_of_mem_children hc).1 (AtOrAbove.le (atOrAbove_iff.mpr hck))
    · -- of two children, all rows of the first come before the second and so before its rows
      refine (t.children_increasing i).imp_of_mem ?_
      intro c m hc hm hcm k hk l hl
      exact Nat.lt_of_lt_of_le (h.lt_sibling hc hm hcm (atOrAbove_iff.mpr hk))
        (AtOrAbove.le (atOrAbove_iff.mpr hl))

theorem InPreorder.root_atOrAbove (h : t.InPreorder) (hj : j < t.size) : t.AtOrAbove 0 j := by
  induction j using Nat.strongRecOn with
  | ind j ih =>
    cases j with
    | zero => exact .refl
    | succ j =>
      obtain ⟨p, hp, _⟩ := h j hj
      have hlt := parent?_lt hp
      exact (ih p hlt (by omega)).tail hp

theorem lt_size_of_mem_walk (hi : i < t.size) (hk : k ∈ t.walk i) : k < t.size := by
  rcases Relation.reflTransGen_iff_eq_or_transGen.mp (atOrAbove_iff.mpr hk) with rfl | habove
  · exact hi
  · obtain ⟨q, _, hq⟩ := Relation.TransGen.tail'_iff.mp habove
    exact lt_size_of_parent? hq

/-- All rows are walked, each once and in their order. -/
theorem InPreorder.all_eq_range (h : t.InPreorder) (hs : 0 < t.size) :
    t.all = List.range t.size := by
  have hall : t.all.Pairwise (· < ·) := h.walk_increasing 0
  have hperm : t.all.Perm (List.range t.size) := by
    rw [List.perm_ext_iff_of_nodup (hall.imp Nat.ne_of_lt) List.nodup_range]
    intro k
    rw [List.mem_range]
    exact ⟨lt_size_of_mem_walk hs, fun hk => atOrAbove_iff.mp (h.root_atOrAbove hk)⟩
  exact hperm.eq_of_pairwise (fun a b _ _ hab hba => absurd hab (Nat.lt_asymm hba)) hall
    List.pairwise_lt_range

end Tree

/-! ## The kinds of node that checks handle -/

namespace Kind

def calls : List Kind := [.callExpression, .newExpression]

def assignments : List Kind := [.assignment, .augmentedAssignment]

def handled : List Kind := calls ++ assignments ++ [.memberExpression, .jsxAttribute, .regex]

theorem isCall_iff {kind : Kind} : kind.isCall = true ↔ kind ∈ calls := by
  unfold isCall
  split <;> simp_all [calls]

theorem isAssignment_iff {kind : Kind} : kind.isAssignment = true ↔ kind ∈ assignments := by
  unfold isAssignment
  split <;> simp_all [assignments]

end Kind

/-- The kinds of node at which a check does anything. -/
def CheckKind.handled : CheckKind → List Kind
  | .plain => []
  | .command | .code | .header => Kind.calls
  | .regex => Kind.calls ++ [.regex]
  | .markup => Kind.calls ++ Kind.assignments ++ [.jsxAttribute]
  | .redirect => Kind.calls ++ Kind.assignments
  | .cookie => Kind.calls ++ Kind.assignments ++ [.memberExpression]

theorem CheckKind.handled_subset (k : CheckKind) : k.handled ⊆ Kind.handled := by
  cases k <;> decide

namespace Check
variable {c : Check} {s : Source} {m n m' : Memory} {i : Nat} {f : Finding}

theorem handle_of_not_handled (h : s.tree.kind i ∉ c.kind.handled) :
    handle c s m i = m.silent := by
  unfold handle
  cases hk : c.kind <;>
    simp_all [CheckKind.handled, ← Kind.isCall_iff, ← Kind.isAssignment_iff]

theorem visit_of_not_handled (h : s.tree.kind i ∉ c.kind.handled) : visit c s m i = .ok m := by
  rw [visit_eq, handle_of_not_handled h]
  rfl

/-! ## The rows of a run's findings -/

/-- Some of a list of visits come first, and the next one, to a given node, adds a finding. -/
def FindsAt (c : Check) (s : Source) (m : Memory) (nodes : List Nat) (i : Nat) (f : Finding) :
    Prop :=
  ∃ before n n', before ++ [i] <+: nodes ∧ before.foldlM (visit c s) m = .ok n ∧
    visit c s n i = .ok n' ∧ n'.emitter.findings = n.emitter.findings ++ [f]

/-- A finding belongs to a node that the check handles: it was made there and says where it is. -/
structure AnchoredAt (c : Check) (s : Source) (m : Memory) (nodes : List Nat) (i : Nat)
    (f : Finding) : Prop where
  handled : s.tree.kind i ∈ c.kind.handled
  made : FindsAt c s m nodes i f
  about : About s m.emitter i f

theorem AnchoredAt.append {nodes : List Nat} (h : AnchoredAt c s m nodes i f) (more : List Nat) :
    AnchoredAt c s m (nodes ++ more) i f := by
  obtain ⟨before, n, n', hprefix, hrest⟩ := h.made
  exact ⟨h.handled, ⟨before, n, n', hprefix.trans (List.prefix_append nodes more), hrest⟩, h.about⟩

/-- What holds after each visit: the findings so far belong to nodes that are done, one to each. -/
structure Progress (c : Check) (s : Source) (m : Memory) (done : List Nat) (n : Memory) : Prop where
  reached : done.foldlM (visit c s) m = .ok n
  check : n.emitter.check = m.emitter.check
  path : n.emitter.path = m.emitter.path
  anchored : ∃ anchors, anchors.Sublist done ∧
    List.Forall₂ (AnchoredAt c s m done) anchors n.emitter.findings

theorem Progress.visit {done : List Nat} (h : Progress c s m done n) (i : Nat) :
    Ends (Fails s.tree) (Progress c s m (done ++ [i])) (visit c s n i) := by
  have hends := visit_ends c s n i
  generalize hv : Check.visit c s n i = x at hends
  cases hends with
  | error hf => exact .error hf
  | @ok n' hg =>
    obtain ⟨anchors, hsub, hall⟩ := h.anchored
    have hall : List.Forall₂ (AnchoredAt c s m (done ++ [i])) anchors n.emitter.findings :=
      hall.imp fun _ _ ha => ha.append [i]
    refine .ok ⟨?_, hg.check.trans h.check, hg.path.trans h.path, ?_⟩
    · rw [List.foldlM_append, h.reached]
      simp only [List.foldlM_cons, List.foldlM_nil, bind_pure]
      exact hv
    · rcases hg.findings with hsame | ⟨p, risk, message, advice, hadded⟩
      · rw [hsame]
        exact ⟨anchors, hsub.trans (List.sublist_append_left done [i]), hall⟩
      · -- without a handler the visit would have left the findings as they were
        have hhandled : s.tree.kind i ∈ c.kind.handled := by
          by_contra hnot
          rw [visit_of_not_handled hnot] at hv
          cases hv
          simp at hadded
        have hnew : AnchoredAt c s m (done ++ [i]) i
            (n.emitter.finding s i p risk message advice) :=
          ⟨hhandled, ⟨done, n, n', List.prefix_rfl, h.reached, hv, hadded⟩,
            p, risk, message, advice, finding_congr h.check h.path ..⟩
        rw [hadded]
        exact ⟨anchors ++ [i], hsub.append (List.Sublist.refl [i]),
          List.rel_append hall (.cons hnew .nil)⟩

theorem run_anchored (c : Check) (s : Source) (path : Path) (m : Memory) :
    Ends (Fails s.tree) (fun m' => ∃ anchors, anchors.Sublist s.tree.all ∧
      List.Forall₂ (AnchoredAt c s (begun c s path m) s.tree.all) anchors m'.emitter.findings)
      (run c s path m) := by
  cases hs : c.skips path with
  | true =>
    obtain ⟨m', hrun, hf⟩ := run_of_skips hs s m
    rw [hrun]
    exact .ok ⟨[], List.nil_sublist _, hf ▸ .nil⟩
  | false =>
    have hempty : (begun c s path m).emitter.findings = [] := by
      rw [begun_emitter]
      rfl
    have hstart : Progress c s (begun c s path m) [] (begun c s path m) :=
      ⟨rfl, rfl, rfl, [], .slnil, hempty ▸ .nil⟩
    simp only [run, hs]
    exact (Ends.foldlM (Progress c s (begun c s path m)) hstart
      fun done i n _ h => h.visit i).imp fun m' h => h.anchored

/-- In a table whose rows are in preorder, a walk with a stack goes through exactly the rows of a
subtree, from the first to the last. The findings of a run belong to increasing rows of kinds for
which there is a handler, one finding to a row. -/
theorem run_in_row_order (s : Source) (h : s.tree.InPreorder) :
    (∀ i, s.tree.stackWalk [i] = s.tree.walk i ∧ (s.tree.walk i).Pairwise (· < ·) ∧
      ∀ k, k ∈ s.tree.walk i ↔ s.tree.AtOrAbove i k) ∧
    (0 < s.tree.size → s.tree.all = List.range s.tree.size) ∧
    ∀ (c : Check) (path : Path) (m : Memory),
      Ends (Fails s.tree) (fun m' => ∃ rows : List Nat, rows.Pairwise (· < ·) ∧
        (∀ r ∈ rows, s.tree.kind r ∈ Kind.handled) ∧
        List.Forall₂ (AnchoredAt c s (begun c s path m) s.tree.all) rows m'.emitter.findings)
        (run c s path m) := by
  refine ⟨?_, h.all_eq_range, ?_⟩
  · intro i
    exact ⟨Tree.stackWalk_singleton s.tree i, h.walk_increasing i, fun k => Tree.atOrAbove_iff.symm⟩
  · intro c path m
    refine (run_anchored c s path m).imp ?_
    rintro m' ⟨rows, hsub, hall⟩
    refine ⟨rows, (h.walk_increasing 0).sublist hsub, ?_, hall⟩
    intro r hr
    obtain ⟨f, _, hf⟩ := exists_of_forall₂ hall.flip hr
    exact c.kind.handled_subset hf.handled

def copiedCookie : Source where
  bytes := "document.cookie=document.cookie".toUTF8.data
  tree := ⟨#[
    { kind := .program, start := 0, stop := 31 },
    { kind := .assignment, start := 0, stop := 31, parent := some 0 },
    { kind := .memberExpression, start := 0, stop := 15, parent := some 1, field := some .left },
    { kind := .identifier, start := 0, stop := 8, parent := some 2, field := some .object },
    { kind := .propertyIdentifier, start := 9, stop := 15, parent := some 2,
      field := some .property },
    { kind := .memberExpression, start := 16, stop := 31, parent := some 1,
      field := some .right },
    { kind := .identifier, start := 16, stop := 24, parent := some 5, field := some .object },
    { kind := .propertyIdentifier, start := 25, stop := 31, parent := some 5,
      field := some .property }]⟩

/-- The cookie is written by the assignment and read by what is assigned. -/
theorem copiedCookie_in_row_order :
    let c : Check := { kind := .cookie, options := { allowReading := .bool false } }
    let path : Path := { parts := ["a.js"] }
    copiedCookie.tree.InPreorder ∧ copiedCookie.tree.all = List.range 8 ∧
      ∃ m' rows, run c copiedCookie path c.fresh = .ok m' ∧ rows.Pairwise (· < ·) ∧
        List.Forall₂ (AnchoredAt c copiedCookie (begun c copiedCookie path c.fresh)
          copiedCookie.tree.all) rows m'.emitter.findings ∧
        m'.emitter.findings.map (·.start.column) = [1, 17] := by
  intro c path
  have hp : copiedCookie.tree.InPreorder := by decide +kernel
  obtain ⟨-, hall, hruns⟩ := run_in_row_order copiedCookie hp
  have hrows := hruns c path c.fresh
  have hcolumns : (run c copiedCookie path c.fresh).toOption.map
      (fun m => m.emitter.findings.map (·.start.column)) = some [1, 17] := by decide +kernel
  generalize run c copiedCookie path c.fresh = x at hrows hcolumns
  cases hrows with
  | error _ => simp [Except.toOption] at hcolumns
  | @ok m' h =>
    obtain ⟨rows, hincreasing, -, hanchored⟩ := h
    exact ⟨hp, hall (by decide), m', rows, rfl, hincreasing, hanchored, Option.some.inj hcolumns⟩

end Check

end SinkAudit
