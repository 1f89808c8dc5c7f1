import SinkAudit.Proofs.Preorder
import SinkAudit.Proofs.Scan
import SinkAudit.Proofs.WellFormed

/-! # Reports in the order of the source

A report is put in order by lines and columns, which are all that a finding says of its place. Of
two bytes of a file the earlier one has the smaller line, or the same line and the smaller column
(`Source.position_lt`), so a place stands for one byte and the order of places is that of the bytes:
the findings of a scan come in the order in which their nodes begin
(`scanSource_in_source_order`). -/
namespace SinkAudit

/-! ## Places and bytes -/

def Position.lt (a b : Position) : Prop :=
  a.line < b.line ∨ (a.line = b.line ∧ a.column < b.column)

instance (a b : Position) : Decidable (a.lt b) :=
  inferInstanceAs (Decidable (a.line < b.line ∨ (a.line = b.line ∧ a.column < b.column)))

theorem Position.le_refl (a : Position) : a.le a := .inr ⟨rfl, Nat.le_refl _⟩

theorem Position.not_lt_of_le {a b : Position} (h : a.le b) : ¬ b.lt a := by
  unfold Position.le at h
  unfold Position.lt
  omega

namespace Source
variable {s : Source} {a b : Nat}

/-- The bytes between two offsets add their line ends to the line and, if there are none, their
number to the column. -/
theorem position_add (h : a ≤ b) :
    (s.position b).line = (s.position a).line + (s.slice a b).count 10 ∧
      (10 ∉ s.slice a b →
        (s.position b).column = (s.position a).column + (s.slice a b).length) := by
  unfold position
  dsimp only
  rw [slice_append h, List.count_append]
  refine ⟨by omega, ?_⟩
  intro hline
  rw [column_append hline]
  omega

/-- A smaller offset has a smaller place, also where the byte between ends a line and where the
larger offset is the end of the file. -/
theorem position_lt (h : a < b) (hb : b ≤ s.bytes.size) : (s.position a).lt (s.position b) := by
  obtain ⟨hlines, hcolumns⟩ := s.position_add (Nat.le_of_lt h)
  have hlength : (s.slice a b).length = b - a := by
    rw [slice, Array.length_toList, Array.size_extract, Nat.min_eq_left hb]
  by_cases hline : 10 ∈ s.slice a b
  · have hcount := List.count_pos_iff.mpr hline
    exact .inl (by omega)
  · have hcount := List.count_eq_zero_of_not_mem hline
    have hcolumn := hcolumns hline
    exact .inr ⟨by omega, by omega⟩

theorem le_of_position_le (ha : a ≤ s.bytes.size) (h : (s.position a).le (s.position b)) :
    a ≤ b := by
  by_contra hlt
  exact Position.not_lt_of_le h (position_lt (Nat.lt_of_not_le hlt) ha)

def NodesWithin (s : Source) : Prop :=
  ∀ i < s.tree.size,
    (s.tree.node i).start ≤ (s.tree.node i).stop ∧ (s.tree.node i).stop ≤ s.bytes.size

instance (s : Source) : Decidable s.NodesWithin :=
  inferInstanceAs (Decidable (∀ i < s.tree.size,
    (s.tree.node i).start ≤ (s.tree.node i).stop ∧ (s.tree.node i).stop ≤ s.bytes.size))

end Source

/-! ## The nodes of findings -/

namespace Check.AnchoredAt
variable {c : Check} {s : Source} {m : Memory} {nodes : List Nat} {i : Nat} {f : Finding}

theorem start_eq (h : AnchoredAt c s m nodes i f) : f.start = s.startOf i := by
  obtain ⟨p, risk, message, advice, rfl⟩ := h.about
  rfl

theorem path_eq (h : AnchoredAt c s m nodes i f) : f.path = m.emitter.path := by
  obtain ⟨p, risk, message, advice, rfl⟩ := h.about
  rfl

/-- There is no handler for what stands outside of the table. -/
theorem lt_size (h : AnchoredAt c s m nodes i f) : i < s.tree.size := by
  by_contra hout
  have hkind := c.kind.handled_subset h.handled
  rw [Tree.kind, Tree.node_of_size_le (Nat.le_of_not_lt hout)] at hkind
  exact absurd hkind (by decide)

end Check.AnchoredAt

/-- A finding belongs to a node: one of the checks makes it there. -/
def Checker.Anchors (ks : List Checker) (s : Source) (path : Path) (i : Nat) (f : Finding) : Prop :=
  ∃ k ∈ ks, k.check.AnchoredAt s (k.check.begun s path k.memory) s.tree.all i f

/-- Findings in the order in which the nodes begin that they belong to; a place stands for the start
of one node, or of several that begin with the same byte. -/
structure InSourceOrder (ks : List Checker) (s : Source) (path : Path) (fs : List Finding) :
    Prop where
  anchored : ∀ f ∈ fs, ∃ i, Checker.Anchors ks s path i f
  ordered : fs.Pairwise fun f g => ∀ i j, Checker.Anchors ks s path i f →
    Checker.Anchors ks s path j g → (s.tree.node i).start ≤ (s.tree.node j).start
  same : ∀ f ∈ fs, ∀ g ∈ fs, f.start = g.start → ∀ i j, Checker.Anchors ks s path i f →
    Checker.Anchors ks s path j g → (s.tree.node i).start = (s.tree.node j).start

section
variable {ks : List Checker} {s : Source} {path : Path} {f g : Finding} {i j : Nat}

theorem Checker.Anchors.path_eq (h : Checker.Anchors ks s path i f) : f.path = path := by
  obtain ⟨k, _, hk⟩ := h
  rw [hk.path_eq, Check.begun_emitter]
  rfl

theorem Checker.Anchors.start_le (hw : s.NodesWithin) (hi : Checker.Anchors ks s path i f)
    (hj : Checker.Anchors ks s path j g) (h : f.start.le g.start) :
    (s.tree.node i).start ≤ (s.tree.node j).start := by
  obtain ⟨k, _, hk⟩ := hi
  obtain ⟨l, _, hl⟩ := hj
  rw [hk.start_eq, hl.start_eq] at h
  have hwithin := hw i hk.lt_size
  exact Source.le_of_position_le (by omega) h

theorem Finding.start_le_of_key_le (hp : f.path = g.path) (h : f.key ≤ g.key) :
    f.start.le g.start := by
  simp only [key, Prod.Lex.toLex_le_toLex, hp, lt_irrefl, true_and, false_or] at h
  rcases h with hline | ⟨hline, hcolumn | ⟨hcolumn, _⟩⟩
  · exact .inl hline
  · exact .inr ⟨hline, Nat.le_of_lt hcolumn⟩
  · exact .inr ⟨hline, Nat.le_of_eq hcolumn⟩

theorem inSourceOrder_sort (hw : s.NodesWithin) {fs : List Finding}
    (h : ∀ f ∈ fs, ∃ i, Checker.Anchors ks s path i f) :
    InSourceOrder ks s path (Finding.sort fs) := by
  have hsorted := Finding.sort_stable fs
  refine ⟨fun f hf => h f ((hsorted.mem_iff f).mp hf), ?_, ?_⟩
  · refine hsorted.ordered.imp ?_
    intro f g hkey i j hi hj
    exact hi.start_le hw hj (Finding.start_le_of_key_le (hi.path_eq.trans hj.path_eq.symm) hkey)
  · intro f _ g _ heq i j hi hj
    have hfg : f.start.le g.start := heq ▸ Position.le_refl _
    have hgf : g.start.le f.start := heq ▸ Position.le_refl _
    exact Nat.le_antisymm (hi.start_le hw hj hfg) (hj.start_le hw hi hgf)

theorem Checker.run_anchored (k : Checker) (s : Source) (path : Path) :
    Ends (Check.Fails s.tree) (fun k' => ∀ f ∈ k'.findings,
      ∃ i, k.check.AnchoredAt s (k.check.begun s path k.memory) s.tree.all i f) (k.run s path) := by
  have hrun := k.check.run_anchored s path k.memory
  unfold Checker.run
  generalize k.check.run s path k.memory = x at hrun
  cases hrun with
  | error h => exact .error h
  | ok h =>
    obtain ⟨rows, _, hall⟩ := h
    refine .ok ?_
    intro f hf
    obtain ⟨i, _, hi⟩ := exists_of_forall₂ hall hf
    exact ⟨i, hi⟩

theorem Checker.runAll_anchored (ks : List Checker) (s : Source) (path : Path) :
    Ends (Check.Fails s.tree) (fun ks' => ∀ f ∈ ks'.flatMap Checker.findings,
      ∃ i, Checker.Anchors ks s path i f) (Checker.runAll ks s path) := by
  refine (Ends.mapM fun k _ => k.run_anchored s path).imp ?_
  intro ks' hall f hf
  obtain ⟨k', hk', hf⟩ := List.mem_flatMap.mp hf
  obtain ⟨k, hk, hfound⟩ := exists_of_forall₂ hall hk'
  obtain ⟨i, hi⟩ := hfound f hf
  exact ⟨i, k, hk, hi⟩

end

/-- In a file that holds the bytes of its nodes, smaller offsets have smaller places, and whatever
checks scan it, their findings come in the order in which their nodes begin. -/
theorem scanSource_in_source_order (s : Source) (hw : s.NodesWithin) :
    (∀ a b, a < b → b ≤ s.bytes.size → (s.position a).lt (s.position b)) ∧
    ∀ (ks : List Checker) (extension : String) (path : Path),
      Ends (fun e => ∃ f, e = .analysis f ∧ Check.Fails s.tree f)
        (fun x => InSourceOrder ks s path x.2) (scanSource ks extension s path).outcome := by
  refine ⟨fun a b => Source.position_lt, ?_⟩
  intro ks extension path
  cases hg : Grammar.ofExtension? (Text.lower extension) with
  | none =>
    rw [scanSource, hg]
    exact .ok ⟨by simp, .nil, by simp⟩
  | some g =>
    have hruns := Checker.runAll_anchored ks s path
    rw [outcome_scanSource hg]
    generalize Checker.runAll ks s path = x at hruns
    cases hruns with
    | error h => exact .error ⟨_, rfl, h⟩
    | ok h => exact .ok (inSourceOrder_sort hw h)

def twoLines : Source where
  bytes := "res.set('A')\neval(x)".toUTF8.data
  tree := ⟨#[
    { kind := .program, start := 0, stop := 20 },
    { kind := .callExpression, start := 0, stop := 12, parent := some 0 },
    { kind := .memberExpression, start := 0, stop := 7, parent := some 1, field := some .callee },
    { kind := .identifier, start := 0, stop := 3, parent := some 2, field := some .object },
    { kind := .propertyIdentifier, start := 4, stop := 7, parent := some 2,
      field := some .property },
    { kind := .arguments, start := 7, stop := 12, parent := some 1, field := some .arguments },
    { kind := .stringLiteral, start := 8, stop := 11, parent := some 5 },
    { kind := .callExpression, start := 13, stop := 20, parent := some 0 },
    { kind := .identifier, start := 13, stop := 17, parent := some 7, field := some .callee },
    { kind := .arguments, start := 17, stop := 20, parent := some 7, field := some .arguments },
    { kind := .identifier, start := 18, stop := 19, parent := some 9 }]⟩

/-- The byte that ends the first line is before the one after it, though its column is larger. The
check that runs first finds the second line. -/
theorem twoLines_in_source_order :
    let ks := [Checker.ofCheck (.ofKind .code), Checker.ofCheck (.ofKind .header)]
    let path : Path := { parts := ["a.js"] }
    twoLines.NodesWithin ∧ (twoLines.position 12).lt (twoLines.position 13) ∧
      twoLines.position 12 = ⟨1, 13⟩ ∧
      ∃ x, (scanSource ks ".js" twoLines path).outcome = .ok x ∧
        InSourceOrder ks twoLines path x.2 ∧ (x.2.map (·.start)).Perm [⟨2, 1⟩, ⟨1, 1⟩] := by
  intro ks path
  have hw : twoLines.NodesWithin := by decide +kernel
  obtain ⟨hplaces, hscans⟩ := scanSource_in_source_order twoLines hw
  have hscan := hscans ks ".js" path
  have hstarts : (Checker.runAll ks twoLines path).toOption.map
      (fun ks => (ks.flatMap Checker.findings).map (·.start)) = some [⟨2, 1⟩, ⟨1, 1⟩] := by
    decide +kernel
  have hg : Grammar.ofExtension? (Text.lower ".js") = some .javaScript := by decide +kernel
  refine ⟨hw, hplaces 12 13 (by decide) (by decide +kernel), by decide +kernel, ?_⟩
  rw [outcome_scanSource hg] at hscan ⊢
  generalize Checker.runAll ks twoLines path = y at hscan hstarts
  cases y with
  | error f => simp [Except.toOption] at hstarts
  | ok ks' =>
    cases hscan with
    | ok h =>
      have hperm := (List.mergeSort_perm (ks'.flatMap Checker.findings) Finding.le).map (·.start)
      exact ⟨_, rfl, h, Option.some.inj hstarts ▸ hperm⟩

end SinkAudit
