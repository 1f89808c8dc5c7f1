import Mathlib.Data.Prod.Lex
import Mathlib.Data.String.Basic
import SinkAudit.Finding.Basic
import SinkAudit.Project.Workspace

/-! # Orders and stable sorting

Texts are compared by code points, paths name by name, findings by their key. Each comparison is
shown to be the order of a linear order, so that sorting by it puts the entries in the order of
their keys and keeps entries with equal keys as they stood. A list is determined by these two
properties (`StableSort.unique`), whatever sorts it. -/
namespace SinkAudit

theorem lex_cons_le_cons {α : Type} [LinearOrder α] {a b : α} {as bs : List α} :
    a :: as ≤ b :: bs ↔ a < b ∨ a = b ∧ as ≤ bs := by
  rw [← not_lt, ← not_lt, List.cons_lt_cons_iff]
  rcases lt_trichotomy a b with h | rfl | h
  · simp [h, h.not_gt, h.ne']
  · simp
  · simp [h, h.not_gt, h.ne']

theorem Text.leChars_iff : ∀ as bs : List Char, leChars as bs = true ↔ as ≤ bs
  | [], bs => by simp [leChars, ← not_lt]
  | a :: as, [] => by simp [leChars, ← not_lt]
  | a :: as, b :: bs => by
    rw [leChars, lex_cons_le_cons, Bool.or_eq_true, Bool.and_eq_true, leChars_iff as bs,
      decide_eq_true_iff, beq_iff_eq]
    rfl

theorem Text.le_iff (s t : String) : Text.le s t = true ↔ s ≤ t := by
  rw [Text.le, Text.leChars_iff, String.le_iff_toList_le]

theorem Path.leParts_iff : ∀ ps qs : List String, leParts ps qs = true ↔ ps ≤ qs
  | [], qs => by simp [leParts, ← not_lt]
  | p :: ps, [] => by simp [leParts, ← not_lt]
  | p :: ps, q :: qs => by
    rw [leParts, lex_cons_le_cons]
    by_cases h : p = q
    · simp only [h, beq_self_eq_true, if_true, lt_irrefl, false_or, true_and, leParts_iff ps qs]
    · simp only [beq_eq_false_iff_ne.mpr h, Bool.false_eq_true, if_false, h, false_and, or_false,
        Text.le_iff, le_iff_lt_or_eq]

def Path.components (p : Path) : List String := p.root :: p.parts

theorem Path.le_iff (p q : Path) : p.le q = true ↔ p.components ≤ q.components :=
  leParts_iff _ _

section
variable {α κ : Type} [LinearOrder κ] {key : α → κ}

/-- A list in order of keys in which the entries with equal keys stand as they were given. -/
structure StableSort (key : α → κ) (given sorted : List α) : Prop where
  ordered : sorted.Pairwise fun a b => key a ≤ key b
  stable : ∀ k, sorted.filter (key · = k) = given.filter (key · = k)

theorem StableSort.mem_iff {given sorted : List α} (h : StableSort key given sorted) (a : α) :
    a ∈ sorted ↔ a ∈ given := by
  have hk := congrArg (a ∈ ·) (h.stable (key a))
  simpa using hk

theorem StableSort.filter {given sorted : List α} (h : StableSort key given sorted)
    (p : α → Bool) : StableSort key (given.filter p) (sorted.filter p) := by
  refine ⟨h.ordered.filter p, fun k => ?_⟩
  rw [List.filter_filter, List.filter_filter]
  simp only [Bool.and_comm _ (p _)]
  rw [← List.filter_filter, ← List.filter_filter, h.stable k]

/-- Ordered lists with the same entries for each key, in the same order, are equal. -/
theorem eq_of_ordered_of_filter_eq : ∀ {l r : List α},
    l.Pairwise (fun a b => key a ≤ key b) → r.Pairwise (fun a b => key a ≤ key b) →
    (∀ k, l.filter (key · = k) = r.filter (key · = k)) → l = r
  | [], [], _, _, _ => rfl
  | [], b :: r, _, _, h => by simpa using h (key b)
  | a :: l, [], _, _, h => by simpa using h (key a)
  | a :: l, b :: r, hl, hr, h => by
    obtain ⟨hal, hl'⟩ := List.pairwise_cons.mp hl
    obtain ⟨hbr, hr'⟩ := List.pairwise_cons.mp hr
    have least {c d : α} {cs ds : List α} (hc : ∀ e ∈ cs, key c ≤ key e)
        (he : (c :: cs).filter (key · = key d) = (d :: ds).filter (key · = key d)) :
        key c ≤ key d := by
      have hd : d ∈ (c :: cs).filter (key · = key d) := by rw [he]; simp
      rcases List.mem_cons.mp (List.mem_filter.mp hd).1 with rfl | hd
      · exact le_rfl
      · exact hc d hd
    have hk : key a = key b := le_antisymm (least hal (h (key b))) (least hbr (h (key a)).symm)
    have hab : a = b := by
      have := h (key a)
      simp only [List.filter_cons, hk, decide_true, if_true, List.cons.injEq] at this
      exact this.1
    subst hab
    congr 1
    refine eq_of_ordered_of_filter_eq hl' hr' fun k => ?_
    have := h k
    simp only [List.filter_cons] at this
    split at this
    · exact (List.cons.inj this).2
    · exact this

theorem StableSort.unique {given l r : List α} (hl : StableSort key given l)
    (hr : StableSort key given r) : l = r :=
  eq_of_ordered_of_filter_eq hl.ordered hr.ordered fun k => (hl.stable k).trans (hr.stable k).symm

/-- Merge sort by a comparison of keys is a stable sort. -/
theorem stableSort_mergeSort {le : α → α → Bool} (hle : ∀ a b, le a b = true ↔ key a ≤ key b)
    (l : List α) : StableSort key l (l.mergeSort le) := by
  have trans (a b c : α) (hab : le a b = true) (hbc : le b c = true) : le a c = true :=
    (hle a c).mpr (((hle a b).mp hab).trans ((hle b c).mp hbc))
  have total (a b : α) : (le a b || le b a) = true := by
    simpa [hle] using le_total (key a) (key b)
  refine ⟨(List.pairwise_mergeSort trans total l).imp fun h => (hle _ _).mp h, fun k => ?_⟩
  -- the entries with one key are an ordered sublist, which the sort keeps
  have hc : (l.filter (key · = k)).Pairwise fun a b => le a b = true := by
    refine List.Pairwise.imp_of_mem (fun {a b} ha hb _ => ?_)
      (List.pairwise_of_forall (R := fun _ _ => True) fun _ _ => trivial)
    have ha := of_decide_eq_true (List.mem_filter.mp ha).2
    have hb := of_decide_eq_true (List.mem_filter.mp hb).2
    exact (hle a b).mpr (ha.trans hb.symm).le
  have hs := List.sublist_mergeSort trans total hc List.filter_sublist
  have hf := hs.filter (key · = k)
  rw [List.filter_filter] at hf
  simp only [Bool.and_self] at hf
  exact (hf.eq_of_length ((List.mergeSort_perm l le).filter _).length_eq.symm).symm

end

/-! ## Findings -/

namespace Finding

/-- What findings are put in order by: path, line, column and check. -/
def key (f : Finding) : String ×ₗ Nat ×ₗ Nat ×ₗ String :=
  toLex (f.path.text, toLex (f.start.line, toLex (f.start.column, f.check)))

theorem le_iff (a b : Finding) : le a b = true ↔ a.key ≤ b.key := by
  simp only [le, key, Prod.Lex.toLex_le_toLex]
  split_ifs with hp hl hc
  · have hne : a.path.text ≠ b.path.text := by simpa using hp
    simp [Text.le_iff, hne, le_iff_lt_or_eq]
  · have he : a.path.text = b.path.text := by simpa using hp
    have hne : a.start.line ≠ b.start.line := by simpa using hl
    simp [he, hne]
  · have he : a.path.text = b.path.text := by simpa using hp
    have hl : a.start.line = b.start.line := by simpa using hl
    have hne : a.start.column ≠ b.start.column := by simpa using hc
    simp [he, hl, hne]
  · have he : a.path.text = b.path.text := by simpa using hp
    have hl : a.start.line = b.start.line := by simpa using hl
    have hc : a.start.column = b.start.column := by simpa using hc
    simp [he, hl, hc, Text.le_iff]

theorem sort_stable (fs : List Finding) : StableSort key fs (sort fs) :=
  stableSort_mergeSort le_iff fs

theorem sort_filter (p : Finding → Bool) (fs : List Finding) :
    sort (fs.filter p) = (sort fs).filter p :=
  (sort_stable _).unique ((sort_stable fs).filter p)

/-- Findings that differ only in how those with different keys are mixed have the same order. -/
theorem sort_congr {fs gs : List Finding}
    (h : ∀ k, fs.filter (key · = k) = gs.filter (key · = k)) : sort fs = sort gs :=
  (sort_stable fs).unique
    ⟨(sort_stable gs).ordered, fun k => ((sort_stable gs).stable k).trans (h k).symm⟩

end Finding

end SinkAudit
