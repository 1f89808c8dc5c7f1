import Mathlib.Data.List.Nodup
import SinkAudit.Check.Regex
import SinkAudit.Proofs.Catalog

/-! # First occurrences

Several lists are made by a loop that takes an entry if it has not been taken before. What the loop
has taken is each entry that it has met, once and in the order in which they were first met
(`FirstOccurrences`). So the steps of a sink are a union that keeps the order of the sink's own steps
and of the checklist of its class, and the steps for a shape are put in front of them without loss or
repetition (`steps_merge_in_order`). -/
namespace SinkAudit

section
variable {α : Type} [DecidableEq α] {xs ys : List α}

def insertNew (ys : List α) (a : α) : List α := if a ∈ ys then ys else ys ++ [a]

/-- The second list has each entry of the first once, in order of first occurrence. -/
structure FirstOccurrences (xs ys : List α) : Prop where
  nodup : ys.Nodup
  mem_iff : ∀ a, a ∈ ys ↔ a ∈ xs
  ordered : ys.Pairwise fun a b => xs.idxOf a < xs.idxOf b

theorem firstOccurrences_nil : FirstOccurrences ([] : List α) [] where
  nodup := .nil
  mem_iff _ := .rfl
  ordered := .nil

/-- What follows does not change where an entry first occurs. -/
theorem FirstOccurrences.ordered_append (h : FirstOccurrences xs ys) (more : List α) :
    ys.Pairwise fun a b => (xs ++ more).idxOf a < (xs ++ more).idxOf b := by
  refine h.ordered.imp_of_mem fun {a b} ha hb hab => ?_
  rwa [List.idxOf_append_of_mem ((h.mem_iff a).mp ha), List.idxOf_append_of_mem ((h.mem_iff b).mp hb)]

theorem FirstOccurrences.insertNew (h : FirstOccurrences xs ys) (a : α) :
    FirstOccurrences (xs ++ [a]) (insertNew ys a) := by
  by_cases ha : a ∈ ys
  · rw [SinkAudit.insertNew, if_pos ha]
    refine ⟨h.nodup, fun b => ?_, h.ordered_append [a]⟩
    rw [List.mem_append, List.mem_singleton, ← h.mem_iff]
    exact ⟨.inl, fun hb => hb.elim id fun hb => hb ▸ ha⟩
  · rw [SinkAudit.insertNew, if_neg ha]
    refine ⟨?_, fun b => ?_, ?_⟩
    · rw [← List.concat_eq_append]
      exact h.nodup.concat ha
    · rw [List.mem_append, List.mem_append, h.mem_iff]
    · refine List.pairwise_append.mpr ⟨h.ordered_append [a], List.pairwise_singleton _ _, ?_⟩
      intro b hb c hc
      cases List.mem_singleton.mp hc
      have hbxs : b ∈ xs := (h.mem_iff b).mp hb
      have haxs : a ∉ xs := fun hmem => ha ((h.mem_iff a).mpr hmem)
      rw [List.idxOf_append_of_mem hbxs, List.idxOf_append_of_notMem haxs]
      exact Nat.lt_add_right _ (List.idxOf_lt_length_of_mem hbxs)

/-- The loop keeps taking first occurrences. -/
theorem FirstOccurrences.foldl (h : FirstOccurrences xs ys) (more : List α) :
    FirstOccurrences (xs ++ more) (more.foldl SinkAudit.insertNew ys) := by
  induction more generalizing xs ys with
  | nil => rwa [List.append_nil]
  | cons a more ih =>
    rw [List.append_cons]
    exact ih (h.insertNew a)

end

/-! ## Steps -/

theorem addSteps_eq_foldl (first more : List String) :
    addSteps first more = more.foldl insertNew first := by
  induction more generalizing first with
  | nil => rfl
  | cons step more ih =>
    rw [addSteps_cons, ih]
    rfl

/-- Steps that are all different are added as they are, but for those that are there. -/
theorem addSteps_of_nodup {first more : List String} (h : more.Nodup) :
    addSteps first more = first ++ more.filter (· ∉ first) := by
  induction more generalizing first with
  | nil => simp
  | cons step more ih =>
    obtain ⟨hstep, hmore⟩ := List.nodup_cons.mp h
    rw [addSteps_cons, ih hmore]
    by_cases hold : step ∈ first
    · simp [hold]
    · -- the step is none of those that follow, so it keeps none of them out
      have hkept : more.filter (· ∉ first ++ [step]) = more.filter (· ∉ first) := by
        refine List.filter_congr fun next hnext => ?_
        have hne : next ≠ step := fun heq => hstep (heq ▸ hnext)
        simp [hne]
      rw [if_neg hold, hkept, List.filter_cons, if_pos (by simpa using hold), List.append_assoc]
      rfl

/-- The checklist of a class: its own, or the generic one for a class that is not listed. -/
inductive IsChecklist (vulnerability : String) : List String → Prop
  | own {steps : List String} (h : (vulnerability, steps) ∈ classSteps) :
      IsChecklist vulnerability steps
  | generic (h : ∀ entry ∈ classSteps, entry.1 ≠ vulnerability) :
      IsChecklist vulnerability genericSteps

theorem isChecklist_stepsForClass (vulnerability : String) :
    IsChecklist vulnerability (stepsForClass vulnerability) := by
  unfold stepsForClass
  cases h : classSteps.lookup vulnerability with
  | none =>
    refine .generic fun entry hentry heq => ?_
    have hother := List.lookup_eq_none_iff.mp h entry hentry
    simp [heq] at hother
  | some steps =>
    obtain ⟨before, after, hmem, -⟩ := List.lookup_eq_some_iff.mp h
    exact .own (by simp [hmem])

/-- No class is listed twice, so each has one checklist. -/
theorem IsChecklist.unique {vulnerability : String} {steps steps' : List String}
    (h : IsChecklist vulnerability steps) (h' : IsChecklist vulnerability steps') :
    steps = steps' := by
  have hdistinct : (classSteps.map (·.1)).Nodup := by decide
  cases h with
  | own h =>
    cases h' with
    | own h' => exact (Prod.mk.inj (List.inj_on_of_nodup_map hdistinct h h' rfl)).2
    | generic h' => exact absurd rfl (h' _ h)
  | generic h =>
    cases h' with
    | own h' => exact absurd rfl (h _ h')
    | generic _ => rfl

namespace SinkPattern

theorem firstOccurrences_steps (p : SinkPattern) :
    FirstOccurrences (p.remediation ++ stepsForClass p.vulnerability) p.steps := by
  have hsteps : p.steps = addSteps [] (p.remediation ++ stepsForClass p.vulnerability) := rfl
  rw [hsteps, addSteps_eq_foldl]
  exact firstOccurrences_nil.foldl _

/-- The steps of a sink are its own and those of the one checklist of its class, each where it first
occurs. The steps for a shape come before those of the sink, of which only the missing are added. -/
theorem steps_merge_in_order (p : SinkPattern) :
    (∃ checklist, (∀ steps, IsChecklist p.vulnerability steps ↔ steps = checklist) ∧
      FirstOccurrences (p.remediation ++ checklist) p.steps) ∧
    ∀ shape : SinkPattern, shape.remediation.Nodup →
      Check.Regex.shapeSteps p shape =
        shape.remediation ++ p.steps.filter (· ∉ shape.remediation) ∧
      (Check.Regex.shapeSteps p shape).Nodup := by
  have hchecklist := isChecklist_stepsForClass p.vulnerability
  have hfirst := p.firstOccurrences_steps
  refine ⟨⟨_, fun steps => ⟨fun h => h.unique hchecklist, fun h => h ▸ hchecklist⟩, hfirst⟩, ?_⟩
  intro shape hshape
  exact ⟨addSteps_of_nodup hfirst.nodup, nodup_addSteps hshape p.steps⟩

/-- A sink that names a step twice, and one that its class names too. -/
def tangled : SinkPattern where
  matcher := "compile"
  vulnerability := "redos"
  dangerous := false
  remediation := ["Cache it", "Validate pattern length and character set", "Cache it"]

/-- A shape that names a step of the class and one of the sink. -/
def tangledShape : SinkPattern where
  matcher := "(a+)+"
  vulnerability := "redos"
  dangerous := false
  remediation := ["Escape user input before using it in a pattern", "Unnest it", "Cache it"]

theorem tangled_steps_merge :
    tangledShape.remediation.Nodup ∧
      Check.Regex.shapeSteps tangled tangledShape =
        ["Escape user input before using it in a pattern", "Unnest it", "Cache it",
         "Validate pattern length and character set",
         "Use pre-defined regex patterns instead of building them from input",
         "Use a safe regex engine such as re2 for untrusted patterns"] := by
  have hnodup : tangledShape.remediation.Nodup := by decide
  exact ⟨hnodup, ((steps_merge_in_order tangled).2 tangledShape hnodup).1.trans (by decide)⟩

end SinkPattern

end SinkAudit
