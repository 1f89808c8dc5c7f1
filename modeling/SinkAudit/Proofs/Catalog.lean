import SinkAudit.Check.Kind
import SinkAudit.Remediation
import SinkAudit.Risk

/-! # What catalogs say

Every sink in a catalog belongs to a class that is listed with its weakness, and for every sink
there are steps to take, none of them twice. Findings take both from the sink. -/
namespace SinkAudit

/-! ## Steps -/

@[simp] theorem addSteps_nil (first : List String) : addSteps first [] = first := rfl

theorem addSteps_cons (first more : List String) (step : String) :
    addSteps first (step :: more) =
      addSteps (if step ∈ first then first else first ++ [step]) more := by
  simp only [addSteps, List.foldl_cons, List.contains_iff_mem]

theorem mem_addSteps {first more : List String} {step : String} :
    step ∈ addSteps first more ↔ step ∈ first ∨ step ∈ more := by
  induction more generalizing first with
  | nil => simp
  | cons next more ih =>
    rw [addSteps_cons, ih]
    split <;> grind

theorem nodup_addSteps {first : List String} (h : first.Nodup) (more : List String) :
    (addSteps first more).Nodup := by
  induction more generalizing first with
  | nil => exact h
  | cons next more ih =>
    rw [addSteps_cons]
    split
    · exact ih h
    · rename_i hnew
      refine ih (List.nodup_append.mpr ⟨h, by simp, ?_⟩)
      grind

theorem head?_addSteps (step : String) (rest more : List String) :
    (addSteps (step :: rest) more).head? = some step := by
  induction more generalizing rest with
  | nil => rfl
  | cons next more ih =>
    rw [addSteps_cons]
    split
    · exact ih rest
    · exact ih (rest ++ [next])

structure ProperSteps (steps : List String) : Prop where
  ne_nil : steps ≠ []
  nodup : steps.Nodup

instance (steps : List String) : Decidable (ProperSteps steps) :=
  decidable_of_iff (steps ≠ [] ∧ steps.Nodup) ⟨fun h => ⟨h.1, h.2⟩, fun h => ⟨h.1, h.2⟩⟩

theorem ProperSteps.addSteps {first : List String} (h : ProperSteps first) (more : List String) :
    ProperSteps (addSteps first more) := by
  obtain ⟨step, hstep⟩ := List.exists_mem_of_ne_nil first h.ne_nil
  exact ⟨List.ne_nil_of_mem (mem_addSteps.mpr (.inl hstep)), nodup_addSteps h.nodup more⟩

theorem stepsForClass_ne_nil (vulnerability : String) : stepsForClass vulnerability ≠ [] := by
  have hall : ∀ entry ∈ classSteps, entry.2 ≠ [] := by decide
  unfold stepsForClass
  cases h : classSteps.lookup vulnerability with
  | none => simp [genericSteps]
  | some steps =>
    obtain ⟨before, after, hmem, _⟩ := List.lookup_eq_some_iff.mp h
    exact hall (vulnerability, steps) (by simp [hmem])

theorem SinkPattern.properSteps (p : SinkPattern) : ProperSteps p.steps := by
  have hsteps : p.steps = addSteps [] (p.remediation ++ stepsForClass p.vulnerability) := rfl
  obtain ⟨step, hstep⟩ := List.exists_mem_of_ne_nil _ (stepsForClass_ne_nil p.vulnerability)
  rw [hsteps]
  exact ⟨List.ne_nil_of_mem (mem_addSteps.mpr (.inr (List.mem_append_right _ hstep))),
    nodup_addSteps .nil _⟩

/-! ## Classes -/

def SinkPattern.Classed (p : SinkPattern) : Prop :=
  (weaknesses.lookup p.vulnerability).isSome = true

instance (p : SinkPattern) : Decidable p.Classed :=
  inferInstanceAs (Decidable ((weaknesses.lookup p.vulnerability).isSome = true))

theorem SinkPattern.Classed.lookup_eq {p : SinkPattern} (h : p.Classed) :
    weaknesses.lookup p.vulnerability = some p.cwe := by
  obtain ⟨weakness, hw⟩ := Option.isSome_iff_exists.mp h
  rw [cwe, weaknessOf, hw]
  rfl

/-- The common weakness is named only where nothing better is known. -/
theorem SinkPattern.Classed.cwe_ne {p : SinkPattern} (h : p.Classed) : p.cwe ≠ "CWE-20" := by
  have hall : ∀ entry ∈ weaknesses, entry.2 ≠ "CWE-20" := by decide
  obtain ⟨before, after, hmem, _⟩ := List.lookup_eq_some_iff.mp h.lookup_eq
  exact hall (p.vulnerability, p.cwe) (by simp [hmem])

theorem CheckKind.sinks_classed (kind : CheckKind) : ∀ p ∈ kind.sinks, p.Classed := by
  cases kind <;> decide

/-- A sink that is named after a check and in no list has the class of the check. -/
theorem SinkPattern.generic_classed {kind : CheckKind} (h : kind ≠ .plain) (matcher : String) :
    (SinkPattern.generic kind.vulnerability matcher).Classed := by
  cases kind with
  | plain => exact absurd rfl h
  | _ => rfl

end SinkAudit
