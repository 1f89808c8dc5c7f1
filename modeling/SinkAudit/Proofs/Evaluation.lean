import SinkAudit.Check.Run
import SinkAudit.Proofs.Exemption

/-! # What an evaluation reports

A report of a sink is due if a tainted value reaches it, whatever reaches it beside, or if only
fixed values do and those are asked for. An evaluation reports what is due and nothing else, with a
risk that follows from the sink and from whether a tainted value reaches it, as long as the check
has the words for it: advice to refactor takes an alternative, and advice on an assignment its
target (`evaluate_reports_due`). -/
namespace SinkAudit.Check

section
variable {c : Check} {s : Source} {m : Memory} {i : Nat} {p : SinkPattern} {q : Inquiry}
  {v : Verdict} {arguments : List Nat}

/-! ## When a report is due -/

def verdictAt (c : Check) (s : Source) (i j : Nat) : Verdict :=
  (s.exposure c.options.exemptions (some i) j).verdict

/-- A tainted value is among those that reach a sink. -/
def Tainted (c : Check) (s : Source) (i : Nat) (arguments : List Nat) : Prop :=
  ∃ j ∈ arguments, (verdictAt c s i j).isTainted = true

/-- Only fixed values reach a sink. -/
def Fixed (c : Check) (s : Source) (i : Nat) (arguments : List Nat) : Prop :=
  ∀ j ∈ arguments, (verdictAt c s i j).isDynamic = false

/-- A report of a sink is due. -/
def Due (c : Check) (s : Source) (i : Nat) (q : Inquiry) : Prop :=
  Tainted c s i q.arguments ∨
    Fixed c s i q.arguments ∧ (q.reportStatic = true ∨ q.structural = true)

theorem tainted_iff : Tainted c s i arguments ↔ .tainted ∈ exposures c s i arguments := by
  simp [Tainted, verdictAt, exposures]

theorem fixed_iff : Fixed c s i arguments ↔ ∀ x ∈ exposures c s i arguments, x = .static := by
  simp [Fixed, verdictAt, exposures]

theorem Tainted.not_fixed (h : Tainted c s i arguments) : ¬ Fixed c s i arguments := by
  intro hf
  cases fixed_iff.mp hf _ (tainted_iff.mp h)

theorem verdictOn?_of_tainted (h : Tainted c s i q.arguments) :
    verdictOn? c s i q = some Exposure.tainted.verdict := by
  have hf := h.not_fixed
  rw [fixed_iff] at hf
  rw [verdictOn?, decisive?_eq, if_neg hf, if_pos (tainted_iff.mp h)]

theorem verdictOn?_of_fixed (h : Fixed c s i q.arguments) :
    verdictOn? c s i q = if q.reportStatic || q.structural then some .static else none := by
  rw [verdictOn?, decisive?_eq, if_pos (fixed_iff.mp h)]

theorem verdictOn?_of_safe (h : ¬ Tainted c s i q.arguments) (hf : ¬ Fixed c s i q.arguments) :
    verdictOn? c s i q = none := by
  rw [tainted_iff] at h
  rw [fixed_iff] at hf
  rw [verdictOn?, decisive?_eq, if_neg hf, if_neg h]

theorem verdictOn?_of_not_due (h : ¬ Due c s i q) : verdictOn? c s i q = none := by
  have ht : ¬ Tainted c s i q.arguments := fun ht => h (.inl ht)
  by_cases hf : Fixed c s i q.arguments
  · have hasked : (q.reportStatic || q.structural) = false := by
      refine Bool.eq_false_iff.mpr fun ha => h (.inr ⟨hf, ?_⟩)
      simpa using ha
    rw [verdictOn?_of_fixed hf, hasked]
    rfl
  · exact verdictOn?_of_safe ht hf

/-- What is due is reported with a verdict that tells whether a tainted value reaches the sink. -/
theorem verdictOn?_of_due (h : Due c s i q) :
    ∃ v, verdictOn? c s i q = some v ∧ (v.isTainted = true ↔ Tainted c s i q.arguments) := by
  rcases h with ht | ⟨hf, hasked⟩
  · exact ⟨_, verdictOn?_of_tainted ht, by simp [ht]⟩
  · refine ⟨.static, ?_, ?_⟩
    · rw [verdictOn?_of_fixed hf, if_pos (by simpa using hasked)]
    · have ht : ¬ Tainted c s i q.arguments := fun ht => ht.not_fixed hf
      simp [ht, Verdict.static, Verdict.isTainted]

/-! ## When a report can be worded -/

theorem Code.suggest_of_empty (hremove : Code.strategy c m ≠ .remove)
    (hvalidate : Code.strategy c m ≠ .validate) (h : (m.category.getD p).safeAlternatives = []) :
    Code.suggest c m p = .error .noAlternative := by
  unfold Code.suggest
  split
  · contradiction
  · contradiction
  · rw [Code.alternative, h]
    rfl

theorem Markup.suggest_of_untargeted (ha : (s.tree.kind i).isAssignment = true)
    (h : s.tree.child? i .left = none) : Markup.suggest s i = .error .noTarget := by
  unfold Markup.suggest
  dsimp only
  rw [if_pos ha, h]

theorem suggest_of_not_wordable (h : ¬ Wordable c s m i p) :
    ∃ fault, suggest c s m p i = .error fault := by
  unfold suggest
  split
  case h_2 hk =>
    have hempty : ¬ (Code.strategy c m = .remove ∨ Code.strategy c m = .validate ∨
        (m.category.getD p).safeAlternatives ≠ []) :=
      fun ha => h ⟨fun _ => ha, fun hm => by simp [hk] at hm⟩
    simp only [not_or, Decidable.not_not] at hempty
    exact ⟨_, Code.suggest_of_empty hempty.1 hempty.2.1 hempty.2.2⟩
  case h_4 hk =>
    have hleft : ¬ ((s.tree.kind i).isAssignment = true →
        (s.tree.child? i .left).isSome = true) :=
      fun ha => h ⟨fun hc => by simp [hk] at hc, fun _ => ha⟩
    simp only [Classical.not_imp, Bool.not_eq_true, Option.isSome_eq_false_iff,
      Option.isNone_iff_eq_none] at hleft
    exact ⟨_, Markup.suggest_of_untargeted hleft.1 hleft.2⟩
  all_goals
    rename_i hk
    exact absurd ⟨fun hc => by simp [hk] at hc, fun hm => by simp [hk] at hm⟩ h

theorem findingFor_of_not_wordable (hq : q.sink = some p) (h : ¬ Wordable c s m i p)
    (v : Verdict) : ∃ fault, findingFor c s m i q v = .error fault := by
  obtain ⟨fault, hf⟩ := suggest_of_not_wordable h
  unfold findingFor
  rw [hq]
  dsimp only
  split
  · rw [hf]
    exact ⟨_, rfl⟩
  · rw [hf]
    cases describe c m p v with
    | error fault' => exact ⟨_, rfl⟩
    | ok text => exact ⟨_, rfl⟩

/-! ## Evaluations -/

theorem evaluate_of_none (h : verdictOn? c s i q = none) :
    ∃ log, evaluate c s m i q = .ok ({ m with log }, none) := by
  unfold verdictOn? at h
  simp only [evaluate, h]
  exact ⟨_, rfl⟩

theorem evaluate_of_some (h : verdictOn? c s i q = some v) :
    ∃ log, evaluate c s m i q = (findingFor c s m i q v).map fun f =>
      ({ m with emitter := m.emitter.push f, log }, some f) := by
  -- the log that evaluation keeps is not part of what a finding says
  let m₁ := { m with log := m.log ++ (exposures c s i q.arguments).flatMap (exposureLog s i) }
  have hlog : findingFor c s m₁ i q v = findingFor c s m i q v :=
    findingFor_congr ⟨rfl, rfl, fun _ => rfl, fun _ => rfl⟩
  refine ⟨m₁.log, ?_⟩
  unfold verdictOn? at h
  simp only [evaluate, h]
  rw [hlog]

/-- The order in which values reach a sink does not matter to the verdict. -/
theorem verdictOn?_perm (h : arguments.Perm q.arguments) :
    verdictOn? c s i { q with arguments } = verdictOn? c s i q := by
  have hmem (x : Exposure) : x ∈ exposures c s i arguments ↔ x ∈ exposures c s i q.arguments :=
    (h.map _).mem_iff
  simp only [verdictOn?, decisive?_eq, hmem]

theorem evaluate_perm (h : arguments.Perm q.arguments) :
    Alike (fun x y => x.1.emitter = y.1.emitter ∧ x.2 = y.2)
      (evaluate c s m i { q with arguments }) (evaluate c s m i q) := by
  have hperm := verdictOn?_perm (c := c) (s := s) (i := i) h
  cases hv : verdictOn? c s i q with
  | none =>
    obtain ⟨log, he⟩ := evaluate_of_none (m := m) hv
    obtain ⟨log', he'⟩ := evaluate_of_none (m := m) (hperm.trans hv)
    rw [he, he']
    exact .ok ⟨rfl, rfl⟩
  | some v =>
    obtain ⟨log, he⟩ := evaluate_of_some (m := m) hv
    obtain ⟨log', he'⟩ := evaluate_of_some (m := m) (hperm.trans hv)
    have hfinding : findingFor c s m i { q with arguments } v = findingFor c s m i q v := rfl
    rw [he, he', hfinding]
    cases findingFor c s m i q v with
    | error fault => exact .error fault
    | ok f => exact .ok ⟨rfl, rfl⟩

/-- The risk of a sink by whether a tainted value reaches it, whether it is dangerous whatever does,
and whether its shape is a risk of its own. -/
structure RiskBy (tainted dangerous structural : Prop) (risk : Risk) : Prop where
  critical : risk = .critical ↔ tainted ∧ (dangerous ∨ structural)
  high : risk = .high ↔ ¬ (tainted ∧ (dangerous ∨ structural)) ∧ (tainted ∨ dangerous)
  medium : risk = .medium ↔ ¬ (tainted ∧ (dangerous ∨ structural)) ∧ ¬ (tainted ∨ dangerous)

theorem riskBy_classify {tainted : Prop} (h : v.isTainted = true ↔ tainted) (p : SinkPattern)
    (structural : Bool) : RiskBy tainted (p.dangerous = true) (structural = true)
      (.classify p v structural) := by
  unfold Risk.classify
  rw [← h]
  cases v.isTainted <;> cases p.dangerous <;> cases structural <;> exact ⟨by simp, by simp, by simp⟩

end

/-- An evaluation reports nothing and keeps the memory as it is, but for the log, unless a report is
due. If one is due and the check has the words for it, it adds one finding behind the others, whose
risk depends on whether a tainted value is among those that reach the sink; without the words it
fails. The order of the values does not matter. -/
theorem evaluate_reports_due (c : Check) (s : Source) (m : Memory) (i : Nat) (p : SinkPattern)
    (q : Inquiry) (hq : q.sink = some p) :
    (¬ Due c s i q → ∃ log, evaluate c s m i q = .ok ({ m with log }, none)) ∧
    (Due c s i q → Wordable c s m i p → ∃ f log,
      evaluate c s m i q = .ok
        ({ m with log, emitter := { m.emitter with findings := m.emitter.findings ++ [f] } },
          some f) ∧
      RiskBy (Tainted c s i q.arguments) (p.dangerous = true) (q.structural = true) f.risk) ∧
    (Due c s i q → ¬ Wordable c s m i p → ∃ fault, evaluate c s m i q = .error fault) ∧
    ∀ arguments : List Nat, arguments.Perm q.arguments →
      Alike (fun x y => x.1.emitter = y.1.emitter ∧ x.2 = y.2)
        (evaluate c s m i { q with arguments }) (evaluate c s m i q) := by
  refine ⟨fun h => evaluate_of_none (verdictOn?_of_not_due h), fun h hw => ?_, fun h hw => ?_,
    fun arguments h => evaluate_perm h⟩
  · obtain ⟨v, hv, htainted⟩ := verdictOn?_of_due h
    obtain ⟨log, he⟩ := evaluate_of_some (m := m) hv
    obtain ⟨message, fixes, hf⟩ := findingFor_of_wordable hq hw v
    rw [he, hf]
    exact ⟨_, log, rfl, riskBy_classify htainted p q.structural⟩
  · obtain ⟨v, hv, _⟩ := verdictOn?_of_due h
    obtain ⟨log, he⟩ := evaluate_of_some (m := m) hv
    obtain ⟨fault, hf⟩ := findingFor_of_not_wordable hq hw v
    rw [he, hf]
    exact ⟨fault, rfl⟩

def mixedCall : Source where
  bytes := "execFile(escape(a),b)".toUTF8.data
  tree := ⟨#[
    { kind := .program, start := 0, stop := 21 },
    { kind := .callExpression, start := 0, stop := 21, parent := some 0 },
    { kind := .identifier, start := 0, stop := 8, parent := some 1, field := some .callee },
    { kind := .arguments, start := 8, stop := 21, parent := some 1, field := some .arguments },
    { kind := .callExpression, start := 9, stop := 18, parent := some 3 },
    { kind := .identifier, start := 9, stop := 15, parent := some 4, field := some .callee },
    { kind := .arguments, start := 15, stop := 18, parent := some 4, field := some .arguments },
    { kind := .identifier, start := 16, stop := 17, parent := some 6 },
    { kind := .identifier, start := 19, stop := 20, parent := some 3 }]⟩

/-- The value that is made safe does not hide the tainted one behind it; alone it is not
reported. -/
theorem mixedCall_not_hidden :
    let c := Check.ofKind .command
    let p := SinkPattern.generic "argument-injection" "execFile"
    (verdictAt c mixedCall 1 4).isSanitized = true ∧
      (verdictAt c mixedCall 1 8).isTainted = true ∧
      (∃ log, evaluate c mixedCall c.fresh 1 { sink := some p, arguments := [4] } =
        .ok ({ c.fresh with log }, none)) ∧
      ∃ f log, evaluate c mixedCall c.fresh 1 { sink := some p, arguments := [4, 8] } =
        .ok ({ c.fresh with log, emitter := { c.fresh.emitter with findings := [f] } }, some f) ∧
        f.risk = .high := by
  intro c p
  have hsafe : (verdictAt c mixedCall 1 4).isSanitized = true := by decide +kernel
  have hdynamic : (verdictAt c mixedCall 1 4).isDynamic = true := by decide +kernel
  have htainted : (verdictAt c mixedCall 1 8).isTainted = true := by decide +kernel
  have hword : Wordable c mixedCall c.fresh 1 p := ⟨by decide, by decide⟩
  have hmixed : Tainted c mixedCall 1 [4, 8] := ⟨8, by decide, htainted⟩
  have hnot : ¬ Due c mixedCall 1 { sink := some p, arguments := [4] } := by
    rintro (⟨j, hj, ht⟩ | ⟨hf, _⟩)
    · rw [List.mem_singleton.mp hj, Verdict.isTainted, hsafe] at ht
      simp at ht
    · cases hdynamic.symm.trans (hf 4 (by decide))
  have hone := (evaluate_reports_due c mixedCall c.fresh 1 p { sink := some p, arguments := [4] }
    rfl).1 hnot
  obtain ⟨f, log, he, hrisk⟩ := (evaluate_reports_due c mixedCall c.fresh 1 p
    { sink := some p, arguments := [4, 8] } rfl).2.1 (.inl hmixed) hword
  refine ⟨hsafe, htainted, hone, f, log, he, hrisk.high.mpr ⟨?_, .inl hmixed⟩⟩
  rintro ⟨_, h | h⟩
  · cases h
  · cases h

/-- A tainted value reaches the call, and yet nothing is reported: the advice is to refactor, and
the sink has no alternative to refactor to. -/
theorem mixedCall_without_words :
    let c : Check := { kind := .code, options := { strategy := .refactor } }
    let p : SinkPattern :=
      { matcher := "execFile", vulnerability := "code-injection", dangerous := true }
    (verdictAt c mixedCall 1 8).isTainted = true ∧
      evaluate c mixedCall c.fresh 1 { sink := some p, arguments := [4, 8] } =
        .error .noAlternative := by
  intro c p
  exact ⟨by decide +kernel, by decide +kernel⟩

end SinkAudit.Check
