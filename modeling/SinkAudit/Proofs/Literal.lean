import SinkAudit.Proofs.Exemption
import SinkAudit.Proofs.Finds

/-! # Literals

A literal is not computed, and yet it is not always taken for fixed: where its text names a part of
a request or of the page's address it looks like user input. This is the only exception
(`exposure_literal_iff`), so the checks that spare fixed values report a sink only if something
reaches it that is no literal or is such a literal (`literals_spared_unless_input`). -/
namespace SinkAudit

namespace Tree
variable {t : Tree} {i : Nat}

/-- A literal has no part that is computed. -/
theorem isDynamic_of_isLiteral (h : t.isLiteral i = true) : t.isDynamic i = false := by
  unfold isLiteral at h
  dsimp only at h
  rw [isDynamic_eq, isDynamicLeaf, valueParts]
  cases hk : t.kind (t.unwrap i) <;> simp_all [Kind.isLiteral, Kind.isReference]

theorem ne_identifier_of_isLiteral (h : t.isLiteral i = true) :
    t.kind (t.unwrap i) ≠ .identifier := by
  intro hk
  simp [isLiteral, hk, Kind.isLiteral] at h

end Tree

namespace Source
variable {s : Source} {i : Nat}

/-- Whether the text of a value names a part of a request or of the page's address. -/
def spellsInput (s : Source) (i : Nat) : Bool :=
  userInputPatterns.any (·.search (s.text (s.tree.unwrap i)))

theorem looksLikeUserInput_of_isLiteral (h : s.tree.isLiteral i = true) :
    s.looksLikeUserInput i = s.spellsInput i := by
  simp [looksLikeUserInput, spellsInput, Tree.ne_identifier_of_isLiteral h]

theorem exposure_eq_static_iff (e : Exemptions) (sink : Option Nat) :
    s.exposure e sink i = .static ↔
      s.looksLikeUserInput i = false ∧ s.tree.isDynamic i = false := by
  cases hd : !s.looksLikeUserInput i && !s.tree.isDynamic i with
  | false =>
    have hne := exposure_ne_static hd e sink
    simp_all
  | true =>
    have hstatic : s.exposure e sink i = .static := by simp only [exposure, hd, if_true]
    simp_all

theorem exposure_literal_iff (h : s.tree.isLiteral i = true) (e : Exemptions)
    (sink : Option Nat) : s.exposure e sink i = .static ↔ s.spellsInput i = false := by
  rw [exposure_eq_static_iff, looksLikeUserInput_of_isLiteral h]
  exact and_iff_left (Tree.isDynamic_of_isLiteral h)

end Source

theorem Exposure.verdict_eq_static_iff (x : Exposure) : x.verdict = .static ↔ x = .static := by
  cases x <;> simp [verdict, Verdict.static]

namespace Check
variable {c : Check} {s : Source} {i : Nat}

/-- The values that reach the sink at a node, as a check without memory sees them. -/
def valuesAt (c : Check) (s : Source) (i : Nat) : List Nat :=
  match handle c s c.fresh i with
  | .ok (_, some (.evaluate q)) => q.arguments
  | _ => []

/-- Which values become markup or an address does not depend on what was met before. -/
theorem valuesAt_eq (hk : c.kind = .markup ∨ c.kind = .redirect) {m m' : Memory} {q : Inquiry}
    (h : handle c s m i = .ok (m', some (.evaluate q))) : c.valuesAt s i = q.arguments := by
  have htells : Tells c.kind m c.fresh := by
    rcases hk with hk | hk <;> exact ⟨by simp [hk], by simp [hk], by simp [hk], by simp [hk]⟩
  have hn := handle_noted (s := s) (i := i) htells
  unfold valuesAt
  rw [h] at hn
  generalize handle c s c.fresh i = y at hn
  cases hn with
  | asks => rfl
  | category => rfl
  | shape => rfl
  | claims => rfl

/-- A sink whose fixed values are spared is reported only if a tainted value reaches it. -/
theorem tainted_of_verdictOn? {q : Inquiry} {v : Verdict}
    (hq : (q.reportStatic || q.structural) = false) (h : verdictOn? c s i q = some v) :
    ∃ j ∈ q.arguments, s.exposure c.options.exemptions (some i) j = .tainted := by
  rw [verdictOn?, decisive?_eq, hq] at h
  split at h
  · cases h
  · split at h
    · rename_i htainted
      exact List.mem_map.mp htainted
    · cases h

/-- What is reported of markup or an address is reached by something that is no literal or that
looks like user input. -/
theorem FoundAt.exists_value (hk : c.kind = .markup ∨ c.kind = .redirect) {e : Emitter}
    {f : Finding} (h : FoundAt c s e i f) :
    ∃ j ∈ c.valuesAt s i, s.tree.isLiteral j = true → s.spellsInput j = true := by
  obtain ⟨m, m', r, hr, ha, hy⟩ := h.exists_request
  cases hy with
  | report p risk message =>
    obtain ⟨_, _, hother⟩ := ha
    exact absurd hk hother
  | evaluate q p v message fixes _ hv =>
    obtain ⟨p, hp⟩ := ha
    obtain ⟨j, hj, htainted⟩ := tainted_of_verdictOn? (hp.spares hk) hv
    refine ⟨j, by rwa [valuesAt_eq hk hr], fun hl => ?_⟩
    have hne : s.exposure c.options.exemptions (some i) j ≠ .static := by simp [htainted]
    rw [Ne, Source.exposure_literal_iff hl] at hne
    simpa using hne

/-- A literal is taken for fixed unless its text names user input. Of the sinks for markup and for
addresses those are spared that only other literals reach. -/
theorem literals_spared_unless_input (s : Source) :
    (∀ e sink i, s.tree.isLiteral i = true →
      ((s.exposure e sink i).verdict = .static ↔ s.spellsInput i = false)) ∧
    ∀ c : Check, c.kind = .markup ∨ c.kind = .redirect → ∀ path m,
      Ends (Fails s.tree) (fun m' => ∀ f ∈ m'.emitter.findings,
        ∃ i ∈ s.tree.all, FoundAt c s (m.emitter.reset path) i f ∧
          ∃ j ∈ c.valuesAt s i, s.tree.isLiteral j = true → s.spellsInput j = true)
        (run c s path m) := by
  constructor
  · intro e sink i h
    rw [Exposure.verdict_eq_static_iff, Source.exposure_literal_iff h]
  · intro c hk path m
    refine (run_found c s path m).imp fun m' hfound f hf => ?_
    obtain ⟨i, hi, hat⟩ := hfound f hf
    exact ⟨i, hi, hat, hat.exists_value hk⟩

def twoLiterals : Source where
  bytes := "a.innerHTML='req.body';b.innerHTML='c'".toUTF8.data
  tree := ⟨#[
    { kind := .program, start := 0, stop := 38 },
    { kind := .assignment, start := 0, stop := 22, parent := some 0 },
    { kind := .memberExpression, start := 0, stop := 11, parent := some 1, field := some .left },
    { kind := .identifier, start := 0, stop := 1, parent := some 2, field := some .object },
    { kind := .propertyIdentifier, start := 2, stop := 11, parent := some 2
      field := some .property },
    { kind := .stringLiteral, start := 12, stop := 22, parent := some 1, field := some .right },
    { kind := .assignment, start := 23, stop := 38, parent := some 0 },
    { kind := .memberExpression, start := 23, stop := 34, parent := some 6, field := some .left },
    { kind := .identifier, start := 23, stop := 24, parent := some 7, field := some .object },
    { kind := .propertyIdentifier, start := 25, stop := 34, parent := some 7
      field := some .property },
    { kind := .stringLiteral, start := 35, stop := 38, parent := some 6, field := some .right }]⟩

/-- The second literal is taken for fixed; what is reported is reached by the first. -/
theorem twoLiterals_second_spared :
    let c := Check.ofKind .markup
    let path : Path := { parts := ["a.js"] }
    twoLiterals.tree.isLiteral 10 = true ∧
      (twoLiterals.exposure {} (some 6) 10).verdict = .static ∧
      ∃ m, run c twoLiterals path c.fresh = .ok m ∧
        m.emitter.findings.map (·.start.column) = [1] ∧
        ∀ f ∈ m.emitter.findings, ∃ i ∈ twoLiterals.tree.all,
          FoundAt c twoLiterals (c.fresh.emitter.reset path) i f ∧
          ∃ j ∈ c.valuesAt twoLiterals i,
            twoLiterals.tree.isLiteral j = true → twoLiterals.spellsInput j = true := by
  intro c path
  have hl : twoLiterals.tree.isLiteral 10 = true := by decide +kernel
  have hs : twoLiterals.spellsInput 10 = false := by decide +kernel
  have hcolumns : (run c twoLiterals path c.fresh).toOption.map
      (fun m => m.emitter.findings.map (·.start.column)) = some [1] := by decide +kernel
  obtain ⟨hfixed, hrun⟩ := literals_spared_unless_input twoLiterals
  have hends := hrun c (.inl rfl) path c.fresh
  refine ⟨hl, (hfixed {} (some 6) 10 hl).mpr hs, ?_⟩
  generalize run c twoLiterals path c.fresh = x at hends hcolumns
  cases hends with
  | error h => cases hcolumns
  | @ok m h => exact ⟨m, rfl, Option.some.inj hcolumns, h⟩

/-- The first literal is not taken for fixed, and the markup that it alone becomes is reported. -/
theorem twoLiterals_first_reported :
    let c := Check.ofKind .markup
    twoLiterals.tree.isLiteral 5 = true ∧
      (twoLiterals.exposure {} (some 1) 5).verdict ≠ .static ∧
      c.valuesAt twoLiterals 1 = [5] ∧
      (run c twoLiterals { parts := ["a.js"] } c.fresh).toOption.map
        (fun m => m.emitter.findings.map fun f => (f.start.column, f.risk)) =
          some [(1, .critical)] := by
  decide +kernel

end Check

end SinkAudit
