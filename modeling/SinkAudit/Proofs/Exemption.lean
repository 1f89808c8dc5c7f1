import SinkAudit.Check.Run
import SinkAudit.Proofs.Finds

/-! # Wider exemptions

Values are exempt that pass through trusted libraries or that an earlier statement validates. With
more libraries, and with more statements looked at, a value that was fixed stays fixed and a value
that was made safe stays safe (`exposure_eases`). So a check loses findings and nothing else: none
is added, moved or worded differently (`run_exempting_sublist`). -/
namespace SinkAudit

/-- One trusts no library that the other does not, and looks back no further. -/
structure Exemptions.Within (e e' : Exemptions) : Prop where
  trusted : e.trusted ⊆ e'.trusted
  lookback : e.lookback ≤ e'.lookback

/-! ## One value -/

namespace Source
variable {s : Source} {i : Nat}

theorem isTrusted_mono {target : CallTarget} {trusted trusted' : List String}
    (h : trusted ⊆ trusted') (ht : target.isTrusted trusted = true) :
    target.isTrusted trusted' = true := by
  simp only [CallTarget.isTrusted, List.any_eq_true] at ht ⊢
  obtain ⟨library, hl, hn⟩ := ht
  exact ⟨library, h hl, hn⟩

theorem isSanitizerCall_mono {trusted trusted' : List String} (h : trusted ⊆ trusted')
    (hc : s.isSanitizerCall trusted i = true) : s.isSanitizerCall trusted' i = true := by
  simp only [isSanitizerCall, Bool.and_eq_true, Option.any_eq_true, Bool.or_eq_true] at hc ⊢
  obtain ⟨hkind, method, hm, hne, hname⟩ := hc
  exact ⟨hkind, method, hm, hne, hname.imp_left (isTrusted_mono h)⟩

theorem findSanitizer_mono (stop : Option Tree.Key) {trusted trusted' : List String}
    (h : trusted ⊆ trusted') (hs : (s.findSanitizer stop trusted i).isSome = true) :
    (s.findSanitizer stop trusted' i).isSome = true := by
  fun_induction findSanitizer s stop trusted i with
  | case1 i hstop => simp at hs
  | case2 i hstop hc =>
    rw [findSanitizer, if_neg hstop, if_pos (isSanitizerCall_mono h hc)]
    rfl
  | case3 i hstop hc j hj ih =>
    rw [findSanitizer, if_neg hstop]
    split
    · rfl
    · split
      · rename_i k hk
        cases hj.symm.trans hk
        exact ih hs
      · rename_i hk
        cases hj.symm.trans hk
  | case4 i hstop hc hj => simp at hs

theorem window_subset {k k' : Nat} (h : k ≤ k') : s.window k i ⊆ s.window k' i := by
  unfold window Tree.precedingStatements
  split
  · exact (List.take_sublist_take_left h).subset
  · exact List.Subset.refl _

theorem findValidation_mono {statements statements' : List Nat} (h : statements ⊆ statements')
    (hs : (s.findValidation statements).isSome = true) :
    (s.findValidation statements').isSome = true := by
  unfold findValidation at hs ⊢
  rw [List.findSome?_isSome_iff] at hs ⊢
  obtain ⟨j, hj, hv⟩ := hs
  exact ⟨j, h hj, hv⟩

/-- What is not fixed is not taken for fixed, whatever is exempt. -/
theorem exposure_ne_static (h : (!s.looksLikeUserInput i && !s.tree.isDynamic i) = false)
    (e : Exemptions) (sink : Option Nat) : s.exposure e sink i ≠ .static := by
  simp only [exposure, h]
  cases s.findSanitizer (sink.map s.tree.key) e.trusted i with
  | some call => simp
  | none =>
    cases s.findValidation (s.window e.lookback (sink.getD i)) with
    | some signature => simp
    | none => simp

end Source

namespace Exposure

@[simp] theorem isDynamic_verdict (x : Exposure) : x.verdict.isDynamic = decide (x ≠ .static) := by
  cases x <;> simp [verdict, Verdict.static]

@[simp] theorem isTainted_verdict (x : Exposure) : x.verdict.isTainted = decide (x = .tainted) := by
  cases x <;> simp [verdict, Verdict.static, Verdict.isTainted]

inductive IsSafe : Exposure → Prop
  | sanitized (call : String) : IsSafe (.sanitized call)
  | validated (signature : String) : IsSafe (.validated signature)

/-- How a value may come to a sink where more is exempt: as before, or, unless it is fixed, made
safe. -/
inductive Eases : Exposure → Exposure → Prop
  | same (x : Exposure) : Eases x x
  | safe {x x' : Exposure} (h : x ≠ .static) (h' : x'.IsSafe) : Eases x x'

end Exposure

theorem Source.exposure_eases (s : Source) {e e' : Exemptions} (h : e.Within e')
    (sink : Option Nat) (i : Nat) : (s.exposure e sink i).Eases (s.exposure e' sink i) := by
  have hsanitizer := findSanitizer_mono (s := s) (i := i) (sink.map s.tree.key) h.trusted
  have hvalidation :=
    findValidation_mono (s := s) (window_subset (s := s) (i := sink.getD i) h.lookback)
  cases hd : !s.looksLikeUserInput i && !s.tree.isDynamic i with
  | true =>
    simp only [exposure, hd, if_true]
    exact .same _
  | false =>
    have hopen := exposure_ne_static hd e sink
    cases hs' : s.findSanitizer (sink.map s.tree.key) e'.trusted i with
    | some call =>
      have he' : s.exposure e' sink i = .sanitized call := by simp [exposure, hd, hs']
      rw [he']
      exact .safe hopen (.sanitized call)
    | none =>
      have hs : s.findSanitizer (sink.map s.tree.key) e.trusted i = none := by
        simpa [hs'] using hsanitizer
      cases hv' : s.findValidation (s.window e'.lookback (sink.getD i)) with
      | some signature =>
        have he' : s.exposure e' sink i = .validated signature := by simp [exposure, hd, hs', hv']
        rw [he']
        exact .safe hopen (.validated signature)
      | none =>
        have hv : s.findValidation (s.window e.lookback (sink.getD i)) = none := by
          simpa [hv'] using hvalidation
        simp only [exposure, hd, hs, hs', hv, hv']
        exact .same _

namespace Check

/-! ## One sink -/

/-- A sink is reported if a tainted value reaches it, or, if asked for, if only fixed ones do. -/
theorem decisive?_eq (xs : List Exposure) (reportStatic : Bool) :
    decisive? (xs.map (·.verdict)) reportStatic =
      if ∀ x ∈ xs, x = .static then if reportStatic then some .static else none
      else if .tainted ∈ xs then some Exposure.tainted.verdict else none := by
  have hempty : ((xs.map (·.verdict)).filter (·.isDynamic)).isEmpty = true ↔
      ∀ x ∈ xs, x = .static := by
    simp
  have htainted : ((xs.map (·.verdict)).filter (·.isDynamic)).find? (·.isTainted) =
      if .tainted ∈ xs then some Exposure.tainted.verdict else none := by
    clear hempty
    induction xs with
    | nil => rfl
    | cons x xs ih =>
      cases x with
      | static => simpa using ih
      | sanitized call => simpa using ih
      | validated signature => simpa using ih
      | tainted => simp
  simp only [decisive?, hempty, htainted]

theorem decisive?_eases {xs xs' : List Exposure} (h : List.Forall₂ Exposure.Eases xs xs')
    (reportStatic : Bool) :
    decisive? (xs'.map (·.verdict)) reportStatic = none ∨
      decisive? (xs'.map (·.verdict)) reportStatic =
        decisive? (xs.map (·.verdict)) reportStatic := by
  have hstatic : (∀ x ∈ xs, x = .static) ↔ ∀ x ∈ xs', x = .static := by
    induction h with
    | nil => simp
    | cons hx _ ih =>
      cases hx with
      | same => simp [ih]
      | safe hx hx' => cases hx' <;> simp [hx]
  have htainted : .tainted ∈ xs' → .tainted ∈ xs := by
    clear hstatic
    induction h with
    | nil => simp
    | cons hx _ ih =>
      intro hm
      rcases List.mem_cons.mp hm with rfl | hm
      · cases hx with
        | same => simp
        | safe _ hx' => cases hx'
      · exact List.mem_cons_of_mem _ (ih hm)
  rw [decisive?_eq, decisive?_eq]
  simp only [← hstatic]
  split
  · exact .inr rfl
  · by_cases hm : Exposure.tainted ∈ xs'
    · rw [if_pos hm, if_pos (htainted hm)]
      exact .inr rfl
    · rw [if_neg hm]
      exact .inl rfl

/-! ## One check -/

def exempting (c : Check) (e : Exemptions) : Check :=
  { c with options := { c.options with trustedLibraries := e.trusted, lookback := e.lookback } }

section
variable {c : Check} {s : Source} {m : Memory} {i : Nat} {e e' : Exemptions}

/-- What a check asks for does not depend on what is exempt. -/
theorem handle_exempting (c : Check) (e : Exemptions) (s : Source) (m : Memory) (i : Nat) :
    handle (c.exempting e) s m i = handle c s m i := rfl

/-- Nor does what it says of a sink with a given verdict. -/
theorem findingFor_exempting (c : Check) (e : Exemptions) (s : Source) (m : Memory) (i : Nat)
    (q : Inquiry) (v : Verdict) :
    findingFor (c.exempting e) s m i q v = findingFor c s m i q v := rfl

theorem verdictOn?_exempting (h : e.Within e') (q : Inquiry) :
    verdictOn? (c.exempting e') s i q = none ∨
      verdictOn? (c.exempting e') s i q = verdictOn? (c.exempting e) s i q := by
  refine decisive?_eases ?_ _
  unfold exposures
  rw [List.forall₂_map_left_iff, List.forall₂_map_right_iff, List.forall₂_same]
  intro j _
  exact s.exposure_eases h (some i) j

theorem reply_exempting (h : e.Within e') {r : Option Request} {f : Option Finding}
    (hf : reply (c.exempting e) s m i r = .ok f) :
    ∃ f', reply (c.exempting e') s m i r = .ok f' ∧ Drops f f' := by
  match r with
  | none => exact ⟨f, hf, .inr rfl⟩
  | some (.report none risk message) => exact ⟨f, hf, .inr rfl⟩
  | some (.report (some p) risk message) => exact ⟨f, hf, .inr rfl⟩
  | some (.evaluate q) =>
    rcases verdictOn?_exempting (c := c) (s := s) (i := i) h q with hv' | hv'
    · exact ⟨none, reply_of_none hv', .inl rfl⟩
    · refine ⟨f, ?_, .inr rfl⟩
      cases hv : verdictOn? (c.exempting e) s i q with
      | none =>
        rw [reply_of_none hv] at hf
        rw [reply_of_none (hv'.trans hv), hf]
      | some v =>
        rw [reply_of_some hv, findingFor_exempting] at hf
        rw [reply_of_some (hv'.trans hv), findingFor_exempting, hf]

theorem finds_exempting (h : e.Within e') :
    Alike Drops (finds (c.exempting e) s m i) (finds (c.exempting e') s m i) := by
  cases hh : handle c s m i with
  | error f =>
    rw [finds_of_error (c := c.exempting e) hh, finds_of_error (c := c.exempting e') hh]
    exact .error f
  | ok x =>
    obtain ⟨f, hf, _⟩ := reply_ok (c := c.exempting e) hh
    obtain ⟨f', hf', hd⟩ := reply_exempting h hf
    rw [finds_of_ok (c := c.exempting e) hh, finds_of_ok (c := c.exempting e') hh, hf, hf']
    exact .ok hd

theorem evaluate_exempting {q : Inquiry} (hq : q.arguments = []) :
    evaluate (c.exempting e) s m i q = evaluate c s m i q := by
  simp only [evaluate, exposures, hq, List.map_nil, findingFor_exempting]

/-- The header check asks about no values. -/
theorem Header.inquiry_of_asks (hk : c.kind = .header) {m' : Memory} {r : Request}
    (h : handle c s m i = .ok (m', some r)) :
    ∃ missing, r = .evaluate (Header.inquiry c s i missing) := by
  simp only [handle, hk] at h
  split at h
  · unfold Header.handleCall at h
    dsimp only at h
    split at h
    · cases h
    · split at h
      · cases h
      · cases h
        exact ⟨_, rfl⟩
  · cases h

theorem Header.visit_exempting (hk : c.kind = .header) :
    visit (c.exempting e) s m i = visit c s m i := by
  rw [visit_eq, visit_eq, handle_exempting]
  cases hh : handle c s m i with
  | error f => simp only [bind, Except.bind]
  | ok x =>
    obtain ⟨m', r⟩ := x
    cases r with
    | none => simp only [bind, Except.bind, answer]
    | some r =>
      obtain ⟨missing, rfl⟩ := Header.inquiry_of_asks hk hh
      simp only [bind, Except.bind, answer]
      rw [evaluate_exempting rfl]

/-- Wider exemptions only remove findings: what a check finds with them is, in the same order and
without any change, a part of what it finds with narrower ones. -/
theorem run_exempting_sublist (c : Check) {e e' : Exemptions} (h : e.Within e') (s : Source)
    (path : Path) (m : Memory) :
    Paired s.tree (fun fs fs' => fs'.Sublist fs) (run (c.exempting e) s path m)
      (run (c.exempting e') s path m) := by
  by_cases hk : c.kind = .header
  · have hvisit : visit (c.exempting e') s = visit (c.exempting e) s := by
      funext m i
      rw [Header.visit_exempting hk, Header.visit_exempting hk]
    have hrun : run (c.exempting e') s path m = run (c.exempting e) s path m := by
      unfold run
      rw [hvisit]
      rfl
    rw [hrun]
    refine paired_of_alike (Alike.refl ?_ _)
    exact fun m => List.Sublist.refl m.emitter.findings
  · exact run_sublist hk hk rfl fun i => finds_exempting h

end

def twoEvaluations : Source where
  bytes := "Function(clean(x));Function(y)".toUTF8.data
  tree := ⟨#[
    { kind := .program, start := 0, stop := 30 },
    { kind := .callExpression, start := 0, stop := 18, parent := some 0 },
    { kind := .identifier, start := 0, stop := 8, parent := some 1, field := some .callee },
    { kind := .arguments, start := 8, stop := 18, parent := some 1, field := some .arguments },
    { kind := .callExpression, start := 9, stop := 17, parent := some 3 },
    { kind := .identifier, start := 9, stop := 14, parent := some 4, field := some .callee },
    { kind := .arguments, start := 14, stop := 17, parent := some 4, field := some .arguments },
    { kind := .identifier, start := 15, stop := 16, parent := some 6 },
    { kind := .callExpression, start := 19, stop := 30, parent := some 0 },
    { kind := .identifier, start := 19, stop := 27, parent := some 8, field := some .callee },
    { kind := .arguments, start := 27, stop := 30, parent := some 8, field := some .arguments },
    { kind := .identifier, start := 28, stop := 29, parent := some 10 }]⟩

/-- Of two findings, the one goes whose value passes through a library that is trusted now. -/
theorem twoEvaluations_exempted :
    let narrow : Exemptions := { lookback := 1 }
    let wide : Exemptions := { trusted := ["clean"], lookback := 2 }
    let c := Check.ofKind .code
    let path : Path := { parts := ["a.js"] }
    narrow.Within wide ∧
      ∃ m n, run (c.exempting narrow) twoEvaluations path c.fresh = .ok m ∧
        run (c.exempting wide) twoEvaluations path c.fresh = .ok n ∧
        n.emitter.findings.Sublist m.emitter.findings ∧
        m.emitter.findings.map (·.start.column) = [1, 20] ∧
        n.emitter.findings.map (·.start.column) = [20] := by
  intro narrow wide c path
  have hw : narrow.Within wide := ⟨by simp [narrow], by decide⟩
  have hcolumns : (run (c.exempting narrow) twoEvaluations path c.fresh).toOption.map
      (fun m => m.emitter.findings.map (·.start.column)) = some [1, 20] := by decide +kernel
  have hcolumns' : (run (c.exempting wide) twoEvaluations path c.fresh).toOption.map
      (fun m => m.emitter.findings.map (·.start.column)) = some [20] := by decide +kernel
  rcases run_exempting_sublist c hw twoEvaluations path c.fresh with
    ⟨m, n, hm, hn, hs⟩ | ⟨hu, -, -⟩
  · rw [hm] at hcolumns
    rw [hn] at hcolumns'
    exact ⟨hw, m, n, hm, hn, hs, Option.some.inj hcolumns, Option.some.inj hcolumns'⟩
  · exact absurd hu (by decide +kernel)

end Check

end SinkAudit
