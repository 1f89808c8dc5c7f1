import SinkAudit.Proofs.Visit

/-! # Runs complete

A check may be given any tree: with children missing, with nodes of any kind in any place, with
nodes that hold no text. If every assignment has something that it assigns to, no check fails on it
(`run_completes`): what a check asks for at a node is about a known sink and about nodes that are
there, and whatever the verdict, there is something to say and to suggest. -/
namespace SinkAudit.Check

variable {c : Check} {s : Source} {m : Memory} {i : Nat}

/-- Every assignment has something that it assigns to. -/
def Targeted (t : Tree) : Prop :=
  ∀ i < t.size, (t.kind i).isAssignment = true → (t.child? i .left).isSome = true

instance (t : Tree) : Decidable (Targeted t) :=
  inferInstanceAs (Decidable (∀ i < t.size, (t.kind i).isAssignment = true →
    (t.child? i .left).isSome = true))

theorem Targeted.not_untargeted {t : Tree} (h : Targeted t) : ¬ Untargeted t := by
  intro hu
  obtain ⟨i, hi, hassign, hleft⟩ := (untargeted_iff t).mpr hu
  have hsome := h i (List.mem_range.mp hi) hassign
  rw [hleft] at hsome
  cases hsome

theorem Targeted.exists_ok {α : Type} {P : α → Prop} {t : Tree} {x : Except Fault α}
    (ht : Targeted t) (h : Ends (Fails t) P x) : ∃ a, x = .ok a ∧ P a := by
  cases h with
  | ok h => exact ⟨_, rfl, h⟩
  | error h => exact absurd h.2 ht.not_untargeted

/-- All that the answer to a request looks up is there. -/
inductive Grounded (c : Check) (s : Source) (i : Nat) (m : Memory) : Request → Prop
  | report (p : SinkPattern) (risk : Risk) (message : String) :
      Grounded c s i m (.report (some p) risk message)
  | evaluate (q : Inquiry) (p : SinkPattern) (sink : q.sink = some p)
      (present : ∀ a ∈ q.arguments, a < s.tree.size)
      (described : ∀ v, ∃ text, describe c m p v = .ok text)
      (suggested : ∃ fixes, suggest c s m p i = .ok fixes) : Grounded c s i m (.evaluate q)

theorem Answerable.grounded {r : Request} (h : Answerable c s i m.category r) :
    Grounded c s i m r := by
  cases r with
  | report sink risk message =>
    obtain ⟨⟨p, rfl, _⟩, _⟩ := h
    exact .report p risk message
  | evaluate q =>
    obtain ⟨p, hp⟩ := h
    exact .evaluate q p hp.sink hp.present (fun v => describe_ok hp.wordable v)
      (suggest_ok hp.wordable)

/-- At every node, with whatever memory, a check knows what to do, and what it asks for is done. -/
theorem visit_completes (ht : Targeted s.tree) (c : Check) (m : Memory) (i : Nat) :
    ∃ m' r, handle c s m i = .ok (m', r) ∧ (∀ q ∈ r, Grounded c s i m' q) ∧
      ∃ m'', answer c s m' i r = .ok m'' := by
  obtain ⟨⟨m', r⟩, hhandle, hr⟩ := ht.exists_ok (handle_ends c s m i)
  obtain ⟨m'', hanswer, _⟩ := answer_ok hr.answerable
  exact ⟨m', r, hhandle, fun q hq => (hr.answerable q hq).grounded, m'', hanswer⟩

/-- Every check, with any options, completes on every tree whose assignments have targets; wherever
it comes to a node, it looks at nothing that is missing. -/
theorem run_completes (ht : Targeted s.tree) (c : Check) (path : Path) (m : Memory) :
    (∃ m', run c s path m = .ok m') ∧
      ∀ (m : Memory) (i : Nat), ∃ m' r, handle c s m i = .ok (m', r) ∧
        (∀ q ∈ r, Grounded c s i m' q) ∧ ∃ m'', answer c s m' i r = .ok m'' := by
  obtain ⟨m', hrun, _⟩ := ht.exists_ok (run_ends c s path m)
  exact ⟨⟨m', hrun⟩, visit_completes ht c⟩

/-- What is left of a file after errors: an access without an object, assignments of nothing, calls
of nothing, an attribute without a name and a regular expression without a pattern. -/
def brokenFile : Source where
  bytes := "innerHTML document.cookie Function(x".toUTF8.data ++ #[0xFF]
  tree := ⟨#[
    { kind := .other "ERROR", start := 0, stop := 37 },
    { kind := .assignment, start := 0, stop := 9, parent := some 0 },
    { kind := .memberExpression, start := 0, stop := 9, parent := some 1, field := some .left },
    { kind := .propertyIdentifier, start := 0, stop := 9, parent := some 2
      field := some .property },
    { kind := .augmentedAssignment, start := 10, stop := 25, parent := some 0 },
    { kind := .memberExpression, start := 10, stop := 25, parent := some 4, field := some .left },
    { kind := .identifier, start := 10, stop := 18, parent := some 5, field := some .object },
    { kind := .propertyIdentifier, start := 19, stop := 25, parent := some 5
      field := some .property },
    { kind := .jsxAttribute, start := 25, stop := 25, parent := some 0 },
    { kind := .regex, start := 25, stop := 25, parent := some 0 },
    { kind := .callExpression, start := 26, stop := 37, parent := some 0 },
    { kind := .identifier, start := 26, stop := 34, parent := some 10, field := some .callee },
    { kind := .arguments, start := 34, stop := 37, parent := some 10, field := some .arguments },
    { kind := .identifier, start := 35, stop := 36, parent := some 12 },
    { kind := .callExpression, start := 37, stop := 37, parent := some 0 },
    { kind := .newExpression, start := 37, stop := 37, parent := some 0 }]⟩

/-- All checks complete on the broken file, and some of them have something to say about it. -/
theorem brokenFile_completes :
    let path : Path := { parts := ["a.js"] }
    let cookie : Check := { kind := .cookie, options := { allowReading := .bool false } }
    Targeted brokenFile.tree ∧
      (∀ kind ∈ CheckKind.all, ∃ m, run { kind } brokenFile path (fresh { kind }) = .ok m) ∧
      ∃ m, run cookie brokenFile path cookie.fresh = .ok m ∧
        m.emitter.findings.map (·.snippet) = ["document.cookie"] := by
  intro path cookie
  have ht : Targeted brokenFile.tree := by decide +kernel
  have hsnippets : (run cookie brokenFile path cookie.fresh).toOption.map
      (fun m => m.emitter.findings.map (·.snippet)) = some ["document.cookie"] := by decide +kernel
  refine ⟨ht, fun kind _ => (run_completes ht { kind } path _).1, ?_⟩
  obtain ⟨m, hrun⟩ := (run_completes ht cookie path cookie.fresh).1
  rw [hrun] at hsnippets
  exact ⟨m, hrun, Option.some.inj hsnippets⟩

end SinkAudit.Check
