import SinkAudit.Proofs.Completion
import SinkAudit.Proofs.Finds
import SinkAudit.Proofs.Sanitizer
import SinkAudit.Proofs.Target

/-! # Cookies written and read by scripts

Scripts write the cookies of a page by an assignment and read them by any other access. An
assignment is known by its target without what is wrapped around it, but an access counts as written
only if it is itself the left side of an assignment. So a target that is wrapped is found twice, as
written and as read, and only such a target is (`run_reads_wrapped_targets`). -/
namespace SinkAudit

/-- What unwrapping leads to, if it leads anywhere, stands in a wrapper. -/
theorem Tree.exists_wrapper {t : Tree} {i : Nat} (h : i ≠ t.unwrap i) :
    ∃ w, t.parent? (t.unwrap i) = some w ∧ (t.kind w).isWrapper = true := by
  fun_induction unwrap t i with
  | case1 i hw j hj ih =>
    by_cases hji : j = t.unwrap j
    · rw [← hji]
      exact ⟨i, parent?_of_wrapped? hj, hw⟩
    · exact ih hji
  | case2 => exact absurd rfl h
  | case3 => exact absurd rfl h

namespace Check.Cookie

def readMessage : String := "document.cookie is read from script; keep sensitive cookies httpOnly"

/-- An assignment, with its left side, writes the cookies of a page by an access. -/
structure Writes (s : Source) (i left access : Nat) : Prop where
  assignment : (s.tree.kind i).isAssignment = true
  side : s.tree.child? i .left = some left
  inner : s.tree.unwrap left = access
  member : s.tree.kind access = .memberExpression
  named : s.name? access = some scriptCookie

section
variable {c : Check} {s : Source} {m : Memory} {i left access : Nat}

theorem Writes.assignee? (h : Writes s i left access) : s.tree.assignee? i = some access := by
  rw [Tree.assignee?, h.side, Option.map_some, h.inner]

/-- The assignment is taken for a write unless what it assigns is to be ignored. -/
theorem Writes.asks_iff (h : Writes s i left access) (hk : c.kind = .cookie) :
    Asks c s m i ↔ c.ignores [some (s.textOf (s.tree.child? i .right))] = false := by
  rw [Check.asks_iff (.inr hk) h.assignment, h.assignee?]
  simp [Source.nameOf?, h.named, hk, watchedTargets, assignmentTexts]

theorem Writes.isAssigned_eq (h : Writes s i left access) :
    isAssigned s access = .ok (left == access) := by
  unfold isAssigned
  by_cases hl : left = access
  · subst hl
    have hparent : s.tree.parent? left = some i :=
      (Tree.mem_children.mp (Tree.mem_children_of_child? h.side)).2
    simp [hparent, Option.filter, h.assignment, h.side]
  · obtain ⟨w, hparent, hw⟩ := Tree.exists_wrapper (h.inner.symm ▸ hl)
    have hnot : (s.tree.kind w).isAssignment = false := by
      cases hkind : s.tree.kind w <;> simp_all [Kind.isWrapper, Kind.isAssignment]
    rw [h.inner] at hparent
    simp [hparent, Option.filter, hnot, hl]

theorem Writes.finds_eq (h : Writes s i left access) (hk : c.kind = .cookie)
    (hr : c.options.allowReading.truthy = false) :
    ∃ p, finds c s m access =
      .ok (if left ≠ access ∧ c.ignores [some (s.textOf (s.tree.parent? access))] = false then
        some (m.emitter.finding s access p .medium readMessage {}) else none) := by
  obtain ⟨p, hp⟩ := Option.isSome_iff_exists.mp (scriptCookie_known hk)
  refine ⟨p, ?_⟩
  have hhandle : handle c s m access = handleMember c s m access := by
    simp [handle, hk, h.member, Kind.isCall, Kind.isAssignment]
  rw [finds, hhandle, handleMember, h.isAssigned_eq, h.named, hr, hp]
  by_cases hl : left = access
  · simp [hl, bind, Except.bind, Memory.silent, reply]
  · cases hc : c.ignores [some (s.textOf (s.tree.parent? access))] with
    | true => simp [bind, Except.bind, Memory.silent, reply]
    | false => simp [hl, bind, Except.bind, pure, Except.pure, reply, readMessage]

/-- What is found at an access by which an assignment writes cookies: that they are read, if the
access is wrapped and what is around it is not to be ignored, and nothing else. -/
structure ReadIfWrapped (c : Check) (s : Source) (e : Emitter) (access : Nat) (f : Option Finding) :
    Prop where
  located : ∀ g ∈ f, About s e access g
  wrapped : ∀ i left, Writes s i left access →
    (f.isSome = true ↔
      left ≠ access ∧ c.ignores [some (s.textOf (s.tree.parent? access))] = false)
  read : ∀ i left, Writes s i left access → ∀ g ∈ f, g.message = readMessage

theorem ends_readIfWrapped (hk : c.kind = .cookie) (hr : c.options.allowReading.truthy = false) :
    Ends (Fails s.tree) (ReadIfWrapped c s m.emitter access) (finds c s m access) := by
  refine (finds_ends c s m access).imp fun f hf => ⟨hf.2, ?_, ?_⟩
  · intro i left h
    obtain ⟨p, hp⟩ := h.finds_eq (m := m) hk hr
    rw [Except.ok.inj (hf.1.symm.trans hp)]
    split
    · rename_i hw
      simpa using hw
    · rename_i hw
      simpa using hw
  · intro i left h g hg
    obtain ⟨p, hp⟩ := h.finds_eq (m := m) hk hr
    rw [Except.ok.inj (hf.1.symm.trans hp)] at hg
    split at hg
    · cases hg
      rfl
    · cases hg

end

/-- Where reading cookies is to be found, an assignment to `document.cookie` is taken for a write
unless what it assigns is to be ignored, and at its target it is found that cookies are read exactly
if the target is wrapped and the innermost wrapper is not to be ignored. In a file that is skipped
nothing is found. -/
theorem run_reads_wrapped_targets (c : Check) (hk : c.kind = .cookie)
    (hr : c.options.allowReading.truthy = false) (s : Source) (path : Path) (m : Memory) :
    (∀ i left access n, Writes s i left access →
      (Asks c s n i ↔ c.ignores [some (s.textOf (s.tree.child? i .right))] = false)) ∧
    (c.skips path = true → ∃ m', run c s path m = .ok m' ∧ m'.emitter.findings = []) ∧
    (c.skips path = false →
      Ends (Fails s.tree) (fun m' => ∃ fs, m'.emitter.findings = fs.reduceOption ∧
        List.Forall₂ (ReadIfWrapped c s (m.emitter.reset path)) s.tree.all fs)
        (run c s path m)) := by
  refine ⟨fun i left access n h => h.asks_iff hk, fun hs => run_of_skips hs s m, fun hs => ?_⟩
  refine run_each (by simp [hk]) hs fun access _ => ?_
  rw [← begun_emitter c s path m]
  exact ends_readIfWrapped hk hr

def twoWrites : Source where
  bytes := "document.cookie='a';(document.cookie)='b'".toUTF8.data
  tree := ⟨#[
    { kind := .program, start := 0, stop := 41 },
    { kind := .assignment, start := 0, stop := 19, parent := some 0 },
    { kind := .memberExpression, start := 0, stop := 15, parent := some 1, field := some .left },
    { kind := .identifier, start := 0, stop := 8, parent := some 2, field := some .object },
    { kind := .propertyIdentifier, start := 9, stop := 15, parent := some 2
      field := some .property },
    { kind := .stringLiteral, start := 16, stop := 19, parent := some 1, field := some .right },
    { kind := .assignment, start := 20, stop := 41, parent := some 0 },
    { kind := .parenthesized, start := 20, stop := 37, parent := some 6, field := some .left },
    { kind := .memberExpression, start := 21, stop := 36, parent := some 7 },
    { kind := .identifier, start := 21, stop := 29, parent := some 8, field := some .object },
    { kind := .propertyIdentifier, start := 30, stop := 36, parent := some 8
      field := some .property },
    { kind := .stringLiteral, start := 38, stop := 41, parent := some 6, field := some .right }]⟩

/-- The first assignment is a write, and nothing is found at its target. -/
theorem twoWrites_first_not_read :
    let c : Check := { kind := .cookie, options := { allowReading := .bool false } }
    let path : Path := { parts := ["a.js"] }
    Writes twoWrites 1 2 2 ∧ Asks c twoWrites c.fresh 1 ∧
      ∃ m, run c twoWrites path c.fresh = .ok m ∧
        ∃ fs : List (Option Finding), m.emitter.findings = fs.reduceOption ∧
          (2, none) ∈ twoWrites.tree.all.zip fs := by
  intro c path
  have hwrites : Writes twoWrites 1 2 2 :=
    ⟨rfl, by decide +kernel, by decide +kernel, rfl, by decide +kernel⟩
  have h := run_reads_wrapped_targets c rfl rfl twoWrites path c.fresh
  obtain ⟨m, hrun, fs, hfindings, hfs⟩ :=
    Targeted.exists_ok (by decide +kernel) (h.2.2 (by decide))
  obtain ⟨f, hzip, hf⟩ := exists_zip_of_each (i := 2) hfs (by decide +kernel)
  have hnone : f = none := by
    rw [← Option.not_isSome_iff_eq_none, hf.wrapped _ _ hwrites]
    simp
  exact ⟨hwrites, (h.1 _ _ _ _ hwrites).mpr (by decide +kernel), m, hrun, fs, hfindings,
    hnone ▸ hzip⟩

/-- The second, of which the target is in parentheses, is a write as well, and after it a read is
found where the target begins. -/
theorem twoWrites_second_read :
    let c : Check := { kind := .cookie, options := { allowReading := .bool false } }
    let path : Path := { parts := ["a.js"] }
    Writes twoWrites 6 7 8 ∧ Asks c twoWrites c.fresh 6 ∧
      (run c twoWrites path c.fresh).map (fun m =>
        m.emitter.findings.map fun f => (f.start, f.message)) =
          .ok [(twoWrites.startOf 1, describe .static), (twoWrites.startOf 6, describe .static),
            (twoWrites.startOf 8, readMessage)] := by
  intro c path
  have hwrites : Writes twoWrites 6 7 8 :=
    ⟨rfl, by decide +kernel, by decide +kernel, rfl, by decide +kernel⟩
  exact ⟨hwrites, (hwrites.asks_iff rfl).mpr (by decide +kernel), by decide +kernel⟩

end Check.Cookie

end SinkAudit
