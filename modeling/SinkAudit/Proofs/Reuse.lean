import SinkAudit.Proofs.Visit
import SinkAudit.Scan

/-! # Checks that are used again

A checker goes from file to file with the memory that the files before have left. Of all that it
remembers only its own identifier reaches the findings about the next file, so it finds what a
fresh checker would. -/
namespace SinkAudit.Checker

/-- A checker whose findings carry its own identifier. -/
def Owned (k : Checker) : Prop := k.memory.emitter.check = k.check.kind.id

theorem owned_ofCheck (c : Check) : (ofCheck c).Owned := rfl

def alone (c : Check) (input : Source × Path) : Except Fault (List Finding) :=
  ((ofCheck c).run input.1 input.2).map findings

/-- A checker with a memory of its own finds what a fresh one finds, and its memory stays its own. -/
theorem run_like_alone {k : Checker} (h : k.Owned) (s : Source) (path : Path) :
    Alike (fun k' fs => k'.Owned ∧ k'.check = k.check ∧ k'.findings = fs) (k.run s path)
      (alone k.check (s, path)) := by
  have hends := Check.run_ends k.check s path k.memory
  have halike := Check.run_alike k.check s path (m := k.memory) (n := k.check.fresh) h
  unfold alone ofCheck run
  dsimp only
  revert hends halike
  generalize k.check.run s path k.memory = x
  generalize k.check.run s path k.check.fresh = y
  intro hends halike
  cases halike with
  | error f => exact .error f
  | ok hmn =>
    cases hends with
    | ok hm => exact .ok ⟨hm.1.trans h, rfl, congrArg Emitter.findings hmn.1⟩

theorem map_findings_run {k : Checker} (h : k.Owned) (s : Source) (path : Path) :
    (k.run s path).map findings = alone k.check (s, path) :=
  ((run_like_alone h s path).map_left fun _ _ hk => hk.2.2).eq

theorem owned_of_run {k k' : Checker} (h : k.Owned) {s : Source} {path : Path}
    (hr : k.run s path = .ok k') : k'.Owned ∧ k'.check = k.check := by
  have halike := run_like_alone h s path
  rw [hr] at halike
  generalize alone k.check (s, path) = y at halike
  cases halike with
  | ok hk => exact ⟨hk.1, hk.2.1⟩

/-- What a checker answers to files that are given to it in turn. After a failure its memory may be
anything that is its own. -/
inductive Session : Checker → List (Source × Path) → List (Except Fault (List Finding)) → Prop
  | done (k : Checker) : Session k [] []
  | returns {k k' : Checker} {s : Source} {path : Path} {inputs outs} (h : k.run s path = .ok k')
      (rest : Session k' inputs outs) :
      Session k ((s, path) :: inputs) (.ok k'.findings :: outs)
  | fails {k k' : Checker} {s : Source} {path : Path} {f : Fault} {inputs outs}
      (h : k.run s path = .error f) (hc : k'.check = k.check) (ho : k'.Owned)
      (rest : Session k' inputs outs) : Session k ((s, path) :: inputs) (.error f :: outs)

theorem Session.eq_alone {k : Checker} {inputs : List (Source × Path)}
    {outs : List (Except Fault (List Finding))} (h : Session k inputs outs) (ho : k.Owned) :
    outs = inputs.map (alone k.check) := by
  induction h with
  | done k => rfl
  | @returns k k' s path inputs outs hr _ ih =>
    obtain ⟨ho', hc⟩ := owned_of_run ho hr
    have hout := map_findings_run ho s path
    rw [hr] at hout
    rw [List.map_cons, ← hout, ih ho', hc]
    rfl
  | @fails k k' s path f inputs outs hr hc ho' _ ih =>
    have hout := map_findings_run ho s path
    rw [hr] at hout
    rw [List.map_cons, ← hout, ih ho', hc]
    rfl

theorem session_alone {k : Checker} (ho : k.Owned) (inputs : List (Source × Path)) :
    Session k inputs (inputs.map (alone k.check)) := by
  induction inputs generalizing k with
  | nil => exact .done k
  | cons input inputs ih =>
    obtain ⟨s, path⟩ := input
    rw [List.map_cons, ← map_findings_run ho s path]
    cases hr : k.run s path with
    | ok k' =>
      obtain ⟨ho', hc⟩ := owned_of_run ho hr
      exact .returns hr (hc ▸ ih ho')
    | error f => exact .fails hr rfl ho (ih ho)

/-- No file changes what is found in a later one: a checker that is given files in turn answers to
each what a fresh checker answers to it alone, and every sequence of files can be given. -/
theorem session_iff_alone (c : Check) (inputs : List (Source × Path))
    (outs : List (Except Fault (List Finding))) :
    Session (ofCheck c) inputs outs ↔ outs = inputs.map (alone c) :=
  ⟨fun h => h.eq_alone (owned_ofCheck c), fun h => h ▸ session_alone (owned_ofCheck c) inputs⟩

end SinkAudit.Checker
