import Mathlib.Data.List.ReduceOption
import SinkAudit.Proofs.Visit

/-! # Findings, node by node

Of all checks only the one for headers looks back at the nodes that it has met. What any other
check finds at a node follows from the node and from what was learnt when the file was begun, so
its findings about a file are those about the nodes, one after the other (`run_finds`). Two such
runs can therefore be compared node by node (`run_sublist`). Of headers too, whatever a run finds it
finds at a node (`run_found`), as the answer to a request (`FoundAt.exists_request`). -/
namespace SinkAudit.Check

section
variable {c c' : Check} {s : Source} {m n : Memory} {i : Nat} {path : Path}

def reply (c : Check) (s : Source) (m : Memory) (i : Nat) :
    Option Request → Except Fault (Option Finding)
  | none => .ok none
  | some (.evaluate q) => (evaluate c s m i q).map (·.2)
  | some (.report none _ _) => .error .unknownSink
  | some (.report (some p) risk message) => .ok (some (m.emitter.finding s i p risk message {}))

/-- What a check finds at a node. -/
def finds (c : Check) (s : Source) (m : Memory) (i : Nat) : Except Fault (Option Finding) :=
  handle c s m i >>= fun x => reply c s x.1 i x.2

/-- A memory with one more finding, or with none. -/
structure Holds (m : Memory) (f : Option Finding) (m' : Memory) : Prop where
  findings : m'.emitter.findings = m.emitter.findings ++ f.toList
  check : m'.emitter.check = m.emitter.check
  path : m'.emitter.path = m.emitter.path
  aliases : m'.aliases = m.aliases
  bound : m'.boundFunctions = m.boundFunctions

theorem answer_holds (c : Check) (s : Source) (m : Memory) (i : Nat) (r : Option Request) :
    Alike (fun m' f => Holds m f m') (answer c s m i r) (reply c s m i r) := by
  match r with
  | none => exact .ok ⟨by simp, rfl, rfl, rfl, rfl⟩
  | some (.report none risk message) => exact .error _
  | some (.report (some p) risk message) => exact .ok ⟨rfl, rfl, rfl, rfl, rfl⟩
  | some (.evaluate q) =>
    unfold answer reply evaluate
    dsimp only
    split
    · exact .ok ⟨by simp, rfl, rfl, rfl, rfl⟩
    · rename_i v _
      let m₁ := { m with log := m.log ++ (exposures c s i q.arguments).flatMap (exposureLog s i) }
      cases findingFor c s m₁ i q v with
      | error f => exact .error f
      | ok f => exact .ok ⟨rfl, rfl, rfl, rfl, rfl⟩

theorem visit_holds (c : Check) (s : Source) (m : Memory) (i : Nat) :
    Alike (fun m' f => Holds m f m') (visit c s m i) (finds c s m i) := by
  have hh := handle_ends c s m i
  rw [visit_eq, finds]
  generalize handle c s m i = x at hh
  cases hh with
  | error _ => exact .error _
  | ok h =>
    refine (answer_holds c s _ i _).imp fun m' f hf => ?_
    exact ⟨hf.findings.trans (by rw [h.findings]), hf.check.trans h.check, hf.path.trans h.path,
      hf.aliases.trans h.aliases, hf.bound.trans h.bound⟩

theorem finds_of_error {f : Fault} (h : handle c s m i = .error f) :
    finds c s m i = .error f := by
  rw [finds, h]
  rfl

theorem finds_of_ok {x : Memory × Option Request} (h : handle c s m i = .ok x) :
    finds c s m i = reply c s x.1 i x.2 := by
  rw [finds, h]
  rfl

/-- A finding is about a node: it says where the node is and what stands there. -/
def About (s : Source) (e : Emitter) (i : Nat) (f : Finding) : Prop :=
  ∃ p risk message advice, f = e.finding s i p risk message advice

/-- What a check asks for at a node is answered, by nothing or by a finding about the node. -/
theorem reply_ok {x : Memory × Option Request} (h : handle c s m i = .ok x) :
    ∃ f, reply c s x.1 i x.2 = .ok f ∧ ∀ g ∈ f, About s m.emitter i g := by
  have hh := handle_ends c s m i
  rw [h] at hh
  cases hh with
  | ok hx =>
    obtain ⟨m', ha, hg⟩ := answer_ok hx.answerable
    have hr := answer_holds c s x.1 i x.2
    rw [ha] at hr
    generalize reply c s x.1 i x.2 = y at hr
    cases hr with
    | @ok _ f hf =>
      refine ⟨f, rfl, ?_⟩
      intro g hgf
      rcases hg.findings with he | ⟨p, risk, message, advice, he⟩
      · have hlist := hf.findings.symm.trans he
        simp [Option.mem_def.mp hgf] at hlist
      · have hlist := hf.findings.symm.trans he
        rw [List.append_cancel_left_eq, Option.mem_def.mp hgf] at hlist
        refine ⟨p, risk, message, advice, ?_⟩
        rw [← finding_congr hx.check hx.path]
        exact (List.cons.inj hlist).1

/-- Nothing fails at a node but for want of a target. -/
theorem finds_ends (c : Check) (s : Source) (m : Memory) (i : Nat) :
    Ends (Fails s.tree) (fun f => finds c s m i = .ok f ∧ ∀ g ∈ f, About s m.emitter i g)
      (finds c s m i) := by
  cases hh : handle c s m i with
  | error f =>
    have hends := handle_ends c s m i
    rw [hh] at hends
    cases hends with
    | error hf =>
      rw [finds_of_error hh]
      exact .error hf
  | ok x =>
    obtain ⟨f, hf, habout⟩ := reply_ok hh
    rw [finds_of_ok hh, hf]
    exact .ok ⟨rfl, habout⟩

def verdictOn? (c : Check) (s : Source) (i : Nat) (q : Inquiry) : Option Verdict :=
  decisive? ((exposures c s i q.arguments).map (·.verdict)) (q.reportStatic || q.structural)

theorem reply_of_none {q : Inquiry} (h : verdictOn? c s i q = none) :
    reply c s m i (some (.evaluate q)) = .ok none := by
  unfold verdictOn? at h
  simp only [reply, evaluate, h, Except.map]

theorem reply_of_some {q : Inquiry} {v : Verdict} (h : verdictOn? c s i q = some v) :
    reply c s m i (some (.evaluate q)) = (findingFor c s m i q v).map some := by
  -- the log that evaluation keeps is not part of what a finding says
  let m₁ := { m with log := m.log ++ (exposures c s i q.arguments).flatMap (exposureLog s i) }
  have hlog : findingFor c s m₁ i q v = findingFor c s m i q v :=
    findingFor_congr ⟨rfl, rfl, fun _ => rfl, fun _ => rfl⟩
  unfold verdictOn? at h
  simp only [reply, evaluate, h]
  rw [hlog]
  cases findingFor c s m i q v with
  | error f => rfl
  | ok f => rfl

theorem reply_congr {r : Option Request} (h : Words c.kind m n) :
    reply c s m i r = reply c s n i r := by
  match r with
  | none => rfl
  | some (.report none risk message) => rfl
  | some (.report (some p) risk message) =>
    simp only [reply, finding_congr h.check h.path]
  | some (.evaluate q) =>
    cases hv : verdictOn? c s i q with
    | none => rw [reply_of_none hv, reply_of_none hv]
    | some v => rw [reply_of_some hv, reply_of_some hv, findingFor_congr h]

/-- What is found at a node does not depend on what was found before, except of headers. -/
theorem finds_congr (hk : c.kind ≠ .header) (ha : c.kind = .command → m.aliases = n.aliases)
    (hb : c.kind = .command → m.boundFunctions = n.boundFunctions)
    (hc : m.emitter.check = n.emitter.check) (hp : m.emitter.path = n.emitter.path) :
    finds c s m i = finds c s n i := by
  have hn : Noted c s i m n (handle c s m i) (handle c s n i) :=
    handle_noted ⟨ha, hb, fun h => absurd h hk, fun h => absurd h hk⟩
  unfold finds
  generalize handle c s m i = x at hn
  generalize handle c s n i = y at hn
  cases hn with
  | fault _ => rfl
  | silent => rfl
  | asks r _ hcode hregex =>
    exact reply_congr ⟨hc, hp, fun h => absurd h hcode, fun h => absurd h hregex⟩
  | category k r _ hcode => exact reply_congr ⟨hc, hp, fun _ => rfl, by simp [hcode]⟩
  | shape k r _ hregex => exact reply_congr ⟨hc, hp, by simp [hregex], fun _ => rfl⟩
  | claims _ _ _ hh => exact absurd hh hk

/-- What a check has learnt when it comes to the first node of a file. -/
def begun (c : Check) (s : Source) (path : Path) (m : Memory) : Memory :=
  prepare c s (start m path)

theorem begun_emitter (c : Check) (s : Source) (path : Path) (m : Memory) :
    (begun c s path m).emitter = m.emitter.reset path := by
  rw [begun, prepare_emitter]
  rfl

theorem foldlM_visit_finds (hk : c.kind ≠ .header) (nodes : List Nat)
    (ha : m.aliases = n.aliases) (hb : m.boundFunctions = n.boundFunctions)
    (hc : m.emitter.check = n.emitter.check) (hp : m.emitter.path = n.emitter.path) :
    Alike (fun m' fs => m'.emitter.findings = m.emitter.findings ++ fs.reduceOption)
      (nodes.foldlM (visit c s) m) (nodes.mapM (finds c s n)) := by
  induction nodes generalizing m with
  | nil => exact .ok (by simp)
  | cons i nodes ih =>
    have hfinds : finds c s m i = finds c s n i :=
      finds_congr hk (fun _ => ha) (fun _ => hb) hc hp
    rw [List.foldlM_cons, List.mapM_cons, ← hfinds]
    refine (visit_holds c s m i).bind fun m' f hm => ?_
    have hrest := ih (hm.aliases.trans ha) (hm.bound.trans hb) (hm.check.trans hc)
      (hm.path.trans hp)
    generalize nodes.foldlM (visit c s) m' = x at hrest
    generalize nodes.mapM (finds c s n) = y at hrest
    cases hrest with
    | error e => exact .error e
    | @ok m'' fs h =>
      refine .ok ?_
      rw [h, hm.findings, List.append_assoc]
      cases f with
      | none => rfl
      | some f => rfl

/-- A run finds what is found at each node. -/
theorem run_finds (hk : c.kind ≠ .header) (hs : c.skips path = false) (s : Source) (m : Memory) :
    Alike (fun m' fs => m'.emitter.findings = fs.reduceOption) (run c s path m)
      (s.tree.all.mapM (finds c s (begun c s path m))) := by
  have hloop := foldlM_visit_finds (s := s) (m := begun c s path m) hk s.tree.all rfl rfl rfl rfl
  have hempty : (begun c s path m).emitter.findings = [] := by
    rw [begun_emitter]
    rfl
  simp only [run, hs]
  refine hloop.imp fun m' fs h => ?_
  rw [h, hempty, List.nil_append]

/-- What is so of every node by itself is so of what a run finds at the nodes. -/
theorem run_each {E : Fault → Prop} {R : Nat → Option Finding → Prop} (hk : c.kind ≠ .header)
    (hs : c.skips path = false)
    (h : ∀ i ∈ s.tree.all, Ends E (R i) (finds c s (begun c s path m) i)) :
    Ends E (fun m' => ∃ fs, m'.emitter.findings = fs.reduceOption ∧ List.Forall₂ R s.tree.all fs)
      (run c s path m) := by
  have hall := Ends.mapM h
  have hrun := run_finds hk hs s m
  generalize s.tree.all.mapM (finds c s (begun c s path m)) = x at hall hrun
  generalize run c s path m = y at hrun
  cases hrun with
  | error f =>
    cases hall with
    | error hf => exact .error hf
  | @ok m' fs hfs =>
    cases hall with
    | ok hall => exact .ok ⟨fs, hfs, hall⟩

theorem exists_zip_of_each {R : Nat → Option Finding → Prop} {nodes : List Nat}
    {fs : List (Option Finding)} (h : List.Forall₂ R nodes fs) (hi : i ∈ nodes) :
    ∃ f, (i, f) ∈ nodes.zip fs ∧ R i f := by
  induction h with
  | nil => cases hi
  | @cons j f nodes fs hf _ ih =>
    rcases List.mem_cons.mp hi with rfl | hi
    · exact ⟨f, by simp, hf⟩
    · obtain ⟨g, hg, hR⟩ := ih hi
      exact ⟨g, List.mem_cons_of_mem _ hg, hR⟩

/-- Where something is found at a node, it is among the findings. -/
theorem exists_mem_of_each {R : Nat → Option Finding → Prop} {nodes : List Nat}
    {fs : List (Option Finding)} (h : List.Forall₂ R nodes fs) (hi : i ∈ nodes)
    (hsome : ∀ f, R i f → f.isSome = true) : ∃ f ∈ fs.reduceOption, R i (some f) := by
  obtain ⟨f, hf, hR⟩ := exists_of_forall₂ h.flip hi
  obtain ⟨g, rfl⟩ := Option.isSome_iff_exists.mp (hsome f hR)
  exact ⟨g, List.reduceOption_mem_iff.mpr hf, hR⟩

theorem run_of_skips (hs : c.skips path = true) (s : Source) (m : Memory) :
    ∃ m', run c s path m = .ok m' ∧ m'.emitter.findings = [] := by
  simp only [run, hs, if_true]
  exact ⟨_, rfl, rfl⟩

/-- The finding is one that a check makes at a node, with some memory of what it met before. -/
def FoundAt (c : Check) (s : Source) (e : Emitter) (i : Nat) (f : Finding) : Prop :=
  ∃ n : Memory, n.emitter.check = e.check ∧ n.emitter.path = e.path ∧ finds c s n i = .ok (some f)

/-- All that a memory holds was found at the nodes that are done. -/
structure Gathered (c : Check) (s : Source) (e : Emitter) (done : List Nat) (n : Memory) : Prop where
  check : n.emitter.check = e.check
  path : n.emitter.path = e.path
  found : ∀ f ∈ n.emitter.findings, ∃ i ∈ done, FoundAt c s e i f

theorem Gathered.visit {e : Emitter} {done : List Nat} (h : Gathered c s e done n) (i : Nat) :
    Ends (Fails s.tree) (Gathered c s e (done ++ [i])) (visit c s n i) := by
  have hends := visit_ends c s n i
  have hholds := visit_holds c s n i
  generalize Check.visit c s n i = x at hends hholds
  generalize hfinds : finds c s n i = y at hholds
  cases hholds with
  | error f =>
    cases hends with
    | error hf => exact .error hf
  | @ok n' f hn =>
    refine .ok ⟨hn.check.trans h.check, hn.path.trans h.path, ?_⟩
    intro g hg
    rw [hn.findings, List.mem_append, Option.mem_toList] at hg
    rcases hg with hg | hg
    · obtain ⟨j, hj, hf⟩ := h.found g hg
      exact ⟨j, by simp [hj], hf⟩
    · exact ⟨i, by simp, n, h.check, h.path, by rw [hfinds, Option.mem_def.mp hg]⟩

/-- Whatever a run finds, also of headers, it finds at one of the nodes. -/
theorem run_found (c : Check) (s : Source) (path : Path) (m : Memory) :
    Ends (Fails s.tree) (fun m' => ∀ f ∈ m'.emitter.findings,
      ∃ i ∈ s.tree.all, FoundAt c s (m.emitter.reset path) i f) (run c s path m) := by
  cases hs : c.skips path with
  | true =>
    obtain ⟨m', hrun, hf⟩ := run_of_skips hs s m
    rw [hrun]
    exact .ok (by simp [hf])
  | false =>
    have hstart : Gathered c s (m.emitter.reset path) [] (begun c s path m) := by
      refine ⟨?_, ?_, ?_⟩ <;> rw [begun_emitter]
      simp [Emitter.reset]
    simp only [run, hs]
    exact (Ends.foldlM (Gathered c s (m.emitter.reset path)) hstart
      fun done i n _ h => h.visit i).imp fun m' h => h.found

/-! ## What findings answer -/

/-- How a finding about a node answers what was asked for. -/
inductive Yields (c : Check) (s : Source) (e : Emitter) (i : Nat) : Request → Finding → Prop
  | report (p : SinkPattern) (risk : Risk) (message : String) :
      Yields c s e i (.report (some p) risk message) (e.finding s i p risk message {})
  | evaluate (q : Inquiry) (p : SinkPattern) (v : Verdict) (message : String) (fixes : List Fix)
      (hp : q.sink = some p) (hv : verdictOn? c s i q = some v) :
      Yields c s e i (.evaluate q)
        (e.finding s i p (.classify p v q.structural) message
          { suggestions := fixes, remediation := q.remediation, alternatives := q.alternatives
            effort := q.effort })

theorem findingFor_yields {q : Inquiry} {v : Verdict} {f : Finding}
    (hv : verdictOn? c s i q = some v) (h : findingFor c s m i q v = .ok f) :
    Yields c s m.emitter i (.evaluate q) f := by
  unfold findingFor at h
  split at h
  · cases h
  · rename_i p hp
    dsimp only at h
    -- the message is given or made up; the rest is the same
    split at h
    all_goals
      obtain ⟨message, _, h⟩ := bind_eq_ok_iff.mp h
      obtain ⟨fixes, _, h⟩ := bind_eq_ok_iff.mp h
      cases h
      exact .evaluate q p v message fixes hp hv

theorem reply_yields {r : Request} {f : Finding} (h : reply c s m i (some r) = .ok (some f)) :
    Yields c s m.emitter i r f := by
  match r with
  | .report none risk message => cases h
  | .report (some p) risk message =>
    cases h
    exact .report p risk message
  | .evaluate q =>
    cases hv : verdictOn? c s i q with
    | none =>
      rw [reply_of_none hv] at h
      cases h
    | some v =>
      rw [reply_of_some hv] at h
      cases hf : findingFor c s m i q v with
      | error e =>
        rw [hf] at h
        cases h
      | ok f' =>
        rw [hf] at h
        cases h
        exact findingFor_yields hv hf

theorem Yields.congr {e e' : Emitter} {r : Request} {f : Finding} (hc : e.check = e'.check)
    (hp : e.path = e'.path) (h : Yields c s e i r f) : Yields c s e' i r f := by
  cases h with
  | report p risk message =>
    rw [finding_congr hc hp]
    exact .report p risk message
  | evaluate q p v message fixes hq hv =>
    rw [finding_congr hc hp]
    exact .evaluate q p v message fixes hq hv

/-- Every finding answers something that was asked for at its node and that can be answered. -/
theorem FoundAt.exists_request {e : Emitter} {f : Finding} (h : FoundAt c s e i f) :
    ∃ m m' r, handle c s m i = .ok (m', some r) ∧ Answerable c s i m'.category r ∧
      Yields c s e i r f := by
  obtain ⟨m, hc, hp, hf⟩ := h
  obtain ⟨⟨m', r⟩, hr, hf⟩ := bind_eq_ok_iff.mp hf
  have hh := handle_ends c s m i
  rw [hr] at hh
  cases hh with
  | ok hh =>
    cases r with
    | none => cases hf
    | some r =>
      exact ⟨m, m', r, hr, hh.answerable r rfl,
        (reply_yields hf).congr (hh.check.trans hc) (hh.path.trans hp)⟩

theorem classify_ne_low (p : SinkPattern) (v : Verdict) (structural : Bool) :
    Risk.classify p v structural ≠ .low := by
  unfold Risk.classify
  split
  · simp
  · split <;> simp

/-- What every finding says: of which class the sink is, that the risk is not the lowest, and what
to do. -/
theorem FoundAt.sound {e : Emitter} {f : Finding} (h : FoundAt c s e i f) :
    ∃ p risk message advice, p.Classed ∧ risk ≠ .low ∧
      (∀ steps ∈ advice.remediation, ProperSteps steps) ∧
        f = e.finding s i p risk message advice := by
  obtain ⟨_, _, r, _, ha, hy⟩ := h.exists_request
  cases hy with
  | report p risk message =>
    obtain ⟨⟨p', hp, hclassed⟩, hrisk, _⟩ := ha
    cases hp
    exact ⟨p, risk, message, {}, hclassed, hrisk, by simp, rfl⟩
  | evaluate q p v message fixes hp _ =>
    obtain ⟨p', hq⟩ := ha
    cases hp.symm.trans hq.sink
    exact ⟨p, _, message, _, hq.classed, classify_ne_low p v q.structural, hq.proper, rfl⟩

/-! ## Two runs -/

def Drops (f f' : Option Finding) : Prop := f' = none ∨ f' = f

theorem reduceOption_sublist {fs fs' : List (Option Finding)} (h : List.Forall₂ Drops fs fs') :
    fs'.reduceOption.Sublist fs.reduceOption := by
  induction h with
  | nil => exact .slnil
  | @cons f f' fs fs' hf _ ih =>
    rcases hf with rfl | rfl
    · cases f with
      | none => exact ih
      | some f => exact ih.cons f
    · cases f' with
      | none => exact ih
      | some f => exact ih.cons_cons f

/-- Two runs return findings that are related, or both fail because an assignment has no target. -/
def Paired (t : Tree) (R : List Finding → List Finding → Prop) (x y : Except Fault Memory) : Prop :=
  (∃ m n, x = .ok m ∧ y = .ok n ∧ R m.emitter.findings n.emitter.findings) ∨
    (Untargeted t ∧ x = .error .noTarget ∧ y = .error .noTarget)

theorem paired_of_alike {R : List Finding → List Finding → Prop} {y : Except Fault Memory}
    (h : Alike (fun m n => R m.emitter.findings n.emitter.findings) (run c s path m) y) :
    Paired s.tree R (run c s path m) y := by
  have he := run_ends c s path m
  generalize run c s path m = x at h he
  cases h with
  | ok h => exact .inl ⟨_, _, rfl, rfl, h⟩
  | error f =>
    cases he with
    | error hf =>
      obtain ⟨rfl, hu⟩ := hf
      exact .inr ⟨hu, rfl, rfl⟩

/-- Where a check at each node finds what another does or nothing, so it does in a whole file. -/
theorem run_sublist (hk : c.kind ≠ .header) (hk' : c'.kind ≠ .header)
    (hs : c'.skips path = c.skips path)
    (h : ∀ i, Alike Drops (finds c s (begun c s path m) i) (finds c' s (begun c' s path m) i)) :
    Paired s.tree (fun fs fs' => fs'.Sublist fs) (run c s path m) (run c' s path m) := by
  refine paired_of_alike ?_
  cases hskip : c.skips path with
  | true =>
    obtain ⟨m₁, h₁, hf₁⟩ := run_of_skips hskip s m
    obtain ⟨m₂, h₂, hf₂⟩ := run_of_skips (hs.trans hskip) s m
    rw [h₁, h₂]
    exact .ok (by rw [hf₁, hf₂])
  | false =>
    have hright : Alike (fun fs (m₂ : Memory) => m₂.emitter.findings.Sublist fs.reduceOption)
        (s.tree.all.mapM (finds c s (begun c s path m))) (run c' s path m) := by
      refine (Alike.mapM fun i _ => h i).trans (run_finds hk' (hs.trans hskip) s m).symm ?_
      intro fs fs' m₂ hd h₂
      rw [h₂]
      exact reduceOption_sublist hd
    refine (run_finds hk hskip s m).trans hright fun m₁ fs m₂ h₁ h₂ => ?_
    rw [h₁]
    exact h₂

end

end SinkAudit.Check
