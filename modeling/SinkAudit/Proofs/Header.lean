import SinkAudit.Check.Run
import SinkAudit.Proofs.Scope
import SinkAudit.Proofs.Visit

/-! # Missing headers

A scope is deficient if it sets headers by a call that is not ignored and its calls, ignored or
not, leave out a required header. The header check reports each deficient scope once, in the order
of the first such calls. -/
namespace SinkAudit.Check.Header
open SinkAudit.Tree

def namesAt (s : Source) (i : Nat) : List String := ((headerNames? s i).getD []).map Text.lower

theorem mem_headersBelow {s : Source} {i : Nat} {name : String} :
    name ∈ headersBelow s i ↔ ∃ j, s.tree.Inner i j ∧ name ∈ namesAt s j := by
  induction i using headersBelow.induct s with
  | case1 i ih =>
    rw [headersBelow_eq, List.mem_append, List.mem_flatMap]
    constructor
    · rintro (h | ⟨k, hk, h⟩)
      · exact ⟨i, .refl, h⟩
      · obtain ⟨j, hj, h⟩ := (ih k hk).mp h
        exact ⟨j, .head hk hj, h⟩
    · rintro ⟨j, hj, h⟩
      rcases Relation.ReflTransGen.cases_head hj with rfl | ⟨k, hk, hj⟩
      · exact .inl h
      · exact .inr ⟨k, hk, (ih k hk).mpr ⟨j, hj, h⟩⟩

def namesIn (s : Source) (scope : Nat) : List String :=
  (s.tree.all.filter fun i => s.tree.scopeOf i == scope).flatMap (namesAt s)

theorem mem_namesIn {s : Source} {scope : Nat} {name : String} :
    name ∈ namesIn s scope ↔ ∃ i ∈ s.tree.all, s.tree.scopeOf i = scope ∧ name ∈ namesAt s i := by
  simp [namesIn, and_assoc]

/-- The required headers that no call of a scope sets. -/
def missing (c : Check) (s : Source) (scope : Nat) : List String :=
  c.options.requiredHeaders.filter fun name => !(namesIn s scope).contains (Text.lower name)

theorem callExpression_of_headerNames? {s : Source} {i : Nat} (h : (headerNames? s i).isSome) :
    s.tree.kind i = .callExpression := by
  unfold headerNames? at h
  split at h
  · rename_i hc
    simp only [Bool.and_eq_true, beq_iff_eq] at hc
    exact hc.1
  · simp at h

theorem headerNames?_of_mem_namesAt {s : Source} {i : Nat} {name : String}
    (h : name ∈ namesAt s i) : (headerNames? s i).isSome := by
  cases hn : headerNames? s i with
  | none => simp [namesAt, hn] at h
  | some names => rfl

/-- Going down from a scope finds the headers that the calls of the scope set. -/
theorem missingIn_eq {c : Check} {s : Source} (hr : s.tree.RootedProgram) {i : Nat}
    (hi : i ∈ s.tree.all) :
    missingIn c s (s.tree.scopeOf i) = missing c s (s.tree.scopeOf i) := by
  have hmem (name : String) :
      name ∈ headersBelow s (s.tree.scopeOf i) ↔ name ∈ namesIn s (s.tree.scopeOf i) := by
    rw [mem_headersBelow, mem_namesIn]
    have hcall {j : Nat} (hj : name ∈ namesAt s j) : s.tree.isScope j = false := by
      simp [isScope, callExpression_of_headerNames? (headerNames?_of_mem_namesAt hj),
        Kind.isFunction]
    constructor
    · rintro ⟨j, hin, hj⟩
      exact ⟨j, hin.mem_all ((s.tree.scopeOf_spec i).2 hi),
        (inner_iff_scopeOf hr hi (hcall hj)).mp hin, hj⟩
    · rintro ⟨j, _, hs, hj⟩
      exact ⟨j, (inner_iff_scopeOf hr hi (hcall hj)).mpr hs, hj⟩
  refine List.filter_congr fun name _ => ?_
  rw [Bool.eq_iff_iff]
  simp [hmem]

/-! ## One visit -/

/-- A call that sets headers and is not ignored. -/
def counts (c : Check) (s : Source) (i : Nat) : Bool :=
  (headerNames? s i).isSome && !c.ignores [some (s.text i)]

def message (lacks : List String) : String :=
  "Missing security headers: " ++ ", ".intercalate lacks

def report (s : Source) (e : Emitter) (lacks : List String) (i : Nat) (p : SinkPattern) : Finding :=
  e.finding s i p .high (message lacks) { suggestions := suggest s i }

theorem findingFor_inquiry {c : Check} {s : Source} {m : Memory} {i : Nat} (lacks : List String)
    (hk : c.kind = .header) {p : SinkPattern}
    (hp : Catalog.header.sinkOf? (s.callTarget i).method = some p) (hd : p.dangerous = true) :
    findingFor c s m i (inquiry c s i lacks) .static = .ok (report s m.emitter lacks i p) := by
  have hsink : (inquiry c s i lacks).sink = some p := by
    simp only [inquiry, Check.catalog, hk, CheckKind.sinks, hp]
  have hmsg : (inquiry c s i lacks).message.filter (!·.isEmpty) = some (message lacks) := by
    change (some (message lacks)).filter _ = _
    have hne : (message lacks).isEmpty = false := isEmpty_append_of_ne (by decide) _
    simp only [Option.filter_some, hne, Bool.not_false, if_true]
  have hrisk : Risk.classify p .static false = .high := by
    simp only [Risk.classify, hd, Verdict.static, Verdict.isTainted, Bool.false_and,
      Bool.false_eq_true, if_false, Bool.true_or, if_true]
  have hsug : Check.suggest c s m p i = .ok (suggest s i) := by
    simp only [Check.suggest, hk]
  rw [findingFor, hsink]
  simp only [hmsg, hsug, pure, bind, Except.bind, Except.pure]
  rw [report, ← hrisk]
  rfl

theorem answer_inquiry {c : Check} {s : Source} {m : Memory} {i : Nat} (lacks : List String)
    (hk : c.kind = .header) {p : SinkPattern}
    (hp : Catalog.header.sinkOf? (s.callTarget i).method = some p) (hd : p.dangerous = true) :
    answer c s m i (some (.evaluate (inquiry c s i lacks))) =
      .ok { m with emitter := m.emitter.push (report s m.emitter lacks i p) } := by
  have hf : findingFor c s m i (inquiry c s i lacks) .static =
      .ok (report s m.emitter lacks i p) := findingFor_inquiry lacks hk hp hd
  have hargs : (inquiry c s i lacks).arguments = [] := rfl
  have hstatic : (inquiry c s i lacks).reportStatic = true := rfl
  simp only [answer, evaluate, hargs, hstatic, exposures, List.map_nil, List.flatMap_nil,
    List.append_nil, Bool.true_or, decisive?, List.filter_nil, List.isEmpty_nil, if_true, hf,
    Except.map]

theorem visit_of_not_counts {c : Check} {s : Source} {m : Memory} {i : Nat}
    (hk : c.kind = .header) (h : m.usesHelmet = true ∨ counts c s i = false) :
    visit c s m i = .ok m := by
  have hc : handle c s m i = .ok (m, none) := by
    simp only [handle, hk]
    split
    · have : (m.usesHelmet || (headerNames? s i).isNone || c.ignores [some (s.text i)]) = true := by
        rcases h with h | h
        · simp [h]
        · simp [counts] at h
          cases hn : headerNames? s i with
          | none => simp
          | some names => simp [h (by simp [hn])]
      rw [handleCall, if_pos this]
      rfl
    · rfl
  rw [visit, hc]
  rfl

theorem claim_of_mem {e : Emitter} {k : Tree.Key} (h : k ∈ e.claimed) : e.claim k = (e, false) := by
  simp [Emitter.claim, h]

theorem claim_of_not_mem {e : Emitter} {k : Tree.Key} (h : k ∉ e.claimed) :
    e.claim k = ({ e with claimed := e.claimed ++ [k] }, true) := by
  simp [Emitter.claim, h]

/-- A call that counts claims its scope, and is reported if it is the first to do so and the scope
lacks a header. -/
theorem visit_of_counts {c : Check} {s : Source} {m : Memory} {i : Nat} (hk : c.kind = .header)
    (hh : m.usesHelmet = false) (h : counts c s i = true) :
    ∃ e, visit c s m i = .ok { m with emitter := e } ∧
      let scope := s.tree.scopeOf i
      let claimed := m.emitter.claimed ++ [s.tree.key scope]
      (s.tree.key scope ∈ m.emitter.claimed ∧ e = m.emitter) ∨
      (s.tree.key scope ∉ m.emitter.claimed ∧ missingIn c s scope = [] ∧
        e = { m.emitter with claimed }) ∨
      (s.tree.key scope ∉ m.emitter.claimed ∧ missingIn c s scope ≠ [] ∧
        ∃ p, Catalog.header.sinkOf? (s.callTarget i).method = some p ∧
          e = { m.emitter with claimed }.push
            (report s m.emitter (missingIn c s scope) i p)) := by
  obtain ⟨hn, hg⟩ : (headerNames? s i).isSome = true ∧ c.ignores [some (s.text i)] = false := by
    simpa [counts] using h
  have hcall : (s.tree.kind i).isCall = true := by
    rw [callExpression_of_headerNames? hn]
    rfl
  have hgo :
      ¬ (m.usesHelmet || (headerNames? s i).isNone || c.ignores [some (s.text i)]) = true := by
    simp [hh, hg, Option.isSome_iff_ne_none.mp hn]
  have hhandle : handle c s m i = handleCall c s m i := by
    simp only [handle, hk, hcall, if_true]
  have hnode : (s.tree.enclosingScope i).node = s.tree.scopeOf i := rfl
  rw [visit, hhandle, handleCall, if_neg hgo]
  simp only [hnode]
  by_cases hcl : s.tree.key (s.tree.scopeOf i) ∈ m.emitter.claimed
  · refine ⟨m.emitter, ?_, .inl ⟨hcl, rfl⟩⟩
    rw [claim_of_mem hcl]
    rfl
  · rw [claim_of_not_mem hcl]
    by_cases hm : missingIn c s (s.tree.scopeOf i) = []
    · refine ⟨_, ?_, .inr (.inl ⟨hcl, hm, rfl⟩)⟩
      rw [hm]
      rfl
    · obtain ⟨p, hp, hd⟩ := sink_known hn
      refine ⟨_, ?_, .inr (.inr ⟨hcl, hm, p, hp, rfl⟩)⟩
      rw [if_neg (by simpa using hm)]
      exact answer_inquiry _ hk hp hd

/-! ## A whole file -/

/-- Among some nodes a call of the scope counts, and the scope lacks a header. -/
def Deficient (c : Check) (s : Source) (nodes : List Nat) (scope : Nat) : Prop :=
  (∃ i ∈ nodes, counts c s i = true ∧ s.tree.scopeOf i = scope) ∧ missing c s scope ≠ []

def anchor? (c : Check) (s : Source) (nodes : List Nat) (scope : Nat) : Option Nat :=
  nodes.find? fun i => counts c s i && s.tree.scopeOf i == scope

/-- A finding says that headers are missing: it is at a call, from its first byte to its last, and
lists the headers in its message. -/
structure Says (s : Source) (e : Emitter) (lacks : List String) (i : Nat) (f : Finding) : Prop where
  message : f.message = "Missing security headers: " ++ ", ".intercalate lacks
  start : f.start = s.position (s.tree.node i).start
  stop : f.stop = s.position (s.tree.node i).stop
  check : f.check = e.check
  path : f.path = e.path
  risk : f.risk = .high
  sink : ∃ p, Catalog.header.sinkOf? (s.callTarget i).method = some p ∧ f = report s e lacks i p

theorem says_report {s : Source} {e : Emitter} {i : Nat} {p : SinkPattern}
    (hp : Catalog.header.sinkOf? (s.callTarget i).method = some p) (lacks : List String) :
    Says s e lacks i (report s e lacks i p) :=
  ⟨rfl, rfl, rfl, rfl, rfl, rfl, p, hp, rfl⟩

/-- A finding is about a scope: it is at the first call that counts and lists what is missing. -/
def Reports (c : Check) (s : Source) (e : Emitter) (nodes : List Nat) (scope : Nat)
    (f : Finding) : Prop :=
  ∃ i, anchor? c s nodes scope = some i ∧ Says s e (missing c s scope) i f

/-- Findings are about the deficient scopes, each once, in the order of their first calls. -/
def Covers (c : Check) (s : Source) (e : Emitter) (nodes : List Nat) (findings : List Finding) :
    Prop :=
  ∃ scopes : List Nat, scopes.Nodup ∧ (∀ scope, scope ∈ scopes ↔ Deficient c s nodes scope) ∧
    (scopes.filterMap (anchor? c s nodes)).Sublist nodes ∧
    List.Forall₂ (Reports c s e nodes) scopes findings

variable {c : Check} {s : Source} {e : Emitter} {nodes : List Nat} {i : Nat}

theorem deficient_snoc {scope : Nat} :
    Deficient c s (nodes ++ [i]) scope ↔ Deficient c s nodes scope ∨
      (counts c s i = true ∧ s.tree.scopeOf i = scope ∧ missing c s scope ≠ []) := by
  simp only [Deficient, List.mem_append, List.mem_singleton]
  constructor
  · rintro ⟨⟨j, hj | rfl, hc, hs⟩, hm⟩
    · exact .inl ⟨⟨j, hj, hc, hs⟩, hm⟩
    · exact .inr ⟨hc, hs, hm⟩
  · rintro (⟨⟨j, hj, hc, hs⟩, hm⟩ | ⟨hc, hs, hm⟩)
    · exact ⟨⟨j, .inl hj, hc, hs⟩, hm⟩
    · exact ⟨⟨i, .inr rfl, hc, hs⟩, hm⟩

/-- Later nodes do not change the first call of a scope that has one. -/
theorem anchor?_append {scope : Nat} (h : Deficient c s nodes scope) (more : List Nat) :
    anchor? c s (nodes ++ more) scope = anchor? c s nodes scope := by
  obtain ⟨⟨j, hj, hc, hs⟩, _⟩ := h
  have : (anchor? c s nodes scope).isSome = true := by
    rw [anchor?, List.find?_isSome]
    exact ⟨j, hj, by simp [hc, hs]⟩
  obtain ⟨k, hk⟩ := Option.isSome_iff_exists.mp this
  rw [anchor?, List.find?_append, ← anchor?, hk]
  rfl

theorem Covers.forall₂_snoc {scopes : List Nat} {findings : List Finding}
    (hd : ∀ scope ∈ scopes, Deficient c s nodes scope)
    (h : List.Forall₂ (Reports c s e nodes) scopes findings) :
    List.Forall₂ (Reports c s e (nodes ++ [i])) scopes findings := by
  induction h with
  | nil => exact .nil
  | @cons scope f scopes findings hf _ ih =>
    obtain ⟨j, hj, hf⟩ := hf
    refine .cons ⟨j, ?_, hf⟩ (ih fun scope hs => hd scope (by simp [hs]))
    rw [anchor?_append (hd scope (by simp)), hj]

theorem filterMap_anchor?_snoc {scopes : List Nat}
    (hd : ∀ scope ∈ scopes, Deficient c s nodes scope) :
    scopes.filterMap (anchor? c s (nodes ++ [i])) = scopes.filterMap (anchor? c s nodes) :=
  List.filterMap_congr fun scope hs => anchor?_append (hd scope hs) [i]

/-- A node that makes no scope deficient needs no finding. -/
theorem Covers.skip {findings : List Finding} (h : Covers c s e nodes findings)
    (hn : ∀ scope, Deficient c s (nodes ++ [i]) scope → Deficient c s nodes scope) :
    Covers c s e (nodes ++ [i]) findings := by
  obtain ⟨scopes, hnd, hmem, hsub, hf⟩ := h
  have hd (scope : Nat) (hs : scope ∈ scopes) : Deficient c s nodes scope := (hmem scope).mp hs
  refine ⟨scopes, hnd, fun scope => ?_, ?_, forall₂_snoc hd hf⟩
  · rw [hmem]
    exact ⟨fun h => deficient_snoc.mpr (.inl h), hn scope⟩
  · rw [filterMap_anchor?_snoc hd]
    exact hsub.trans (List.sublist_append_left nodes [i])

/-- The first call of a deficient scope needs one. -/
theorem Covers.snoc {findings : List Finding} (h : Covers c s e nodes findings)
    (hfirst : ∀ j ∈ nodes, counts c s j = true → s.tree.scopeOf j ≠ s.tree.scopeOf i)
    (hc : counts c s i = true) (hm : missing c s (s.tree.scopeOf i) ≠ []) {p : SinkPattern}
    (hp : Catalog.header.sinkOf? (s.callTarget i).method = some p) :
    Covers c s e (nodes ++ [i])
      (findings ++ [report s e (missing c s (s.tree.scopeOf i)) i p]) := by
  obtain ⟨scopes, hnd, hmem, hsub, hf⟩ := h
  have hd (scope : Nat) (hs : scope ∈ scopes) : Deficient c s nodes scope := (hmem scope).mp hs
  have hnew : s.tree.scopeOf i ∉ scopes := by
    intro hs
    obtain ⟨⟨j, hj, hcj, hsj⟩, _⟩ := hd _ hs
    exact hfirst j hj hcj hsj
  have hanchor : anchor? c s (nodes ++ [i]) (s.tree.scopeOf i) = some i := by
    have hnone : anchor? c s nodes (s.tree.scopeOf i) = none := by
      rw [anchor?, List.find?_eq_none]
      intro j hj
      simpa using hfirst j hj
    rw [anchor?, List.find?_append, ← anchor?, hnone]
    simp [hc]
  refine ⟨scopes ++ [s.tree.scopeOf i], ?_, fun scope => ?_, ?_, ?_⟩
  · simpa [List.nodup_append] using ⟨hnd, fun a ha he => hnew (he ▸ ha)⟩
  · rw [deficient_snoc, List.mem_append, List.mem_singleton, hmem]
    refine or_congr Iff.rfl ⟨?_, fun h => h.2.1.symm⟩
    rintro rfl
    exact ⟨hc, rfl, hm⟩
  · rw [List.filterMap_append, filterMap_anchor?_snoc hd, List.filterMap_cons, hanchor]
    exact hsub.append (List.Sublist.refl [i])
  · exact List.rel_append (forall₂_snoc hd hf) (.cons ⟨i, hanchor, says_report hp _⟩ .nil)

/-- The keys of the scopes among whose calls, of some nodes, one counts. -/
def Claimed (c : Check) (s : Source) (nodes : List Nat) (claimed : List Tree.Key) : Prop :=
  ∀ k, k ∈ claimed ↔ ∃ i ∈ nodes, counts c s i = true ∧ s.tree.key (s.tree.scopeOf i) = k

section
variable {claimed : List Tree.Key}

theorem Claimed.skip (h : Claimed c s nodes claimed) (hc : counts c s i = false) :
    Claimed c s (nodes ++ [i]) claimed := by
  intro k
  simp [h k, hc, or_and_right, exists_or]

theorem Claimed.snoc (h : Claimed c s nodes claimed) (hc : counts c s i = true) :
    Claimed c s (nodes ++ [i]) (claimed ++ [s.tree.key (s.tree.scopeOf i)]) := by
  intro k
  simp only [List.mem_append, List.mem_singleton, h k, or_and_right, exists_or, exists_eq_left, hc,
    true_and]
  exact or_congr Iff.rfl eq_comm

theorem Claimed.again (h : Claimed c s nodes claimed) (hc : counts c s i = true)
    (hin : s.tree.key (s.tree.scopeOf i) ∈ claimed) : Claimed c s (nodes ++ [i]) claimed := by
  intro k
  rw [← h.snoc hc k, List.mem_append, List.mem_singleton]
  exact ⟨.inl, fun hk => hk.elim id fun hk => hk ▸ hin⟩

end

/-- What is remembered after some nodes of a file that sets no headers by a library. -/
structure Remembers (c : Check) (s : Source) (e : Emitter) (nodes : List Nat) (m : Memory) :
    Prop where
  visited : ∀ i ∈ nodes, i ∈ s.tree.all
  helmet : m.usesHelmet = false
  check : m.emitter.check = e.check
  path : m.emitter.path = e.path
  claimed : Claimed c s nodes m.emitter.claimed
  covers : Covers c s e nodes m.emitter.findings

theorem report_congr {e e' : Emitter} (hc : e.check = e'.check) (hp : e.path = e'.path)
    (lacks : List String) (p : SinkPattern) : report s e lacks i p = report s e' lacks i p := by
  simp only [report, Emitter.finding, hc, hp]

theorem Remembers.visit {m : Memory} (hk : c.kind = .header) (hr : s.tree.RootedProgram)
    (hd : s.tree.DistinctScopes) (hi : i ∈ s.tree.all) (h : Remembers c s e nodes m) :
    Ends (fun _ => False) (Remembers c s e (nodes ++ [i])) (Check.visit c s m i) := by
  have hvisited : ∀ j ∈ nodes ++ [i], j ∈ s.tree.all := by
    intro j hj
    rcases List.mem_append.mp hj with hj | hj
    · exact h.visited j hj
    · exact List.mem_singleton.mp hj ▸ hi
  cases hc : counts c s i with
  | false =>
    rw [visit_of_not_counts hk (.inr hc)]
    refine .ok ⟨hvisited, h.helmet, h.check, h.path, h.claimed.skip hc, ?_⟩
    exact h.covers.skip fun scope hs => (deficient_snoc.mp hs).resolve_right (by simp [hc])
  | true =>
    have hclaimed := h.claimed.snoc hc
    obtain ⟨e', hv, hcases⟩ := visit_of_counts hk h.helmet hc
    dsimp only at hcases
    rw [missingIn_eq hr hi] at hcases
    rw [hv]
    rcases hcases with ⟨hin, rfl⟩ | ⟨_, hm, rfl⟩ | ⟨hnot, hm, p, hp, rfl⟩
    -- an earlier call has claimed the same scope
    · obtain ⟨j, hj, hcj, hkj⟩ := (h.claimed _).mp hin
      have hs : s.tree.scopeOf j = s.tree.scopeOf i := hd.scopeOf_inj (h.visited j hj) hi hkj
      refine .ok ⟨hvisited, h.helmet, h.check, h.path, h.claimed.again hc hin,
        h.covers.skip fun scope hdef => ?_⟩
      rcases deficient_snoc.mp hdef with hdef | ⟨_, hsi, hm⟩
      · exact hdef
      · exact ⟨⟨j, hj, hcj, hs.trans hsi⟩, hm⟩
    · refine .ok
        ⟨hvisited, h.helmet, h.check, h.path, hclaimed, h.covers.skip fun scope hdef => ?_⟩
      rcases deficient_snoc.mp hdef with hdef | ⟨_, rfl, hm'⟩
      · exact hdef
      · exact absurd hm hm'
    · refine .ok ⟨hvisited, h.helmet, h.check, h.path, hclaimed, ?_⟩
      rw [report_congr h.check h.path]
      refine h.covers.snoc (fun j hj hcj hs => hnot ?_) hc hm hp
      exact (h.claimed _).mpr ⟨j, hj, hcj, congrArg s.tree.key hs⟩

/-- The header check finishes on every file. It finds nothing where headers are set by a library;
elsewhere it makes one finding for each deficient scope, in the order of the first calls that
count, at that call and with the missing headers in its message. -/
theorem run_reports_deficient_scopes (c : Check) (hk : c.kind = .header) (s : Source)
    (hr : s.tree.RootedProgram) (hd : s.tree.DistinctScopes) (path : Path)
    (hp : c.skips path = false) (m : Memory) :
    ∃ m', c.run s path m = .ok m' ∧
      ((∃ i ∈ s.tree.all, s.tree.kind i = .callExpression ∧ s.calleeName? i = some "helmet") →
        m'.emitter.findings = []) ∧
      ((¬ ∃ i ∈ s.tree.all, s.tree.kind i = .callExpression ∧ s.calleeName? i = some "helmet") →
        Covers c s (m.emitter.reset path) s.tree.all m'.emitter.findings) := by
  have hhelmet : usesHelmet s = true ↔
      ∃ i ∈ s.tree.all, s.tree.kind i = .callExpression ∧ s.calleeName? i = some "helmet" := by
    simp [usesHelmet]
  have hrun : c.run s path m =
      s.tree.all.foldlM (Check.visit c s) (prepare s (start m path)) := by
    simp only [Check.run, hp, Bool.false_eq_true, if_false, Check.prepare, hk]
  rw [hrun, ← hhelmet]
  cases hu : usesHelmet s with
  | true =>
    have hloop : Ends (fun _ => False)
        (fun m' : Memory => m'.usesHelmet = true ∧ m'.emitter.findings = [])
        (s.tree.all.foldlM (Check.visit c s) (prepare s (start m path))) := by
      refine Ends.foldlM (fun _ (m' : Memory) => m'.usesHelmet = true ∧ m'.emitter.findings = [])
        ⟨hu, rfl⟩ fun _ i m' _ hm' => ?_
      rw [visit_of_not_counts hk (.inl hm'.1)]
      exact .ok hm'
    obtain ⟨m', hm', hf⟩ := hloop.exists_ok
    exact ⟨m', hm', fun _ => hf.2, by simp⟩
  | false =>
    have h₀ : Remembers c s (m.emitter.reset path) [] (prepare s (start m path)) := by
      refine ⟨by simp, hu, rfl, rfl, fun k => ?_, [], .nil, fun scope => ?_, .slnil, .nil⟩
      · simp [prepare, start, Emitter.reset]
      · simp [Deficient]
    obtain ⟨m', hm', hrem⟩ := (Ends.foldlM (Remembers c s (m.emitter.reset path)) h₀
      fun _ i m' hi hm' => hm'.visit hk hr hd hi).exists_ok
    exact ⟨m', hm', by simp, fun _ => hrem.covers⟩

def twoScopes : Source where
  bytes := "res.set('A'); () => res.set('B')".toUTF8.data
  tree := ⟨#[
    { kind := .program, start := 0, stop := 32 },
    { kind := .callExpression, start := 0, stop := 12, parent := some 0 },
    { kind := .memberExpression, start := 0, stop := 7, parent := some 1, field := some .callee },
    { kind := .identifier, start := 0, stop := 3, parent := some 2, field := some .object },
    { kind := .propertyIdentifier, start := 4, stop := 7, parent := some 2,
      field := some .property },
    { kind := .arguments, start := 7, stop := 12, parent := some 1, field := some .arguments },
    { kind := .stringLiteral, start := 8, stop := 11, parent := some 5 },
    { kind := .arrowFunction, start := 14, stop := 32, parent := some 0 },
    { kind := .callExpression, start := 20, stop := 32, parent := some 7, field := some .body },
    { kind := .memberExpression, start := 20, stop := 27, parent := some 8,
      field := some .callee },
    { kind := .identifier, start := 20, stop := 23, parent := some 9, field := some .object },
    { kind := .propertyIdentifier, start := 24, stop := 27, parent := some 9,
      field := some .property },
    { kind := .arguments, start := 27, stop := 32, parent := some 8, field := some .arguments },
    { kind := .stringLiteral, start := 28, stop := 31, parent := some 12 }]⟩

/-- The check that asks for two headers, one of which the first scope sets. -/
def askingTwo : Check :=
  { Check.ofKind .header with options := { requiredHeaders := ["A", "C"] } }

theorem twoScopes_covered :
    twoScopes.tree.RootedProgram ∧ twoScopes.tree.DistinctScopes ∧
      askingTwo.skips { parts := ["a.js"] } = false ∧
      ∃ m', askingTwo.run twoScopes { parts := ["a.js"] } askingTwo.fresh = .ok m' ∧
        Covers askingTwo twoScopes (askingTwo.fresh.emitter.reset { parts := ["a.js"] })
          twoScopes.tree.all m'.emitter.findings ∧
        m'.emitter.findings.map (fun f => (f.message, f.start.column, f.stop.column)) =
          [("Missing security headers: C", 1, 13), ("Missing security headers: A, C", 21, 33)] := by
  have hr : twoScopes.tree.RootedProgram := by decide +kernel
  have hd : twoScopes.tree.DistinctScopes := by decide +kernel
  have hp : askingTwo.skips { parts := ["a.js"] } = false := by decide +kernel
  obtain ⟨m', hrun, -, hcovers⟩ := run_reports_deficient_scopes askingTwo rfl twoScopes hr hd
    { parts := ["a.js"] } hp askingTwo.fresh
  have hsaid : (askingTwo.run twoScopes { parts := ["a.js"] } askingTwo.fresh).toOption.map
      (fun m => m.emitter.findings.map fun f => (f.message, f.start.column, f.stop.column)) =
        some [("Missing security headers: C", 1, 13),
          ("Missing security headers: A, C", 21, 33)] := by
    decide +kernel
  rw [hrun] at hsaid
  exact ⟨hr, hd, hp, m', hrun, hcovers (by decide +kernel), Option.some.inj hsaid⟩

end SinkAudit.Check.Header
