import Mathlib.Data.List.Forall2
import SinkAudit.Check.Run
import SinkAudit.Proofs.Catalog
import SinkAudit.Proofs.Outcome

/-! # What a check may do at a node

`Noted` lists everything that coming to a node may do to a memory, side by side for two memories
that a check cannot tell apart: nothing, a request, a note about the node under evaluation, or the
claim of a scope. Every request can be answered: it is about a sink of a class that is listed and
about values that are there, and the steps that it gives in place of the sink's own are some, none
of them twice (`Answerable`). What is said of visits and runs follows from it: they read nothing
that an earlier file left behind, they add at most one finding, and they fail only where an
assignment has no target. -/
namespace SinkAudit.Check

theorem isEmpty_append_of_ne {s : String} (h : s ≠ "") (t : String) :
    (s ++ t).isEmpty = false := by
  rw [String.isEmpty_eq_false_iff, ne_eq, String.append_eq_empty_iff]
  exact fun hboth => h hboth.1

def Untargeted (t : Tree) : Prop :=
  ∃ i, (t.kind i).isAssignment = true ∧ t.child? i .left = none

theorem untargeted_iff (t : Tree) : (∃ i ∈ List.range t.size,
    (t.kind i).isAssignment = true ∧ t.child? i .left = none) ↔ Untargeted t := by
  constructor
  · rintro ⟨i, _, h⟩
    exact ⟨i, h⟩
  · rintro ⟨i, h, hl⟩
    refine ⟨i, List.mem_range.mpr ?_, h, hl⟩
    refine Nat.lt_of_not_le fun hi => ?_
    rw [Tree.kind, Tree.node_of_size_le hi] at h
    cases h

instance (t : Tree) : Decidable (Untargeted t) := decidable_of_iff _ (untargeted_iff t)

/-- The sink can be evaluated and reported, given what the evaluated code is meant for. -/
structure Evaluable (c : Check) (s : Source) (i : Nat) (category : Option SinkPattern)
    (q : Inquiry) (p : SinkPattern) : Prop where
  sink : q.sink = some p
  classed : p.Classed
  /-- Only values that are there are looked at. -/
  present : ∀ a ∈ q.arguments, a < s.tree.size
  proper : ∀ steps ∈ q.remediation, ProperSteps steps
  /-- Fixed values that become markup or an address are of no interest. -/
  spares : c.kind = .markup ∨ c.kind = .redirect → (q.reportStatic || q.structural) = false
  target : c.kind = .markup → (s.tree.kind i).isAssignment = true →
    (s.tree.child? i .left).isSome = true
  alternative : c.kind = .code → (category.getD p).safeAlternatives ≠ []

def Answerable (c : Check) (s : Source) (i : Nat) (category : Option SinkPattern) :
    Request → Prop
  | .report sink risk _ => (∃ p, sink = some p ∧ p.Classed) ∧ risk ≠ .low ∧
      ¬(c.kind = .markup ∨ c.kind = .redirect)
  | .evaluate q => ∃ p, Evaluable c s i category q p

/-- Only for evaluated code it matters what it is meant for. -/
theorem Answerable.of_not_code {c : Check} {s : Source} {i : Nat} {k : Option SinkPattern}
    {r : Request} (h : Answerable c s i k r) (hc : c.kind ≠ .code) (k' : Option SinkPattern) :
    Answerable c s i k' r := by
  cases r with
  | report sink risk message => exact h
  | evaluate q =>
    obtain ⟨p, hp⟩ := h
    exact ⟨p, { hp with alternative := fun hk => absurd hk hc }⟩

/-- What becomes of two memories at a node. -/
inductive Noted (c : Check) (s : Source) (i : Nat) (m n : Memory) : Handling → Handling → Prop
  | fault (h : Untargeted s.tree) : Noted c s i m n (.error .noTarget) (.error .noTarget)
  | silent : Noted c s i m n m.silent n.silent
  | asks (r : Request) (h : Answerable c s i none r) (hc : c.kind ≠ .code)
      (hr : c.kind ≠ .regex) : Noted c s i m n (.ok (m, some r)) (.ok (n, some r))
  | category (k : Option SinkPattern) (r : Request) (h : Answerable c s i k r)
      (hc : c.kind = .code) :
      Noted c s i m n (.ok ({ m with category := k }, some r))
        (.ok ({ n with category := k }, some r))
  | shape (k : Option SinkPattern) (r : Request) (h : Answerable c s i none r)
      (hr : c.kind = .regex) :
      Noted c s i m n (.ok ({ m with shape := k }, some r)) (.ok ({ n with shape := k }, some r))
  | claims (k : Tree.Key) (r : Option Request) (h : ∀ q ∈ r, Answerable c s i none q)
      (hh : c.kind = .header) :
      Noted c s i m n (.ok ({ m with emitter := (m.emitter.claim k).1 }, r))
        (.ok ({ n with emitter := (m.emitter.claim k).1 }, r))

/-- Two memories that a check cannot tell apart when it comes to a node. -/
structure Agree (kind : CheckKind) (m n : Memory) : Prop where
  emitter : m.emitter = n.emitter
  log : m.log = n.log
  aliases : kind = .command → m.aliases = n.aliases
  bound : kind = .command → m.boundFunctions = n.boundFunctions
  helmet : kind = .header → m.usesHelmet = n.usesHelmet

theorem Agree.refl (kind : CheckKind) (m : Memory) : Agree kind m m :=
  ⟨rfl, rfl, fun _ => rfl, fun _ => rfl, fun _ => rfl⟩

/-- Two memories that say the same where a check reads them when it comes to a node. -/
structure Tells (kind : CheckKind) (m n : Memory) : Prop where
  aliases : kind = .command → m.aliases = n.aliases
  bound : kind = .command → m.boundFunctions = n.boundFunctions
  helmet : kind = .header → m.usesHelmet = n.usesHelmet
  emitter : kind = .header → m.emitter = n.emitter

theorem Agree.tells {kind : CheckKind} {m n : Memory} (h : Agree kind m n) : Tells kind m n :=
  ⟨h.aliases, h.bound, h.helmet, fun _ => h.emitter⟩

/-! ## Each check -/

section
variable {c : Check} {s : Source} {m n : Memory} {i : Nat}

/-- What a check knows is what is listed for its kind and, of evaluation, the same under other
names. -/
theorem mem_catalog {p : SinkPattern} (h : p ∈ c.catalog) : p ∈ c.kind.sinks ∨
    c.kind = .code ∧ ∃ template ∈ Catalog.evaluation, ∃ name, p = template.renamed name := by
  unfold Check.catalog at h
  split at h
  · rename_i template hk ht
    rcases List.mem_append.mp h with h | h
    · exact .inl (hk ▸ h)
    · obtain ⟨name, _, rfl⟩ := List.mem_map.mp h
      exact .inr ⟨hk, template, List.mem_of_find?_eq_some ht, name, rfl⟩
  · exact .inl h

theorem catalog_classed (c : Check) {p : SinkPattern} (h : p ∈ c.catalog) : p.Classed := by
  rcases mem_catalog h with h | ⟨_, template, ht, name, rfl⟩
  · exact c.kind.sinks_classed p h
  · exact CheckKind.sinks_classed .code template ht

theorem sink?_classed (c : Check) {name : String} : ∀ p ∈ c.catalog.sink? name, p.Classed :=
  fun _ h => c.catalog_classed (List.mem_of_find?_eq_some h)

theorem sinkOf?_classed (c : Check) {name : Option String} :
    ∀ p ∈ c.catalog.sinkOf? name, p.Classed := by
  intro p h
  obtain ⟨name, _, h⟩ := Option.bind_eq_some_iff.mp h
  exact c.sink?_classed p h

/-- A sink for which the check gives no steps of its own can be evaluated if it is known. -/
theorem exists_evaluable {q : Inquiry} (hc : c.kind ≠ .code) (hq : q.sink.isSome = true)
    (hp : ∀ p ∈ q.sink, p.Classed) (ha : ∀ a ∈ q.arguments, a < s.tree.size)
    (hr : q.remediation = none)
    (hs : c.kind = .markup ∨ c.kind = .redirect → (q.reportStatic || q.structural) = false)
    (ht : c.kind = .markup → (s.tree.kind i).isAssignment = true →
      (s.tree.child? i .left).isSome = true) (k : Option SinkPattern) :
    ∃ p, Evaluable c s i k q p := by
  obtain ⟨p, hsink⟩ := Option.isSome_iff_exists.mp hq
  exact ⟨p, hsink, hp p hsink, ha, by simp [hr], hs, ht, fun h => absurd h hc⟩

theorem noted_asks {q : Inquiry} (hk : c.kind ∉ [.code, .regex, .markup])
    (hq : q.sink.isSome = true) (hp : ∀ p ∈ q.sink, p.Classed)
    (ha : ∀ a ∈ q.arguments, a < s.tree.size) (hr : q.remediation = none)
    (hs : c.kind = .redirect → (q.reportStatic || q.structural) = false) :
    Noted c s i m n (m.asks q) (n.asks q) := by
  obtain ⟨hcode, hregex, hmarkup⟩ : c.kind ≠ .code ∧ c.kind ≠ .regex ∧ c.kind ≠ .markup := by
    simpa using hk
  refine .asks (.evaluate q) (exists_evaluable hcode hq hp ha hr ?_ ?_ none) hcode hregex
  · exact fun h => h.elim (fun h => absurd h hmarkup) hs
  · exact fun h => absurd h hmarkup

theorem Command.isProcessModule_congr (ha : m.aliases = n.aliases) :
    Command.isProcessModule s m = Command.isProcessModule s n := by
  funext j
  simp only [Command.isProcessModule, ha]

theorem Command.noted (hk : c.kind = .command) (ha : m.aliases = n.aliases)
    (hb : m.boundFunctions = n.boundFunctions) :
    Noted c s i m n (Command.handleCall c s m i) (Command.handleCall c s n i) := by
  have hname : Command.methodName? s m i = Command.methodName? s n i := by
    simp only [Command.methodName?, hb]
  have hcall : Command.isProcessCall s m i = Command.isProcessCall s n i := by
    simp only [Command.isProcessCall, Command.isProcessModule_congr ha, hb]
  unfold Command.handleCall
  rw [hname, hcall]
  dsimp only
  split
  · exact .silent
  · split
    · exact .silent
    · refine noted_asks (by simp [hk]) (by simp [Command.inquiry]) ?_ ?_ rfl (by simp [hk])
      · intro p hp
        rcases Option.or_eq_some_iff.mp hp with hp | ⟨_, hp⟩
        · exact c.sink?_classed p hp
        · cases hp
          exact SinkPattern.generic_classed (by simp [hk]) _
      · exact fun a ha => (Tree.lt_of_mem_callArguments (List.mem_of_mem_take ha)).2

theorem Code.catalog_alternatives (hk : c.kind = .code) {name : String} {p : SinkPattern}
    (hp : c.catalog.sink? name = some p) : p.safeAlternatives ≠ [] := by
  have heval : ∀ p ∈ Catalog.evaluation, p.safeAlternatives ≠ [] := by decide
  rcases mem_catalog (List.mem_of_find?_eq_some hp) with hmem | ⟨_, template, ht, name, rfl⟩
  · rw [hk] at hmem
    exact heval p hmem
  · exact heval template ht

theorem Code.mem_of_categoryOf? {name : String} {arguments : List Nat} {k : SinkPattern}
    (hk : Code.categoryOf? s name arguments = some k) : k ∈ Catalog.evaluationCategory := by
  unfold Code.categoryOf? at hk
  split at hk
  · exact List.mem_of_find?_eq_some hk
  · cases hk

theorem Code.category_alternatives :
    ∀ k ∈ Catalog.evaluationCategory, k.safeAlternatives ≠ [] := by decide

theorem Code.category_proper :
    ∀ k ∈ Catalog.evaluationCategory, ProperSteps k.remediation := by decide +kernel

theorem Code.noted (hk : c.kind = .code) :
    Noted c s i m n (Code.handleCall c s m i) (Code.handleCall c s n i) := by
  unfold Code.handleCall
  dsimp only
  split
  · exact .silent
  · split
    · exact .silent
    · rename_i name _ _ p hp
      split
      · exact .silent
      · refine .category _ (.evaluate _)
          ⟨p, rfl, c.sink?_classed p hp, ?_, ?_, by simp [hk], by simp [hk], fun _ => ?_⟩ hk
        · exact fun a ha => (Tree.lt_of_mem_callArguments ha).2
        · intro steps hsteps
          obtain ⟨k, hcat, rfl⟩ := Option.map_eq_some_iff.mp hsteps
          exact (Code.category_proper k (Code.mem_of_categoryOf? hcat)).addSteps _
        · cases hcat : Code.categoryOf? s name (s.tree.callArguments i) with
          | none => exact Code.catalog_alternatives hk hp
          | some k => exact Code.category_alternatives k (Code.mem_of_categoryOf? hcat)

theorem Regex.exists_evaluable (hk : c.kind = .regex) {p : SinkPattern} (hp : p.Classed)
    {arguments : List Nat} (ha : ∀ a ∈ arguments, a < s.tree.size) {shape : Option SinkPattern}
    (hs : ∀ k ∈ shape, k ∈ Catalog.regexShape) (long : Bool) :
    ∃ p', Evaluable c s i none (Regex.inquiry p arguments shape long) p' := by
  have hshapes : ∀ k ∈ Catalog.regexShape, ProperSteps k.remediation := by decide +kernel
  refine ⟨p, rfl, hp, ha, ?_, by simp [hk], by simp [hk], by simp [hk]⟩
  intro steps hsteps
  obtain ⟨k, hshape, rfl⟩ := Option.map_eq_some_iff.mp hsteps
  exact (hshapes k (hs k hshape)).addSteps _

theorem Regex.noted_call (hk : c.kind = .regex) :
    Noted c s i m n (Regex.handleCall c s m i) (Regex.handleCall c s n i) := by
  unfold Regex.handleCall
  dsimp only
  split
  · exact .silent
  · rename_i first hfirst
    split
    · exact .silent
    · refine .shape _ (.evaluate _)
        (Regex.exists_evaluable hk ?_ ?_ (fun _ => List.mem_of_find?_eq_some) _) hk
      · cases hp : Regex.callSink? c s i with
        | none => exact SinkPattern.generic_classed (by simp [hk]) "RegExp"
        | some p => exact c.catalog_classed (List.mem_of_find?_eq_some hp)
      · intro a ha
        obtain ⟨j, hj, rfl⟩ := Option.map_eq_some_iff.mp hfirst
        rw [List.mem_singleton.mp ha]
        exact Tree.unwrap_lt_size (Tree.lt_of_mem_callArguments (List.mem_of_head? hj)).2

theorem Regex.noted_literal (hk : c.kind = .regex) :
    Noted c s i m n (Regex.handleLiteral c s m i) (Regex.handleLiteral c s n i) := by
  unfold Regex.handleLiteral
  dsimp only
  split
  · exact .silent
  · exact .shape _ (.evaluate _)
      (Regex.exists_evaluable hk (by decide) (by simp) (fun _ => List.mem_of_find?_eq_some) _) hk

theorem catalog_of_kind (hk : c.kind ≠ .code) : c.catalog = c.kind.sinks := by
  unfold Check.catalog
  split
  · rename_i h _
    exact absurd h hk
  · rfl

theorem Markup.noted_asks {q : Inquiry} (hk : c.kind = .markup) (hq : q.sink.isSome = true)
    (hp : ∀ p ∈ q.sink, p.Classed) (ha : ∀ a ∈ q.arguments, a < s.tree.size)
    (hr : q.remediation = none) (hs : (q.reportStatic || q.structural) = false)
    (hl : (s.tree.kind i).isAssignment = true → (s.tree.child? i .left).isSome = true) :
    Noted c s i m n (m.asks q) (n.asks q) :=
  .asks (.evaluate q)
    (exists_evaluable (by simp [hk]) hq hp ha hr (fun _ => hs) (fun _ => hl) none)
    (by simp [hk]) (by simp [hk])

/-- The value that an assignment assigns, if there is one, is a node. -/
theorem right_lt_size : ∀ a ∈ (s.tree.child? i .right).toList, a < s.tree.size :=
  fun _ ha => (Tree.lt_of_child? (Option.mem_toList.mp ha)).2

theorem Markup.noted_assignment (hk : c.kind = .markup) :
    Noted c s i m n (Markup.handleAssignment c s m i) (Markup.handleAssignment c s n i) := by
  have hsinks : ∀ x ∈ ["innerHTML", "outerHTML"], (Catalog.markup.sink? x).isSome = true := by
    decide
  unfold Markup.handleAssignment
  dsimp only
  split
  · exact .silent
  · rename_i hleft
    split
    · exact .silent
    · rename_i property hprop
      split
      · exact .silent
      · refine Markup.noted_asks hk ?_ c.sink?_classed right_lt_size rfl rfl fun _ => ?_
        · rw [catalog_of_kind (by simp [hk]), hk]
          exact hsinks property (by simpa using (Option.filter_eq_some_iff.mp hprop).2)
        · cases hl : s.tree.child? i .left with
          | none => simp [hl] at hleft
          | some left => rfl

/-- Only calls of three methods write markup. -/
theorem Markup.method_of_written (h : (Markup.writtenArguments s i).isEmpty = false) :
    ∃ x ∈ ["insertAdjacentHTML", "write", "writeln"], (s.callTarget i).method = some x := by
  unfold Markup.writtenArguments at h
  dsimp only at h
  split at h
  · rename_i hm
    simp only [Bool.and_eq_true, beq_iff_eq] at hm
    exact ⟨_, by simp, hm.1⟩
  · split at h
    · rename_i hm
      obtain ⟨x, hx, hw⟩ := (Option.any_eq_true _ _).mp (Bool.and_eq_true_iff.mp hm).1
      exact ⟨x, List.mem_cons_of_mem _ (by simpa using hw), hx⟩
    · simp at h

theorem Markup.mem_callArguments_of_written {a : Nat} (h : a ∈ Markup.writtenArguments s i) :
    a ∈ s.tree.callArguments i := by
  unfold Markup.writtenArguments at h
  dsimp only at h
  split at h
  · exact List.mem_of_mem_drop (List.mem_of_mem_take h)
  · split at h
    · exact h
    · simp at h

theorem Markup.noted_call (hk : c.kind = .markup) (hi : (s.tree.kind i).isCall = true) :
    Noted c s i m n (Markup.handleCall c s m i) (Markup.handleCall c s n i) := by
  have hsinks : ∀ x ∈ ["insertAdjacentHTML", "write", "writeln"],
      (Catalog.markup.sink? x).isSome = true := by decide
  unfold Markup.handleCall
  dsimp only
  split
  · exact .silent
  · rename_i hv
    obtain ⟨x, hx, hm⟩ := Markup.method_of_written (s := s) (i := i) (by simp at hv; simp [hv.1])
    refine Markup.noted_asks hk ?_ c.sinkOf?_classed ?_ rfl rfl fun ha => ?_
    · rw [catalog_of_kind (by simp [hk]), hk, hm]
      exact hsinks x hx
    · exact fun a ha => (Tree.lt_of_mem_callArguments (Markup.mem_callArguments_of_written ha)).2
    · cases hkind : s.tree.kind i <;> simp_all [Kind.isCall, Kind.isAssignment]

/-- The markup that an attribute sets is a node. -/
theorem Markup.lt_size_of_markupOf? {parts : List Nat} {a : Nat}
    (h : (Markup.attributeValue? s parts).bind (Markup.markupOf? s) = some a) :
    a < s.tree.size := by
  obtain ⟨value, hvalue, ha⟩ := Option.bind_eq_some_iff.mp h
  unfold Markup.markupOf? at ha
  dsimp only at ha
  split at ha
  · obtain ⟨pair, _, hchild⟩ := Option.bind_eq_some_iff.mp ha
    exact (Tree.lt_of_child? hchild).2
  · obtain ⟨e, _, hinner⟩ := Option.bind_eq_some_iff.mp hvalue
    obtain ⟨j, hj, rfl⟩ := Option.map_eq_some_iff.mp hinner
    cases ha
    exact Tree.unwrap_lt_size (Tree.lt_of_mem_namedChildren (List.mem_of_find?_eq_some hj)).2

theorem Markup.noted_attribute (hk : c.kind = .markup) (hi : s.tree.kind i = .jsxAttribute) :
    Noted c s i m n (Markup.handleAttribute c s m i) (Markup.handleAttribute c s n i) := by
  have hsink : (Catalog.markup.sink? Markup.markupAttribute).isSome = true := by decide
  unfold Markup.handleAttribute
  split
  · exact .silent
  · split
    · exact .silent
    · split
      · exact .silent
      · rename_i value hvalue
        split
        · exact .silent
        · refine Markup.noted_asks hk ?_ c.sink?_classed ?_ rfl rfl
            (by simp [hi, Kind.isAssignment])
          · rw [catalog_of_kind (by simp [hk]), hk]
            exact hsink
          · intro a ha
            rw [List.mem_singleton.mp ha]
            exact Markup.lt_size_of_markupOf? hvalue

/-- Only calls of three methods lead to another address. -/
theorem Redirect.method_of_address {object : String} {method : Option String} {a : Nat}
    (h : Redirect.callAddress? s i object method = some a) :
    ∃ x ∈ ["redirect", "replace", "assign"], method = some x := by
  unfold Redirect.callAddress? at h
  dsimp only at h
  split at h
  · rename_i hm
    exact ⟨"redirect", by simp, by simpa using hm⟩
  · split at h
    · rename_i hm
      obtain ⟨x, hx, hw⟩ := (Option.any_eq_true _ _).mp (Bool.and_eq_true_iff.mp hm).1
      exact ⟨x, List.mem_cons_of_mem _ (by simpa using hw), hx⟩
    · cases h

theorem Redirect.mem_callArguments_of_address {object : String} {method : Option String} {a : Nat}
    (h : Redirect.callAddress? s i object method = some a) : a ∈ s.tree.callArguments i := by
  unfold Redirect.callAddress? at h
  dsimp only at h
  split at h
  · exact List.mem_of_getLast? h
  · split at h
    · exact List.mem_of_head? h
    · cases h

theorem Redirect.noted_call (hk : c.kind = .redirect) :
    Noted c s i m n (Redirect.handleCall c s m i) (Redirect.handleCall c s n i) := by
  have hsinks : ∀ x ∈ ["redirect", "replace", "assign"],
      (Catalog.redirect.sink? x).isSome = true := by decide
  unfold Redirect.handleCall
  dsimp only
  split
  · exact .silent
  · split
    · exact .silent
    · rename_i haddr
      split
      · exact .silent
      · refine noted_asks (by simp [hk]) ?_ c.sinkOf?_classed ?_ rfl fun _ => rfl
        · obtain ⟨x, hx, hm⟩ := Redirect.method_of_address haddr
          rw [catalog_of_kind (by simp [hk]), hk, hm]
          exact hsinks x hx
        · intro a ha
          rw [List.mem_singleton.mp ha]
          exact (Tree.lt_of_mem_callArguments (Redirect.mem_callArguments_of_address haddr)).2

theorem Redirect.noted_assignment (hk : c.kind = .redirect) :
    Noted c s i m n (Redirect.handleAssignment c s m i) (Redirect.handleAssignment c s n i) := by
  have hsinks : ∀ x ∈ ["href", "location"], (Catalog.redirect.sink? x).isSome = true := by decide
  unfold Redirect.handleAssignment
  dsimp only
  split
  · exact .silent
  · split
    · exact .silent
    · refine noted_asks (by simp [hk]) ?_ c.sink?_classed right_lt_size rfl fun _ => rfl
      rw [catalog_of_kind (by simp [hk]), hk]
      refine hsinks _ ?_
      split
      · simp
      · simp

theorem Cookie.noted_call (hk : c.kind = .cookie) :
    Noted c s i m n (Cookie.handleCall c s m i) (Cookie.handleCall c s n i) := by
  have hsink : (Catalog.cookie.sink? "cookie").isSome = true := by decide
  unfold Cookie.handleCall
  dsimp only
  split
  · exact .silent
  · refine noted_asks (by simp [hk]) ?_ c.sink?_classed (by simp) rfl (by simp [hk])
    rw [catalog_of_kind (by simp [hk]), hk]
    exact hsink

theorem Cookie.scriptCookie_known (hk : c.kind = .cookie) :
    (c.catalog.sink? Cookie.scriptCookie).isSome = true := by
  have hsink : (Catalog.cookie.sink? Cookie.scriptCookie).isSome = true := by decide
  rw [catalog_of_kind (by simp [hk]), hk]
  exact hsink

theorem Cookie.noted_assignment (hk : c.kind = .cookie) :
    Noted c s i m n (Cookie.handleAssignment c s m i) (Cookie.handleAssignment c s n i) := by
  unfold Cookie.handleAssignment
  dsimp only
  split
  · exact .silent
  · exact noted_asks (by simp [hk]) (Cookie.scriptCookie_known hk) c.sink?_classed right_lt_size
      rfl (by simp [hk])

theorem Cookie.isAssigned_error {f : Fault} (h : Cookie.isAssigned s i = .error f) :
    f = .noTarget ∧ Untargeted s.tree := by
  unfold Cookie.isAssigned at h
  split at h
  · cases h
  · rename_i parent hp
    split at h
    · rename_i hl
      cases h
      exact ⟨rfl, parent, (Option.filter_eq_some_iff.mp hp).2, hl⟩
    · cases h

theorem Cookie.noted_member (hk : c.kind = .cookie) :
    Noted c s i m n (Cookie.handleMember c s m i) (Cookie.handleMember c s n i) := by
  unfold Cookie.handleMember
  split
  · exact .silent
  · cases ha : Cookie.isAssigned s i with
    | error f =>
      obtain ⟨rfl, hu⟩ := Cookie.isAssigned_error ha
      exact .fault hu
    | ok assigned =>
      simp only [bind, Except.bind]
      split
      · exact .silent
      · obtain ⟨p, hp⟩ := Option.isSome_iff_exists.mp (Cookie.scriptCookie_known hk)
        exact .asks (.report _ _ _) ⟨⟨p, hp, c.sink?_classed p hp⟩, by simp, by simp [hk]⟩
          (by simp [hk]) (by simp [hk])

/-- The sink of a call that sets headers is listed, and is one that is dangerous as such. -/
theorem Header.sink_known (h : (Header.headerNames? s i).isSome = true) :
    ∃ p, Catalog.header.sinkOf? (s.callTarget i).method = some p ∧ p.dangerous = true := by
  have hs : Header.setsHeaders (s.callTarget i) = true := by
    unfold Header.headerNames? at h
    split at h
    · rename_i hc
      exact (Bool.and_eq_true_iff.mp hc).2
    · simp at h
  have hm : ∃ x ∈ ["setHeader", "header", "set"], (s.callTarget i).method = some x := by
    rcases Bool.or_eq_true_iff.mp hs with hs | hs
    · exact ⟨"setHeader", by simp, by simpa using (Bool.and_eq_true_iff.mp hs).1⟩
    · obtain ⟨x, hx, hw⟩ := (Option.any_eq_true _ _).mp (Bool.and_eq_true_iff.mp hs).1
      exact ⟨x, List.mem_cons_of_mem _ (by simpa using hw), hx⟩
  have hsinks : ∀ x ∈ ["setHeader", "header", "set"],
      (Catalog.header.sink? x).any (·.dangerous) = true := by decide
  obtain ⟨x, hx, hm⟩ := hm
  rw [hm]
  exact (Option.any_eq_true _ _).mp (hsinks x hx)

theorem Header.noted (hk : c.kind = .header) (hu : m.usesHelmet = n.usesHelmet)
    (he : m.emitter = n.emitter) :
    Noted c s i m n (Header.handleCall c s m i) (Header.handleCall c s n i) := by
  have hguard : (m.usesHelmet || (Header.headerNames? s i).isNone || c.ignores [some (s.text i)]) =
      (n.usesHelmet || (Header.headerNames? s i).isNone || c.ignores [some (s.text i)]) := by
    rw [hu]
  unfold Header.handleCall
  rw [hguard, ← he]
  dsimp only
  split
  · exact .silent
  · rename_i hg
    have hn : (Header.headerNames? s i).isSome = true := by
      cases hn : Header.headerNames? s i with
      | none => simp [hn] at hg
      | some names => rfl
    split
    · exact .claims _ none (by simp) hk
    · refine .claims _ (some (.evaluate _)) ?_ hk
      rintro _ ⟨⟩
      obtain ⟨p, hp, _⟩ := Header.sink_known hn
      refine exists_evaluable (by simp [hk]) ?_ c.sinkOf?_classed (by simp [Header.inquiry]) rfl
        (by simp [hk]) (by simp [hk]) none
      rw [Header.inquiry, catalog_of_kind (by simp [hk]), hk]
      exact Option.isSome_iff_exists.mpr ⟨p, hp⟩

theorem handle_noted (h : Tells c.kind m n) :
    Noted c s i m n (handle c s m i) (handle c s n i) := by
  unfold handle
  dsimp only
  split
  · exact .silent
  · rename_i hk
    split
    · exact Command.noted hk (h.aliases hk) (h.bound hk)
    · exact .silent
  · rename_i hk
    split
    · exact Code.noted hk
    · exact .silent
  · rename_i hk
    split
    · exact Regex.noted_call hk
    · split
      · exact Regex.noted_literal hk
      · exact .silent
  · rename_i hk
    split
    · exact Markup.noted_call hk ‹_›
    · split
      · exact Markup.noted_assignment hk
      · split
        · exact Markup.noted_attribute hk (beq_iff_eq.mp ‹_›)
        · exact .silent
  · rename_i hk
    split
    · exact Redirect.noted_call hk
    · split
      · exact Redirect.noted_assignment hk
      · exact .silent
  · rename_i hk
    split
    · exact Cookie.noted_call hk
    · split
      · exact Cookie.noted_assignment hk
      · split
        · exact Cookie.noted_member hk
        · exact .silent
  · rename_i hk
    split
    · exact Header.noted hk (h.helmet hk) (h.emitter hk)
    · exact .silent

/-! ## Answers -/

/-- What is said of a sink depends on the notes of two checks only. -/
theorem describe_congr {p : SinkPattern} {v : Verdict}
    (hc : c.kind = .code → m.category = n.category)
    (hr : c.kind = .regex → m.shape = n.shape) : describe c m p v = describe c n p v := by
  unfold describe
  split
  · rfl
  · rename_i hk
    simp only [Code.describe, Code.advice, Code.strategy, Code.alternative, hc hk]
  · rename_i hk
    simp only [Regex.describe, hr hk]
  all_goals rfl

theorem suggest_congr {p : SinkPattern} (hc : c.kind = .code → m.category = n.category) :
    suggest c s m p i = suggest c s n p i := by
  unfold suggest
  split
  · rfl
  · rename_i hk
    simp only [Code.suggest, Code.strategy, Code.alternative, hc hk]
  all_goals rfl

structure Wordable (c : Check) (s : Source) (m : Memory) (i : Nat) (p : SinkPattern) : Prop where
  /-- Code that is to be refactored can be refactored to something. -/
  alternative : c.kind = .code → Code.strategy c m = .remove ∨ Code.strategy c m = .validate ∨
    (m.category.getD p).safeAlternatives ≠ []
  /-- An assignment that becomes markup has a target. -/
  target : c.kind = .markup → (s.tree.kind i).isAssignment = true →
    (s.tree.child? i .left).isSome = true

theorem Evaluable.wordable {q : Inquiry} {p : SinkPattern} (h : Evaluable c s i m.category q p) :
    Wordable c s m i p :=
  ⟨fun hk => .inr (.inr (h.alternative hk)), h.target⟩

theorem Code.alternative_ok {p : SinkPattern} (h : (m.category.getD p).safeAlternatives ≠ []) :
    ∃ a, Code.alternative m p = .ok a := by
  unfold Code.alternative
  split
  · exact ⟨_, rfl⟩
  · rename_i he
    exact absurd he h

theorem Code.advice_ok {p : SinkPattern} (h : Code.strategy c m = .remove ∨
    Code.strategy c m = .validate ∨ (m.category.getD p).safeAlternatives ≠ []) :
    ∃ a, Code.advice c m p = .ok a := by
  unfold Code.advice
  split
  · exact ⟨_, rfl⟩
  · exact ⟨_, rfl⟩
  · rename_i hremove hvalidate
    obtain ⟨a, ha⟩ := Code.alternative_ok ((h.resolve_left hremove).resolve_left hvalidate)
    rw [ha]
    exact ⟨_, rfl⟩

theorem Code.suggest_ok {p : SinkPattern} (h : Code.strategy c m = .remove ∨
    Code.strategy c m = .validate ∨ (m.category.getD p).safeAlternatives ≠ []) :
    ∃ fixes, Code.suggest c m p = .ok fixes := by
  unfold Code.suggest
  split
  · exact ⟨_, rfl⟩
  · exact ⟨_, rfl⟩
  · rename_i hremove hvalidate
    obtain ⟨a, ha⟩ := Code.alternative_ok ((h.resolve_left hremove).resolve_left hvalidate)
    rw [ha]
    exact ⟨_, rfl⟩

theorem describe_ok {p : SinkPattern} (h : Wordable c s m i p) (v : Verdict) :
    ∃ text, describe c m p v = .ok text := by
  unfold describe
  split
  case h_2 hk =>
    obtain ⟨a, ha⟩ := Code.advice_ok (h.alternative hk)
    rw [Code.describe, ha]
    exact ⟨_, rfl⟩
  all_goals exact ⟨_, rfl⟩

theorem suggest_ok {p : SinkPattern} (h : Wordable c s m i p) :
    ∃ fixes, suggest c s m p i = .ok fixes := by
  unfold suggest
  split
  case h_2 hk => exact Code.suggest_ok (h.alternative hk)
  case h_4 hk =>
    unfold Markup.suggest
    dsimp only
    split
    · rename_i ha
      obtain ⟨left, hl⟩ := Option.isSome_iff_exists.mp (h.target hk ha)
      rw [hl]
      exact ⟨_, rfl⟩
    · exact ⟨_, rfl⟩
  all_goals exact ⟨_, rfl⟩

/-- One more finding, about a node, or none. -/
structure Grows (s : Source) (i : Nat) (e e' : Emitter) : Prop where
  check : e'.check = e.check
  path : e'.path = e.path
  findings : e'.findings = e.findings ∨ ∃ p risk message advice,
    e'.findings = e.findings ++ [e.finding s i p risk message advice]

theorem findingFor_of_wordable {q : Inquiry} {p : SinkPattern} (hq : q.sink = some p)
    (h : Wordable c s m i p) (v : Verdict) : ∃ message fixes,
      findingFor c s m i q v = .ok (m.emitter.finding s i p (.classify p v q.structural) message
        { suggestions := fixes, remediation := q.remediation, alternatives := q.alternatives
          effort := q.effort }) := by
  obtain ⟨text, htext⟩ := describe_ok h v
  obtain ⟨fixes, hfixes⟩ := suggest_ok h
  unfold findingFor
  rw [hq]
  dsimp only
  split
  · rw [hfixes]
    exact ⟨_, _, rfl⟩
  · rw [htext, hfixes]
    exact ⟨_, _, rfl⟩

theorem findingFor_ok {q : Inquiry} {v : Verdict}
    (h : Answerable c s i m.category (.evaluate q)) :
    ∃ p risk message advice,
      findingFor c s m i q v = .ok (m.emitter.finding s i p risk message advice) := by
  obtain ⟨p, hp⟩ := h
  obtain ⟨message, fixes, hf⟩ := findingFor_of_wordable hp.sink hp.wordable v
  exact ⟨p, _, message, _, hf⟩

theorem answer_ok {r : Option Request} (h : ∀ q ∈ r, Answerable c s i m.category q) :
    ∃ m', answer c s m i r = .ok m' ∧ Grows s i m.emitter m'.emitter := by
  match r with
  | none => exact ⟨m, rfl, rfl, rfl, .inl rfl⟩
  | some (.report sink risk message) =>
    obtain ⟨⟨p, rfl, _⟩, _⟩ := h _ rfl
    exact ⟨_, rfl, rfl, rfl, .inr ⟨p, risk, message, {}, rfl⟩⟩
  | some (.evaluate q) =>
    unfold answer evaluate
    dsimp only
    split
    · exact ⟨_, rfl, rfl, rfl, .inl rfl⟩
    · rename_i v _
      -- the log that evaluation keeps is not part of what a finding says
      let m₁ := { m with log := m.log ++ (exposures c s i q.arguments).flatMap (exposureLog s i) }
      obtain ⟨p, risk, message, advice, hf⟩ := findingFor_ok (m := m₁) (v := v) (h _ rfl)
      rw [hf]
      exact ⟨_, rfl, rfl, rfl, .inr ⟨p, risk, message, advice, rfl⟩⟩

/-- Two memories that a check cannot tell apart when it evaluates. -/
structure Focused (kind : CheckKind) (m n : Memory) : Prop extends Agree kind m n where
  category : kind = .code → m.category = n.category
  shape : kind = .regex → m.shape = n.shape

structure Words (kind : CheckKind) (m n : Memory) : Prop where
  check : m.emitter.check = n.emitter.check
  path : m.emitter.path = n.emitter.path
  category : kind = .code → m.category = n.category
  shape : kind = .regex → m.shape = n.shape

theorem Focused.words {kind : CheckKind} (h : Focused kind m n) : Words kind m n :=
  ⟨congrArg Emitter.check h.emitter, congrArg Emitter.path h.emitter, h.category, h.shape⟩

theorem finding_congr {e e' : Emitter} (hc : e.check = e'.check) (hp : e.path = e'.path)
    (p : SinkPattern) (risk : Risk) (message : String) (advice : Advice) :
    e.finding s i p risk message advice = e'.finding s i p risk message advice := by
  simp only [Emitter.finding, hc, hp]

theorem findingFor_congr {q : Inquiry} {v : Verdict} (h : Words c.kind m n) :
    findingFor c s m i q v = findingFor c s n i q v := by
  unfold findingFor
  split
  · rfl
  · rename_i p _
    rw [describe_congr (p := p) (v := v) h.category h.shape,
      suggest_congr (p := p) (s := s) (i := i) h.category]
    simp only [finding_congr h.check h.path]

theorem answer_alike {r : Option Request} (h : Focused c.kind m n) :
    Alike (Agree c.kind) (answer c s m i r) (answer c s n i r) := by
  match r with
  | none => exact .ok h.toAgree
  | some (.report none risk message) => exact .error _
  | some (.report (some p) risk message) =>
    unfold answer
    rw [h.emitter]
    exact .ok ⟨rfl, h.log, h.aliases, h.bound, h.helmet⟩
  | some (.evaluate q) =>
    unfold answer evaluate
    dsimp only
    rw [h.log]
    split
    · exact .ok ⟨h.emitter, rfl, h.aliases, h.bound, h.helmet⟩
    · rename_i v _
      let log := n.log ++ (exposures c s i q.arguments).flatMap (exposureLog s i)
      have hf : findingFor c s { m with log } i q v = findingFor c s { n with log } i q v :=
        findingFor_congr ⟨h.words.check, h.words.path, h.category, h.shape⟩
      rw [hf]
      cases findingFor c s { n with log } i q v with
      | error f => exact .error f
      | ok f =>
        rw [h.emitter]
        exact .ok ⟨rfl, rfl, h.aliases, h.bound, h.helmet⟩

end

/-! ## Visits and runs -/

section
variable {c : Check} {s : Source} {m n : Memory} {i : Nat}

def Fails (t : Tree) (f : Fault) : Prop := f = .noTarget ∧ Untargeted t

/-- What coming to a node leaves as it was; what it asks for can be answered. -/
structure Handled (c : Check) (s : Source) (i : Nat) (m m' : Memory) (r : Option Request) :
    Prop where
  answerable : ∀ q ∈ r, Answerable c s i m'.category q
  check : m'.emitter.check = m.emitter.check
  path : m'.emitter.path = m.emitter.path
  findings : m'.emitter.findings = m.emitter.findings
  aliases : m'.aliases = m.aliases
  bound : m'.boundFunctions = m.boundFunctions

theorem handle_ends (c : Check) (s : Source) (m : Memory) (i : Nat) :
    Ends (Fails s.tree) (fun x => Handled c s i m x.1 x.2) (handle c s m i) := by
  have hn := handle_noted (s := s) (i := i) (Agree.refl c.kind m).tells
  revert hn
  generalize handle c s m i = x
  intro hn
  cases hn with
  | fault h => exact .error ⟨rfl, h⟩
  | silent => exact .ok ⟨by simp, rfl, rfl, rfl, rfl, rfl⟩
  | asks r h hc _ =>
    refine .ok ⟨?_, rfl, rfl, rfl, rfl, rfl⟩
    rintro _ ⟨⟩
    exact h.of_not_code hc _
  | category k r h _ =>
    refine .ok ⟨?_, rfl, rfl, rfl, rfl, rfl⟩
    rintro _ ⟨⟩
    exact h
  | shape k r h hr =>
    refine .ok ⟨?_, rfl, rfl, rfl, rfl, rfl⟩
    rintro _ ⟨⟩
    exact h.of_not_code (by simp [hr]) _
  | claims k r h hh =>
    have hclaim : (m.emitter.claim k).1.check = m.emitter.check ∧
        (m.emitter.claim k).1.path = m.emitter.path ∧
        (m.emitter.claim k).1.findings = m.emitter.findings := by
      unfold Emitter.claim
      split
      · exact ⟨rfl, rfl, rfl⟩
      · exact ⟨rfl, rfl, rfl⟩
    refine .ok ⟨?_, hclaim.1, hclaim.2.1, hclaim.2.2, rfl, rfl⟩
    intro q hq
    exact (h q hq).of_not_code (by simp [hh]) _

theorem visit_eq (c : Check) (s : Source) (m : Memory) (i : Nat) :
    visit c s m i = handle c s m i >>= fun x => answer c s x.1 i x.2 := rfl

theorem visit_ends (c : Check) (s : Source) (m : Memory) (i : Nat) :
    Ends (Fails s.tree) (fun m' => Grows s i m.emitter m'.emitter) (visit c s m i) := by
  rw [visit_eq]
  refine (handle_ends c s m i).bind fun x hx => ?_
  obtain ⟨m', ha, hg⟩ := answer_ok hx.answerable
  rw [ha]
  refine .ok ⟨hg.check.trans hx.check, hg.path.trans hx.path, ?_⟩
  rw [← hx.findings]
  simpa only [finding_congr hx.check hx.path] using hg.findings

theorem visit_alike (h : Agree c.kind m n) :
    Alike (Agree c.kind) (visit c s m i) (visit c s n i) := by
  have hn := handle_noted (s := s) (i := i) h.tells
  unfold visit
  revert hn
  generalize handle c s m i = x
  generalize handle c s n i = y
  intro hn
  cases hn with
  | fault _ => exact .error _
  | silent => exact .ok h
  | asks r _ hc hr => exact answer_alike ⟨h, fun hk => absurd hk hc, fun hk => absurd hk hr⟩
  | category k r _ hc =>
    exact answer_alike
      ⟨⟨h.emitter, h.log, h.aliases, h.bound, h.helmet⟩, fun _ => rfl, by simp [hc]⟩
  | shape k r _ hr =>
    exact answer_alike
      ⟨⟨h.emitter, h.log, h.aliases, h.bound, h.helmet⟩, by simp [hr], fun _ => rfl⟩
  | claims k r _ hh =>
    exact answer_alike ⟨⟨rfl, h.log, h.aliases, h.bound, h.helmet⟩, by simp [hh], by simp [hh]⟩

theorem prepare_emitter (c : Check) (s : Source) (m : Memory) :
    (prepare c s m).emitter = m.emitter := by
  unfold prepare
  split
  · rfl
  · rfl
  · rfl

/-- Findings, each about a node, in the order of the nodes. -/
def Anchored (s : Source) (e : Emitter) (nodes : List Nat) (findings : List Finding) : Prop :=
  ∃ anchors : List Nat, anchors.Sublist nodes ∧
    List.Forall₂ (fun i f => ∃ p risk message advice, f = e.finding s i p risk message advice)
      anchors findings

theorem Anchored.mem {e : Emitter} {nodes : List Nat} {findings : List Finding}
    (h : Anchored s e nodes findings) {f : Finding} (hf : f ∈ findings) :
    ∃ i ∈ nodes, ∃ p risk message advice, f = e.finding s i p risk message advice := by
  obtain ⟨anchors, hsub, hall⟩ := h
  obtain ⟨i, hi, hf⟩ := exists_of_forall₂ hall hf
  exact ⟨i, hsub.subset hi, hf⟩

theorem Anchored.grows {e e' e₀ : Emitter} {nodes : List Nat} (h : Anchored s e₀ nodes e.findings)
    (hc : e.check = e₀.check) (hp : e.path = e₀.path) (hg : Grows s i e e') :
    Anchored s e₀ (nodes ++ [i]) e'.findings := by
  obtain ⟨anchors, hsub, hf⟩ := h
  rcases hg.findings with he | ⟨p, risk, message, advice, he⟩
  · exact he ▸ ⟨anchors, hsub.trans (List.sublist_append_left nodes [i]), hf⟩
  · refine he ▸ ⟨anchors ++ [i], hsub.append (List.Sublist.refl [i]), ?_⟩
    exact List.rel_append hf (.cons ⟨p, risk, message, advice, finding_congr hc hp ..⟩ .nil)

theorem run_ends (c : Check) (s : Source) (path : Path) (m : Memory) :
    Ends (Fails s.tree) (fun m' => m'.emitter.check = m.emitter.check ∧ m'.emitter.path = path ∧
      Anchored s (m.emitter.reset path) s.tree.all m'.emitter.findings) (run c s path m) := by
  unfold run
  dsimp only
  split
  · exact .ok ⟨rfl, rfl, [], List.nil_sublist _, .nil⟩
  · refine Ends.foldlM (fun done (m' : Memory) => m'.emitter.check = m.emitter.check ∧
      m'.emitter.path = path ∧ Anchored s (m.emitter.reset path) done m'.emitter.findings) ?_ ?_
    · rw [prepare_emitter]
      exact ⟨rfl, rfl, [], .slnil, .nil⟩
    · rintro done i m' _ ⟨hc, hp, ha⟩
      exact (visit_ends c s m' i).imp fun m'' hg =>
        ⟨hg.check.trans hc, hg.path.trans hp, ha.grows hc hp hg⟩

/-- A run does not depend on what the check remembers, its own identifier apart. -/
theorem run_alike (c : Check) (s : Source) (path : Path) (h : m.emitter.check = n.emitter.check) :
    Alike (fun m' n' => m'.emitter = n'.emitter ∧ m'.log = n'.log) (run c s path m)
      (run c s path n) := by
  have hreset : m.emitter.reset path = n.emitter.reset path := by simp only [Emitter.reset, h]
  unfold run
  dsimp only
  split
  · exact .ok ⟨hreset, rfl⟩
  · have hprepared : Agree c.kind (prepare c s (start m path)) (prepare c s (start n path)) := by
      refine ⟨?_, ?_, ?_, ?_, ?_⟩
      · rw [prepare_emitter, prepare_emitter]
        exact hreset
      · unfold prepare
        split
        · rfl
        · rfl
        · rfl
      · intro hk
        simp only [prepare, hk, Command.prepare]
      · intro hk
        simp only [prepare, hk, Command.prepare]
      · intro hk
        simp only [prepare, hk, Header.prepare]
    have hloop := Alike.foldlM (R := Agree c.kind) (f := visit c s) (g := visit c s)
      (fun _ _ _ => visit_alike) (l := s.tree.all) hprepared
    exact hloop.imp fun _ _ ha => ⟨ha.emitter, ha.log⟩

end

end SinkAudit.Check
