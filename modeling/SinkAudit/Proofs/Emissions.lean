import Mathlib.Data.List.Induction
import SinkAudit.Proofs.Header

/-! # What emitters remember

An emitter has two memories, for findings and for claimed scopes, and a reset empties both. Between
resets each operation adds to at most one of them and reads at most one: so a claim is answered from
the claims since the last reset alone, and the findings are those made since then, whatever was
claimed meanwhile (`after_remembers_since_reset`). -/
namespace SinkAudit.Emitter

/-- What is asked of an emitter. -/
inductive Operation where
  /-- To begin a file. -/
  | reset (path : Path)
  /-- To claim a scope of a tree. -/
  | claim (t : Tree) (scope : Scope)
  /-- To hold a finding about a node. -/
  | emit (s : Source) (node : Nat) (sink : SinkPattern) (risk : Risk) (message : String)
      (advice : Advice)

inductive Answer where
  | begun
  | claimed (free : Bool)
  | emitted (f : Finding)

def Operation.isReset : Operation → Bool
  | .reset _ => true
  | _ => false

def Operation.key? : Operation → Option Tree.Key
  | .claim t scope => some (t.key scope.node)
  | _ => none

def Operation.finding? (e : Emitter) : Operation → Option Finding
  | .emit s i p risk message advice => some (e.finding s i p risk message advice)
  | _ => none

def Answer.finding? : Answer → Option Finding
  | .emitted f => some f
  | _ => none

def perform (e : Emitter) : Operation → Emitter × Answer
  | .reset path => (e.reset path, .begun)
  | .claim t scope =>
    ((e.claim (t.key scope.node)).1, .claimed (e.claim (t.key scope.node)).2)
  | .emit s i p risk message advice =>
    (e.push (e.finding s i p risk message advice), .emitted (e.finding s i p risk message advice))

def after (e : Emitter) : List Operation → Emitter
  | [] => e
  | op :: ops => (e.perform op).1.after ops

def answers (e : Emitter) : List Operation → List Answer
  | [] => []
  | op :: ops => (e.perform op).2 :: (e.perform op).1.answers ops

section
variable (e : Emitter) (ops more : List Operation)

theorem after_append : e.after (ops ++ more) = (e.after ops).after more := by
  induction ops generalizing e with
  | nil => rfl
  | cons op ops ih => exact ih _

theorem answers_append :
    e.answers (ops ++ more) = e.answers ops ++ (e.after ops).answers more := by
  induction ops generalizing e with
  | nil => rfl
  | cons op ops ih => exact congrArg _ (ih _)

end

/-! ## One operation -/

section
variable {e : Emitter} {op : Operation} {f : Finding} {k : Tree.Key}

open Check.Header (claim_of_mem claim_of_not_mem)

/-- A claim adds its key, and changes nothing else whether it is granted or refused. -/
theorem claim_fst (e : Emitter) (k : Tree.Key) : ∃ claimed, (∀ k', k' ∈ claimed ↔
    k' ∈ e.claimed ∨ k' = k) ∧ (e.claim k).1 = { e with claimed } := by
  by_cases hk : k ∈ e.claimed
  · refine ⟨e.claimed, fun k' => ⟨.inl, fun h => ?_⟩, by rw [claim_of_mem hk]⟩
    exact h.elim id fun heq => heq ▸ hk
  · exact ⟨e.claimed ++ [k], by simp, by rw [claim_of_not_mem hk]⟩

theorem claim_snd_iff : (e.claim k).2 = true ↔ k ∉ e.claimed := by
  by_cases hk : k ∈ e.claimed
  · simp [claim_of_mem hk, hk]
  · simp [claim_of_not_mem hk, hk]

theorem perform_check (e : Emitter) (op : Operation) : (e.perform op).1.check = e.check := by
  cases op with
  | reset path => rfl
  | claim t scope =>
    obtain ⟨claimed, -, hclaim⟩ := claim_fst e (t.key scope.node)
    rw [perform, hclaim]
  | emit s i p risk message advice => rfl

/-- Between resets the path stays, findings are added by what asks for them, and keys by what claims
them. -/
theorem perform_grows (h : op.isReset = false) :
    (e.perform op).1.path = e.path ∧
      (e.perform op).1.findings = e.findings ++ (op.finding? e).toList ∧
      ∀ k, k ∈ (e.perform op).1.claimed ↔ k ∈ e.claimed ∨ op.key? = some k := by
  cases op with
  | reset path => cases h
  | claim t scope =>
    obtain ⟨claimed, hkeys, hclaim⟩ := claim_fst e (t.key scope.node)
    rw [perform, hclaim]
    refine ⟨rfl, (List.append_nil _).symm, fun k => (hkeys k).trans (or_congr_right ?_)⟩
    exact ⟨fun heq => heq ▸ rfl, fun heq => (Option.some.inj heq).symm⟩
  | emit s i p risk message advice =>
    exact ⟨rfl, rfl, fun k => (or_iff_left (Option.some_ne_none k).symm).symm⟩

/-- What is asked for is answered with. -/
theorem finding?_answer (e : Emitter) (op : Operation) :
    (e.perform op).2.finding? = op.finding? e := by
  cases op with
  | reset path => rfl
  | claim t scope => rfl
  | emit s i p risk message advice => rfl

/-- A finding is made by the check and the path of the emitter alone. -/
theorem finding?_congr {e' : Emitter} (hcheck : e.check = e'.check) (hpath : e.path = e'.path)
    (op : Operation) : op.finding? e = op.finding? e' := by
  cases op with
  | reset path => rfl
  | claim t scope => rfl
  | emit s i p risk message advice =>
    simp only [Operation.finding?, Emitter.finding, hcheck, hpath]

theorem path_of_finding? (h : op.finding? e = some f) : f.path = e.path := by
  cases op with
  | reset path => cases h
  | claim t scope => cases h
  | emit s i p risk message advice =>
    cases h
    rfl

end

/-! ## Between resets -/

section
variable {e : Emitter} {recent : List Operation} (h : ∀ op ∈ recent, op.isReset = false)

include h

theorem after_grows :
    (e.after recent).path = e.path ∧
      (e.after recent).findings = e.findings ++ recent.filterMap (Operation.finding? e) ∧
      ∀ k, k ∈ (e.after recent).claimed ↔ k ∈ e.claimed ∨ ∃ op ∈ recent, op.key? = some k := by
  induction recent generalizing e with
  | nil => exact ⟨rfl, (List.append_nil _).symm, fun k => by simp [after]⟩
  | cons op recent ih =>
    obtain ⟨hpath, hfindings, hclaimed⟩ := perform_grows (e := e) (h op (by simp))
    obtain ⟨hpath', hfindings', hclaimed'⟩ :=
      ih (e := (e.perform op).1) fun op' hop' => h op' (by simp [hop'])
    refine ⟨hpath'.trans hpath, ?_, fun k => ?_⟩
    · rw [after, hfindings', hfindings, List.append_assoc, List.filterMap_cons,
        funext (finding?_congr (perform_check e op) hpath)]
      cases op.finding? e with
      | none => rfl
      | some f => rfl
    · rw [after, hclaimed', hclaimed, or_assoc]
      simp

/-- The answers hold the findings that were asked for. -/
theorem filterMap_answers :
    (e.answers recent).filterMap Answer.finding? = recent.filterMap (Operation.finding? e) := by
  induction recent generalizing e with
  | nil => rfl
  | cons op recent ih =>
    obtain ⟨hpath, -, -⟩ := perform_grows (e := e) (h op (by simp))
    have hrest := ih (e := (e.perform op).1) fun op' hop' => h op' (by simp [hop'])
    rw [funext (finding?_congr (perform_check e op) hpath)] at hrest
    rw [answers, List.filterMap_cons, List.filterMap_cons, finding?_answer, hrest]

/-- Every finding that is made carries the path. -/
theorem path_of_mem_answers {f : Finding} (hf : .emitted f ∈ e.answers recent) :
    f.path = e.path := by
  have hmade : f ∈ (e.answers recent).filterMap Answer.finding? :=
    List.mem_filterMap.mpr ⟨_, hf, rfl⟩
  rw [filterMap_answers h] at hmade
  obtain ⟨op, -, hop⟩ := List.mem_filterMap.mp hmade
  exact path_of_finding? hop

end

/-! ## Since the last reset -/

/-- The emitter as it was before any operation, or as a reset at the end of some left it. -/
inductive Begins (e : Emitter) : List Operation → Emitter → Prop
  | start : Begins e [] e
  | reset (earlier : List Operation) (path : Path) :
      Begins e (earlier ++ [.reset path]) { check := e.check, path }

theorem after_check (e : Emitter) (ops : List Operation) : (e.after ops).check = e.check := by
  induction ops generalizing e with
  | nil => rfl
  | cons op ops ih => exact (ih _).trans (perform_check e op)

theorem Begins.after_eq {e base : Emitter} {before : List Operation} (h : Begins e before base) :
    e.after before = base := by
  cases h with
  | start => rfl
  | reset earlier path =>
    rw [after_append, ← after_check e earlier]
    rfl

/-- Any operations can be divided at the last reset. -/
theorem exists_begins (e : Emitter) (ops : List Operation) :
    ∃ before recent base, ops = before ++ recent ∧ Begins e before base ∧
      ∀ op ∈ recent, op.isReset = false := by
  induction ops using List.reverseRecOn with
  | nil => exact ⟨[], [], e, rfl, .start, by simp⟩
  | append_singleton ops op ih =>
    cases hop : op.isReset with
    | true =>
      cases op with
      | reset path => exact ⟨_, [], _, (List.append_nil _).symm, .reset ops path, by simp⟩
      | claim t scope => cases hop
      | emit s i p risk message advice => cases hop
    | false =>
      obtain ⟨before, recent, base, rfl, hbegins, hrecent⟩ := ih
      refine ⟨before, recent ++ [op], base, List.append_assoc .., hbegins, fun op' hop' => ?_⟩
      obtain hold | hnew := List.mem_append.mp hop'
      · exact hrecent op' hold
      · cases List.mem_singleton.mp hnew
        exact hop

/-- What an emitter remembers that began in some state and was asked for some operations since. -/
structure Remembers (base : Emitter) (recent : List Operation) (now : Emitter) : Prop where
  /-- The findings are those that were to be made, in order. -/
  findings : now.findings = base.findings ++ recent.filterMap (Operation.finding? base)
  answered : (base.answers recent).filterMap Answer.finding? =
    recent.filterMap (Operation.finding? base)
  path : ∀ f, .emitted f ∈ base.answers recent → f.path = base.path
  /-- A scope is free exactly if none with its key has been claimed. -/
  free : ∀ (t : Tree) (scope : Scope), (now.perform (.claim t scope)).2 = .claimed true ↔
    t.key scope.node ∉ base.claimed ∧
      ∀ t' scope', .claim t' scope' ∈ recent → t'.key scope'.node ≠ t.key scope.node
  /-- A claim leaves the findings alone, be it granted or refused. -/
  kept : ∀ (t : Tree) (scope : Scope), (now.perform (.claim t scope)).1.findings = now.findings

theorem remembers_after {base : Emitter} {recent : List Operation}
    (h : ∀ op ∈ recent, op.isReset = false) : Remembers base recent (base.after recent) where
  findings := (after_grows h).2.1
  answered := filterMap_answers h
  path _ := path_of_mem_answers h
  free t scope := by
    have hanswer (now : Emitter) : (now.perform (.claim t scope)).2 = .claimed true ↔
        t.key scope.node ∉ now.claimed := by
      rw [← claim_snd_iff, perform, Answer.claimed.injEq]
    rw [hanswer, (after_grows h).2.2, not_or]
    refine and_congr_right fun _ => ⟨fun hnone t' scope' hmem heq => ?_, ?_⟩
    · exact hnone ⟨_, hmem, congrArg some heq⟩
    · rintro hnone ⟨op, hmem, hkey⟩
      cases op with
      | claim t' scope' => exact hnone t' scope' hmem (Option.some.inj hkey)
      | reset path => cases hkey
      | emit s i p risk message advice => cases hkey
  kept t scope := by
    obtain ⟨claimed, -, hclaim⟩ := claim_fst (base.after recent) (t.key scope.node)
    rw [perform, hclaim]

/-- After any operations an emitter remembers what was done since the last reset, or since the
start: the claims for other claims, and the findings with the path of the reset. -/
theorem after_remembers_since_reset (e : Emitter) (ops : List Operation) :
    ∃ before recent base, ops = before ++ recent ∧ Begins e before base ∧
      (∀ op ∈ recent, op.isReset = false) ∧
      e.answers ops = e.answers before ++ base.answers recent ∧
      Remembers base recent (e.after ops) := by
  obtain ⟨before, recent, base, rfl, hbegins, hrecent⟩ := exists_begins e ops
  refine ⟨before, recent, base, rfl, hbegins, hrecent, ?_, ?_⟩
  · rw [answers_append, hbegins.after_eq]
  · rw [after_append, hbegins.after_eq]
    exact remembers_after hrecent

end SinkAudit.Emitter
