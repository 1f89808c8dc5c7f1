import SinkAudit.Check.Run
import SinkAudit.Proofs.Finds

/-! # Sinks that a user adds

The methods that run commands and the functions that run text as code can be given more names. A
check with more names finds all that it found, in the same order and in the same words, and beside
it only calls of names that are new (`run_names_extend`). For commands the names come in twice, as
methods and through the local names that stand for them; neither changes what a call meant
before. -/
namespace SinkAudit.Check

/-! ## More findings at some nodes -/

/-- Two lists of findings, read along the nodes of a file. At a node that is new only the second
list may have a finding; at any other node both have the same. -/
inductive Extends (About : Nat → Finding → Prop) (New : Nat → Prop) :
    List Nat → List Finding → List Finding → Prop
  | done : Extends About New [] [] []
  | nothing {i : Nat} {nodes : List Nat} {fs fs' : List Finding}
      (rest : Extends About New nodes fs fs') : Extends About New (i :: nodes) fs fs'
  | same {i : Nat} {f : Finding} {nodes : List Nat} {fs fs' : List Finding} (hf : About i f)
      (hn : ¬ New i) (rest : Extends About New nodes fs fs') :
      Extends About New (i :: nodes) (f :: fs) (f :: fs')
  | added {i : Nat} {f : Finding} {nodes : List Nat} {fs fs' : List Finding} (hf : About i f)
      (hn : New i) (rest : Extends About New nodes fs fs') :
      Extends About New (i :: nodes) fs (f :: fs')

/-- What two checks may find at one node, if the second extends the first. -/
inductive Adds (About : Nat → Finding → Prop) (New : Nat → Prop) (i : Nat) :
    Option Finding → Option Finding → Prop
  | nothing : Adds About New i none none
  | same {f : Finding} (hf : About i f) (hn : ¬ New i) : Adds About New i (some f) (some f)
  | added {f : Finding} (hf : About i f) (hn : New i) : Adds About New i none (some f)

section
variable {A : Nat → Finding → Prop} {New : Nat → Prop} {nodes : List Nat} {fs fs' : List Finding}

theorem Extends.sublist (h : Extends A New nodes fs fs') : fs.Sublist fs' := by
  induction h with
  | done => exact .slnil
  | nothing _ ih => exact ih
  | same _ _ _ ih => exact ih.cons_cons _
  | added _ _ _ ih => exact ih.cons _

theorem Extends.nil (nodes : List Nat) : Extends A New nodes [] [] := by
  induction nodes with
  | nil => exact .done
  | cons i nodes ih => exact .nothing ih

theorem extends_filterMap {g g' : Nat → Option Finding} (h : ∀ i, Adds A New i (g i) (g' i))
    (nodes : List Nat) : Extends A New nodes (nodes.filterMap g) (nodes.filterMap g') := by
  induction nodes with
  | nil => exact .done
  | cons i nodes ih =>
    have hi := h i
    rw [List.filterMap_cons, List.filterMap_cons]
    generalize g i = f at hi
    generalize g' i = f' at hi
    cases hi with
    | nothing => exact .nothing ih
    | same hf hn => exact .same hf hn ih
    | added hf hn => exact .added hf hn ih

end

section
variable {c c' : Check} {s : Source} {m m₁ m₂ : Memory} {i : Nat} {path : Path}
  {New : Nat → Prop}

def AddsAt (s : Source) (e : Emitter) (New : Nat → Prop) (i : Nat)
    (x y : Except Fault (Option Finding)) : Prop :=
  ∃ f f', x = .ok f ∧ y = .ok f' ∧ Adds (About s e) New i f f'

theorem addsAt_nothing {e : Emitter} (h₁ : handle c s m₁ i = m₁.silent)
    (h₂ : handle c' s m₂ i = m₂.silent) :
    AddsAt s e New i (finds c s m₁ i) (finds c' s m₂ i) :=
  ⟨none, none, finds_of_ok h₁, finds_of_ok h₂, .nothing⟩

theorem addsAt_same {x₁ x₂ : Memory × Option Request} (h₁ : handle c s m₁ i = .ok x₁)
    (h₂ : handle c' s m₂ i = .ok x₂)
    (hr : reply c' s x₂.1 i x₂.2 = reply c s x₁.1 i x₁.2) (hn : ¬ New i) :
    AddsAt s m₁.emitter New i (finds c s m₁ i) (finds c' s m₂ i) := by
  obtain ⟨f, hf, ha⟩ := reply_ok h₁
  refine ⟨f, f, (finds_of_ok h₁).trans hf, (finds_of_ok h₂).trans (hr.trans hf), ?_⟩
  cases f with
  | none => exact .nothing
  | some f => exact .same (ha f rfl) hn

theorem addsAt_added {x₂ : Memory × Option Request} (h₁ : handle c s m₁ i = m₁.silent)
    (h₂ : handle c' s m₂ i = .ok x₂) (hn : New i) :
    AddsAt s m₂.emitter New i (finds c s m₁ i) (finds c' s m₂ i) := by
  obtain ⟨f, hf, ha⟩ := reply_ok h₂
  refine ⟨none, f, finds_of_ok h₁, (finds_of_ok h₂).trans hf, ?_⟩
  cases f with
  | none => exact .nothing
  | some f => exact .added (ha f rfl) hn

/-- A check that never fails at a node finds in a file what it finds at the nodes. -/
theorem run_filterMap (hk : c.kind ≠ .header) (hs : c.skips path = false)
    {g : Nat → Option Finding} (h : ∀ i, finds c s (begun c s path m) i = .ok (g i)) :
    ∃ m', run c s path m = .ok m' ∧ m'.emitter.findings = s.tree.all.filterMap g := by
  have hrun := run_finds hk hs s m
  rw [mapM_eq_ok fun i _ => h i] at hrun
  generalize run c s path m = x at hrun
  cases hrun with
  | ok hf => exact ⟨_, rfl, by rw [hf, List.reduceOption, List.filterMap_map, Function.id_comp]⟩

theorem run_extends (hk : c.kind ≠ .header) (hk' : c'.kind ≠ .header)
    (hs : c'.skips path = c.skips path)
    (h : ∀ i, AddsAt s (m.emitter.reset path) New i (finds c s (begun c s path m) i)
      (finds c' s (begun c' s path m) i)) :
    ∃ m₁ m₂, run c s path m = .ok m₁ ∧ run c' s path m = .ok m₂ ∧
      Extends (About s (m.emitter.reset path)) New s.tree.all m₁.emitter.findings
        m₂.emitter.findings := by
  cases hskip : c.skips path with
  | true =>
    obtain ⟨m₁, h₁, hf₁⟩ := run_of_skips hskip s m
    obtain ⟨m₂, h₂, hf₂⟩ := run_of_skips (hs.trans hskip) s m
    refine ⟨m₁, m₂, h₁, h₂, ?_⟩
    rw [hf₁, hf₂]
    exact .nil _
  | false =>
    choose g g' hg hg' hadds using h
    obtain ⟨m₁, h₁, hf₁⟩ := run_filterMap hk hskip hg
    obtain ⟨m₂, h₂, hf₂⟩ := run_filterMap hk' (hs.trans hskip) hg'
    refine ⟨m₁, m₂, h₁, h₂, ?_⟩
    rw [hf₁, hf₂]
    exact extends_filterMap hadds _

end

/-! ## Commands -/

def withMethods (c : Check) (names : List String) : Check :=
  { c with options := { c.options with
      additionalSinkMethods := c.options.additionalSinkMethods ++ names } }

theorem methods_withMethods (c : Check) (names : List String) :
    (c.withMethods names).methods = c.methods ++ names := by
  simp [methods, withMethods]

namespace Command

section
variable {c : Check} {s : Source} {m : Memory} {i f : Nat} {name method : String}

/-- The method that a local name stands for, if it stands for one. -/
def standsFor (s : Source) (name : String) : String := (lastFor name s.memberNames).getD name

theorem lookup_filterMap (g : String → String) (p : String → Bool) (name : String)
    (l : List String) :
    (l.filterMap fun a => if p (g a) then some (a, g a) else none).lookup name =
      if name ∈ l ∧ p (g name) = true then some (g name) else none := by
  induction l with
  | nil => simp
  | cons a l ih =>
    rw [List.filterMap_cons]
    by_cases hname : name = a
    · rw [hname] at ih ⊢
      cases hp : p (g a) with
      | false => simpa [hp] using ih
      | true => simp
    · have hb : (name == a) = false := beq_eq_false_iff_ne.mpr hname
      cases hp : p (g a) <;> simp [List.lookup_cons, hb, hname, ih]

theorem lookup_boundIn (c : Check) (s : Source) (name : String) :
    (boundIn c s).lookup name =
      if name ∈ aliasesIn s ∧ c.methods.contains (standsFor s name) = true then
        some (standsFor s name)
      else none :=
  lookup_filterMap (standsFor s) c.methods.contains name (aliasesIn s)

theorem lastFor_memberNames_ne_empty (h : lastFor name s.memberNames = some method) :
    method ≠ "" := by
  obtain ⟨entry, he, rfl⟩ := Option.map_eq_some_iff.mp h
  have hmem := List.mem_reverse.mp (List.mem_of_find?_eq_some he)
  obtain ⟨b, _, hb⟩ := List.mem_filterMap.mp hmem
  obtain ⟨member, hm, rfl⟩ := Option.map_eq_some_iff.mp hb
  have hsolid := (Option.filter_eq_some_iff.mp hm).2
  simpa using hsolid

/-- Only the empty name can stand for an empty one. -/
theorem standsFor_eq_empty (h : standsFor s name = "") : name = "" := by
  unfold standsFor at h
  cases hl : lastFor name s.memberNames with
  | none => simpa [hl] using h
  | some method =>
    rw [hl] at h
    exact absurd h (lastFor_memberNames_ne_empty hl)

theorem calleeName?_of_identifier (hf : calledNode? s i = some f)
    (hk : s.tree.kind f = .identifier) (ht : s.text f = "") : s.calleeName? i = some "" := by
  have hname : s.name? f = some "" := by
    rw [Source.name?_eq, hk, ht]
    rfl
  unfold calledNode? at hf
  have htarget : s.callTarget i = { method := some "" } := by
    simp only [Source.callTarget, hf, hk, hname]
  have hlast : Text.afterLast '.' "" = "" := by decide
  simp only [Source.calleeName?, htarget, hf, Source.nameOf?, Option.bind_some, hname,
    Option.map_some, hlast]
  rfl

/-- A call of a bound name calls what the name stands for, even where both are empty. -/
theorem methodName?_of_bound (hf : calledNode? s i = some f)
    (hk : s.tree.kind f = .identifier)
    (hb : m.boundFunctions.lookup (s.text f) = some (standsFor s (s.text f))) :
    methodName? s m i = some (standsFor s (s.text f)) := by
  simp only [methodName?, hf, Option.filter_some, hk, beq_self_eq_true, if_true,
    Option.bind_some, hb]
  -- an empty name is passed over in favour of the callee's, which is then empty as well
  by_cases he : standsFor s (s.text f) = ""
  · rw [calleeName?_of_identifier hf hk (standsFor_eq_empty he), he]
    rfl
  · simp [Source.firstText, he]

theorem methodName?_of_not_identifier {n : Memory}
    (hk : ∀ f, calledNode? s i = some f → s.tree.kind f ≠ .identifier) :
    methodName? s m i = methodName? s n i := by
  have hnone : ((calledNode? s i).filter fun f => s.tree.kind f == .identifier) = none := by
    rw [Option.filter_eq_none_iff]
    intro f hf
    simpa using hk f hf
  simp only [methodName?, hnone, Option.bind_none]

theorem isProcessCall_of_not_identifier {n : Memory} (ha : m.aliases = n.aliases)
    (hk : ∀ f, calledNode? s i = some f → s.tree.kind f ≠ .identifier) :
    isProcessCall s m i = isProcessCall s n i := by
  unfold isProcessCall
  cases hf : calledNode? s i with
  | none => rfl
  | some f =>
    have hkind := hk f hf
    dsimp only
    split
    · contradiction
    · rw [isProcessModule_congr ha]
    · rfl

/-- The method with which a call runs a command, if it runs one. -/
def runs? (c : Check) (s : Source) (m : Memory) (i : Nat) : Option String :=
  (methodName? s m i).filter fun method =>
    s.tree.kind i == .callExpression && c.methods.contains method && isProcessCall s m i

def onRun (c : Check) (s : Source) (m : Memory) (i : Nat) (method : String) : Handling :=
  let arguments := s.tree.callArguments i
  if c.ignores [some (s.text i)] || arguments.isEmpty ||
      (arguments.all s.tree.isLiteralArgument && allowsLiteral c method) then m.silent
  else m.asks (inquiry c s method arguments)

theorem handle_of_none (hk : c.kind = .command) (h : runs? c s m i = none) :
    handle c s m i = m.silent := by
  simp only [handle, hk]
  split
  · unfold handleCall
    split
    · rfl
    · rename_i method hn
      rw [if_pos]
      simp only [runs?, hn, Option.filter_eq_none_iff, Option.some.injEq, forall_eq'] at h
      have hguard : (s.tree.kind i != .callExpression || !c.methods.contains method ||
          !isProcessCall s m i) = true := by
        rw [bne, ← Bool.not_and, ← Bool.not_and, Bool.eq_false_iff.mpr h]
        rfl
      simp only [hguard, Bool.true_or]
  · rfl

theorem handle_of_some (hk : c.kind = .command) (h : runs? c s m i = some method) :
    handle c s m i = onRun c s m i method := by
  obtain ⟨hn, hg⟩ := Option.filter_eq_some_iff.mp h
  simp only [Bool.and_eq_true, beq_iff_eq] at hg
  obtain ⟨⟨hkind, hmethod⟩, hcall⟩ := hg
  have hc : Kind.callExpression.isCall = true := rfl
  simp only [handle, hk, handleCall, onRun, hn, hmethod, hcall, hkind, hc, if_true,
    bne_self_eq_false, Bool.not_true, Bool.or_false, Bool.false_or]

theorem runs?_of_identifier (hb : m.boundFunctions = boundIn c s)
    (hf : calledNode? s i = some f) (hk : s.tree.kind f = .identifier) :
    runs? c s m i =
      (if s.text f ∈ aliasesIn s then some (standsFor s (s.text f)) else none).filter fun method =>
        s.tree.kind i == .callExpression && c.methods.contains method && true := by
  have hlookup := lookup_boundIn c s (s.text f)
  rw [← hb] at hlookup
  have hcall : isProcessCall s m i = (m.boundFunctions.lookup (s.text f)).isSome := by
    simp only [isProcessCall, hf, hk]
  by_cases hbound : s.text f ∈ aliasesIn s ∧ c.methods.contains (standsFor s (s.text f)) = true
  · rw [if_pos hbound] at hlookup
    rw [if_pos hbound.1, runs?, methodName?_of_bound hf hk hlookup, hcall, hlookup]
    rfl
  · rw [if_neg hbound] at hlookup
    have hnone : runs? c s m i = none := by simp [runs?, hcall, hlookup]
    rw [hnone, eq_comm, Option.filter_eq_none_iff]
    intro method hm
    obtain ⟨halias, hstands⟩ := Option.ite_none_right_eq_some.mp hm
    obtain rfl : standsFor s (s.text f) = method := Option.some.inj hstands
    have hnot : c.methods.contains (standsFor s (s.text f)) = false := by
      simpa [halias] using hbound
    simp only [hnot, Bool.and_false, Bool.false_and, Bool.false_eq_true, not_false_eq_true]

theorem filter_narrow {methods methods' : List String} (h : methods ⊆ methods')
    (o : Option String) (a b : Bool) :
    (o.filter fun method => a && methods.contains method && b) =
      (o.filter fun method => a && methods'.contains method && b).filter methods.contains := by
  rw [Option.filter_filter]
  congr 1
  funext method
  by_cases hm : method ∈ methods
  · simp [hm, h hm]
  · simp [hm]

/-- With more methods the same calls run commands as before, by the same methods, and beside them
only calls that run one of the new methods. -/
theorem runs?_narrow {c' : Check} {n : Memory} (hb : m.boundFunctions = boundIn c s)
    (hb' : n.boundFunctions = boundIn c' s) (ha : m.aliases = n.aliases)
    (hc : c.methods ⊆ c'.methods) :
    runs? c s m i = (runs? c' s n i).filter c.methods.contains := by
  by_cases hk : ∃ f, calledNode? s i = some f ∧ s.tree.kind f = .identifier
  · obtain ⟨f, hf, hkind⟩ := hk
    rw [runs?_of_identifier hb hf hkind, runs?_of_identifier hb' hf hkind]
    exact filter_narrow hc _ _ _
  · have hk : ∀ f, calledNode? s i = some f → s.tree.kind f ≠ .identifier :=
      fun f hf hkind => hk ⟨f, hf, hkind⟩
    rw [runs?, runs?, methodName?_of_not_identifier hk, isProcessCall_of_not_identifier ha hk]
    exact filter_narrow hc _ _ _

/-- The node is a call of a method that only the given names make one that runs commands. -/
def CallsNew (c : Check) (names : List String) (s : Source) (m : Memory) (i : Nat) : Prop :=
  s.tree.kind i = .callExpression ∧ ∃ method, methodName? s m i = some method ∧ method ∈ names ∧
    method ∉ c.options.additionalSinkMethods ∧ method ∉ Catalog.commandMethods

theorem not_callsNew {names : List String} (hn : methodName? s m i = some method)
    (hm : method ∈ c.methods) : ¬ CallsNew c names s m i := by
  intro hnew
  obtain ⟨_, method', hn', _, hadded, hlisted⟩ := hnew
  obtain rfl : method = method' := Option.some.inj (hn.symm.trans hn')
  rcases List.mem_append.mp hm with h | h
  · exact hlisted h
  · exact hadded h

theorem callsNew {names : List String} (hr : runs? (c.withMethods names) s m i = some method)
    (hm : method ∉ c.methods) : CallsNew c names s m i := by
  obtain ⟨hn, hg⟩ := Option.filter_eq_some_iff.mp hr
  simp only [Bool.and_eq_true, beq_iff_eq] at hg
  have hmem : method ∈ c.methods ++ names := by
    rw [← methods_withMethods]
    simpa using hg.1.2
  refine ⟨hg.1.1, method, hn, (List.mem_append.mp hmem).resolve_left hm, fun h => ?_, fun h => ?_⟩
  · exact hm (List.mem_append_right _ h)
  · exact hm (List.mem_append_left _ h)

theorem onRun_ok (c : Check) (s : Source) (i : Nat) (method : String) :
    ∃ r, ∀ m : Memory, onRun c s m i method = .ok (m, r) := by
  unfold onRun
  dsimp only
  split
  · exact ⟨none, fun m => rfl⟩
  · exact ⟨some _, fun m => rfl⟩

end

end Command

theorem reply_withMethods (c : Check) (names : List String) (s : Source) (m : Memory) (i : Nat)
    (r : Option Request) : reply (c.withMethods names) s m i r = reply c s m i r := rfl

theorem Command.finds_withMethods {c : Check} (hk : c.kind = .command) (names : List String)
    (s : Source) (path : Path) (m : Memory) (i : Nat) :
    AddsAt s (m.emitter.reset path)
      (CallsNew c names s (begun (c.withMethods names) s path m)) i
      (finds c s (begun c s path m) i)
      (finds (c.withMethods names) s (begun (c.withMethods names) s path m) i) := by
  have hk' : (c.withMethods names).kind = .command := hk
  have he := begun_emitter c s path m
  have he' := begun_emitter (c.withMethods names) s path m
  have hnarrow : runs? c s (begun c s path m) i =
      (runs? (c.withMethods names) s (begun (c.withMethods names) s path m) i).filter
        c.methods.contains := by
    refine runs?_narrow ?_ ?_ ?_ (by simp [methods_withMethods])
    · simp only [begun, Check.prepare, hk, prepare]
    · simp only [begun, Check.prepare, hk', prepare]
    · simp only [begun, Check.prepare, hk, hk', prepare]
  generalize begun c s path m = m₁ at *
  generalize begun (c.withMethods names) s path m = m₂ at *
  cases hr : runs? (c.withMethods names) s m₂ i with
  | none =>
    rw [hr] at hnarrow
    exact addsAt_nothing (handle_of_none hk hnarrow) (handle_of_none hk' hr)
  | some method =>
    rw [hr, Option.filter_some] at hnarrow
    obtain ⟨r, hon⟩ := onRun_ok (c.withMethods names) s i method
    have hhandle' := (handle_of_some hk' hr).trans (hon m₂)
    -- the method decides: an old one was called before as it is now, a new one was not known
    by_cases hm : method ∈ c.methods
    · rw [if_pos (by simpa using hm)] at hnarrow
      have hhandle : handle c s m₁ i = .ok (m₁, r) := (handle_of_some hk hnarrow).trans (hon m₁)
      rw [← he]
      refine addsAt_same hhandle hhandle' ?_ (not_callsNew (Option.filter_eq_some_iff.mp hr).1 hm)
      rw [reply_withMethods]
      exact reply_congr ⟨by rw [he, he'], by rw [he, he'], by simp [hk], by simp [hk]⟩
    · rw [if_neg (by simpa using hm)] at hnarrow
      rw [← he']
      exact addsAt_added (handle_of_none hk hnarrow) hhandle' (callsNew hr hm)

/-! ## Evaluated code -/

def withEvalFunctions (c : Check) (names : List String) : Check :=
  { c with options := { c.options with
      additionalEvalFunctions := c.options.additionalEvalFunctions ++ names } }

theorem reply_withEvalFunctions (c : Check) (names : List String) (s : Source) (m : Memory)
    (i : Nat) (r : Option Request) :
    reply (c.withEvalFunctions names) s m i r = reply c s m i r := rfl

namespace Code

section
variable {c : Check} {s : Source} {m : Memory} {i : Nat} {name : String} {names : List String}

theorem recognised_renamed (names : List String) (template : SinkPattern) (name : String) :
    (∃ p ∈ (names.filter (!·.isEmpty)).map template.renamed, p.recognises name = true) ↔
      name ∈ names ∧ name ≠ "" := by
  simp [SinkPattern.renamed, SinkPattern.recognises]

theorem recognised_evaluation (name : String) :
    (∃ p ∈ Catalog.evaluation, p.recognises name = true) ↔ name = "eval" ∨ name = "Function" := by
  simp [Catalog.evaluation, SinkPattern.recognises]

/-- The functions that a user names come after those that are listed. -/
theorem exists_template : ∃ template, ∀ c : Check, c.kind = .code →
    c.catalog = Catalog.evaluation.withNames c.options.additionalEvalFunctions template := by
  have hsome : (Catalog.evaluation.sink? "eval").isSome = true := by decide
  obtain ⟨template, ht⟩ := Option.isSome_iff_exists.mp hsome
  refine ⟨template, fun c hk => ?_⟩
  simp only [Check.catalog, hk, ht]

theorem sink?_isSome (hk : c.kind = .code) :
    (c.catalog.sink? name).isSome = true ↔
      name = "eval" ∨ name = "Function" ∨ name ∈ c.options.additionalEvalFunctions ∧ name ≠ "" := by
  obtain ⟨template, hcatalog⟩ := exists_template
  rw [hcatalog c hk, Catalog.sink?, List.find?_isSome, Catalog.withNames]
  simp only [List.mem_append, or_and_right, exists_or, recognised_renamed, recognised_evaluation,
    or_assoc]

theorem sink?_withEvalFunctions {p : SinkPattern} (hk : c.kind = .code)
    (hp : c.catalog.sink? name = some p) (names : List String) :
    (c.withEvalFunctions names).catalog.sink? name = some p := by
  obtain ⟨template, hcatalog⟩ := exists_template
  rw [hcatalog c hk] at hp
  rw [hcatalog (c.withEvalFunctions names) hk]
  simp only [Catalog.sink?, Catalog.withNames, withEvalFunctions, List.filter_append,
    List.map_append] at hp ⊢
  rw [← List.append_assoc, List.find?_append, hp]
  rfl

/-- The name by which a call runs text as code, with the sink of that name. -/
def evaluates? (c : Check) (s : Source) (i : Nat) : Option (String × SinkPattern) :=
  if (s.tree.kind i).isCall then
    (sinkName? s i).bind fun name => (c.catalog.sink? name).map (Prod.mk name)
  else none

theorem evaluates?_eq_some {x : String × SinkPattern} :
    evaluates? c s i = some x ↔ (s.tree.kind i).isCall = true ∧ sinkName? s i = some x.1 ∧
      c.catalog.sink? x.1 = some x.2 := by
  simp only [evaluates?, Option.ite_none_right_eq_some, Option.bind_eq_some_iff,
    Option.map_eq_some_iff]
  constructor
  · intro h
    obtain ⟨hcall, name, hn, p, hp, hx⟩ := h
    subst hx
    exact ⟨hcall, hn, hp⟩
  · intro h
    obtain ⟨hcall, hn, hp⟩ := h
    exact ⟨hcall, x.1, hn, x.2, hp, rfl⟩

def onEvaluation (c : Check) (s : Source) (m : Memory) (i : Nat) (x : String × SinkPattern) :
    Handling :=
  let arguments := s.tree.callArguments i
  if arguments.isEmpty || c.ignores [some (s.text i)] ||
      (x.1 != "Function" && arguments.all s.tree.isLiteral) then m.silent
  else
    let category := categoryOf? s x.1 arguments
    Memory.asks { m with category } (inquiry x.2 category arguments)

theorem handle_of_none (hk : c.kind = .code) (h : evaluates? c s i = none) :
    handle c s m i = m.silent := by
  simp only [handle, hk]
  split
  · rename_i hcall
    simp only [evaluates?, hcall, if_true, Option.bind_eq_none_iff, Option.map_eq_none_iff] at h
    unfold handleCall
    split
    · rfl
    · rename_i name hn
      simp only [h name hn]
  · rfl

theorem handle_of_some {x : String × SinkPattern} (hk : c.kind = .code)
    (h : evaluates? c s i = some x) : handle c s m i = onEvaluation c s m i x := by
  obtain ⟨hcall, hn, hp⟩ := evaluates?_eq_some.mp h
  simp only [handle, hk, hcall, if_true, handleCall, hn, hp, onEvaluation]

theorem onEvaluation_ok (c : Check) (s : Source) (m : Memory) (i : Nat)
    (x : String × SinkPattern) : ∃ y, onEvaluation c s m i x = .ok y := by
  unfold onEvaluation
  dsimp only
  split
  · exact ⟨_, rfl⟩
  · exact ⟨_, rfl⟩

/-- The node is a call of a function that only the given names make one that runs text as code. -/
def CallsNew (c : Check) (names : List String) (s : Source) (i : Nat) : Prop :=
  (s.tree.kind i).isCall = true ∧ ∃ name, sinkName? s i = some name ∧ name ∈ names ∧
    name ∉ c.options.additionalEvalFunctions ∧ name ≠ "eval" ∧ name ≠ "Function"

theorem not_callsNew {x : String × SinkPattern} (hk : c.kind = .code)
    (h : evaluates? c s i = some x) : ¬ CallsNew c names s i := by
  intro hnew
  obtain ⟨_, name, hname, _, hadded, heval, hfunction⟩ := hnew
  obtain ⟨_, hn, hp⟩ := evaluates?_eq_some.mp h
  obtain rfl : x.1 = name := Option.some.inj (hn.symm.trans hname)
  rcases (sink?_isSome hk).mp (Option.isSome_iff_exists.mpr ⟨_, hp⟩) with h | h | h
  · exact heval h
  · exact hfunction h
  · exact hadded h.1

theorem callsNew {x : String × SinkPattern} (hk : c.kind = .code) (h : evaluates? c s i = none)
    (h' : evaluates? (c.withEvalFunctions names) s i = some x) : CallsNew c names s i := by
  obtain ⟨hcall, hn, hp'⟩ := evaluates?_eq_some.mp h'
  have hp : ¬ (c.catalog.sink? x.1).isSome = true := by
    simp only [evaluates?, hcall, if_true, hn, Option.bind_some, Option.map_eq_none_iff] at h
    simp [h]
  have hk' : (c.withEvalFunctions names).kind = .code := hk
  have hknown := (sink?_isSome hk').mp (Option.isSome_iff_exists.mpr ⟨_, hp'⟩)
  rw [sink?_isSome hk] at hp
  simp only [withEvalFunctions, List.mem_append] at hknown
  refine ⟨hcall, x.1, hn, ?_⟩
  tauto

theorem finds_withEvalFunctions (hk : c.kind = .code) (names : List String) (s : Source)
    (m : Memory) (i : Nat) :
    AddsAt s m.emitter (CallsNew c names s) i (finds c s m i)
      (finds (c.withEvalFunctions names) s m i) := by
  have hk' : (c.withEvalFunctions names).kind = .code := hk
  cases hx : evaluates? c s i with
  | some x =>
    have hx' : evaluates? (c.withEvalFunctions names) s i = some x := by
      rw [evaluates?_eq_some] at hx ⊢
      exact ⟨hx.1, hx.2.1, sink?_withEvalFunctions hk hx.2.2 names⟩
    obtain ⟨y, hy⟩ := onEvaluation_ok c s m i x
    refine addsAt_same ((handle_of_some hk hx).trans hy) ((handle_of_some hk' hx').trans hy) ?_
      (not_callsNew hk hx)
    exact reply_withEvalFunctions c names s _ i _
  | none =>
    cases hx' : evaluates? (c.withEvalFunctions names) s i with
    | none => exact addsAt_nothing (handle_of_none hk hx) (handle_of_none hk' hx')
    | some x =>
      obtain ⟨y, hy⟩ := onEvaluation_ok (c.withEvalFunctions names) s m i x
      exact addsAt_added (handle_of_none hk hx) ((handle_of_some hk' hx').trans hy)
        (callsNew hk hx hx')

end

end Code

/-- A check that is given more names finds all that it found, in the same order and in the same
words. What it finds beside is about calls of the new names: of methods of the process module by
what the file's names stand for, and of functions that run code by the name of the call. -/
theorem run_names_extend (o : Options) (names : List String) (s : Source) (path : Path)
    (m : Memory) :
    (∃ m₁ m₂, run ⟨.command, o⟩ s path m = .ok m₁ ∧
      run (withMethods ⟨.command, o⟩ names) s path m = .ok m₂ ∧
      m₁.emitter.findings.Sublist m₂.emitter.findings ∧
      Extends (About s (m.emitter.reset path))
        (Command.CallsNew ⟨.command, o⟩ names s
          (begun (withMethods ⟨.command, o⟩ names) s path m))
        s.tree.all m₁.emitter.findings m₂.emitter.findings) ∧
    (∃ m₁ m₂, run ⟨.code, o⟩ s path m = .ok m₁ ∧
      run (withEvalFunctions ⟨.code, o⟩ names) s path m = .ok m₂ ∧
      m₁.emitter.findings.Sublist m₂.emitter.findings ∧
      Extends (About s (m.emitter.reset path)) (Code.CallsNew ⟨.code, o⟩ names s)
        s.tree.all m₁.emitter.findings m₂.emitter.findings) := by
  constructor
  · have hk : (Check.mk .command o).kind ≠ .header := nofun
    have hk' : (withMethods ⟨.command, o⟩ names).kind ≠ .header := nofun
    obtain ⟨m₁, m₂, h₁, h₂, h⟩ :=
      run_extends hk hk' rfl (Command.finds_withMethods rfl names s path m)
    exact ⟨m₁, m₂, h₁, h₂, h.sublist, h⟩
  · have hk : (Check.mk .code o).kind ≠ .header := nofun
    have hk' : (withEvalFunctions ⟨.code, o⟩ names).kind ≠ .header := nofun
    obtain ⟨m₁, m₂, h₁, h₂, h⟩ :=
      run_extends hk hk' rfl (Code.finds_withEvalFunctions rfl names s (start m path))
    exact ⟨m₁, m₂, h₁, h₂, h.sublist, h⟩

end SinkAudit.Check
