import SinkAudit.Proofs.Finds
import SinkAudit.Proofs.Header

/-! # Longer ignore lists

Every check asks its ignore list at some point of what it does at a node, and each about other
texts. Wherever it asks, to be ignored is to be passed over in silence, so a longer list can only
take findings away. The check for headers is the exception: a call that is ignored leaves its scope
to a later one, so there a scope may move to another call, but no scope comes to be reported that
was not (`run_ignoring_suppresses`), unless two scopes share a key (`ignoring_may_report_more`). -/
namespace SinkAudit

namespace IgnoreList
variable {P Q : List String} {l' : IgnoreList}

theorem catches_append (l k : IgnoreList) (texts : List (Option String)) :
    catches (l ++ k) texts = (l.catches texts || k.catches texts) :=
  List.any_append

theorem value_read (entries : List String) :
    (read entries).run.value =
      (entries.filter (!·.isEmpty)).mapM fun e => (IgnoreEntry.read e).run.value :=
  Logged.value_mapM _ _

/-- Entries are read one by one. -/
theorem read_append (h : (read (P ++ Q)).run.value = .ok l') :
    ∃ l k, (read P).run.value = .ok l ∧ l' = l ++ k := by
  rw [value_read, List.filter_append, List.mapM_append, bind_eq_ok_iff] at h
  obtain ⟨l, hl, h⟩ := h
  obtain ⟨k, _, h⟩ := bind_eq_ok_iff.mp h
  exact ⟨l, k, (value_read P).trans hl, (Except.ok.inj h).symm⟩

end IgnoreList

namespace Check

def ignoring (c : Check) (patterns : List String) (l : IgnoreList) : Check :=
  { c with options := { c.options with ignorePatterns := patterns, ignore := l } }

section
variable {c : Check} {s : Source} {m : Memory} {i : Nat} {path : Path} {patterns : List String}
  {k : IgnoreList}

def ignoringMore (c : Check) (patterns : List String) (k : IgnoreList) : Check :=
  c.ignoring patterns (c.options.ignore ++ k)

theorem ignores_ignoringMore (texts : List (Option String)) (h : c.ignores texts = true) :
    (c.ignoringMore patterns k).ignores texts = true := by
  rw [ignores, ignoringMore, ignoring, IgnoreList.catches_append]
  exact Bool.or_eq_true_iff.mpr (.inl h)

/-! ## One node -/

/-- What two checks do at a node if the second ignores more: the same, or the second is silent
where the first does not fail. -/
inductive Hushed (m : Memory) : Handling → Handling → Prop
  | same (x : Handling) : Hushed m x x
  | silent (x : Memory × Option Request) : Hushed m (.ok x) m.silent

theorem hushed_ite {g g' : Bool} (h : g = true → g' = true) (x : Memory × Option Request) :
    Hushed m (if g then m.silent else .ok x) (if g' then m.silent else .ok x) := by
  cases g with
  | true =>
    rw [h rfl]
    exact .same _
  | false =>
    cases g' with
    | true => exact .silent x
    | false => exact .same _

theorem or_imp_left {g g' : Bool} (h : g = true → g' = true) (b : Bool) :
    (g || b) = true → (g' || b) = true := by
  simp only [Bool.or_eq_true]
  exact Or.imp_left h

theorem or_imp_right (a : Bool) {g g' : Bool} (h : g = true → g' = true) :
    (a || g) = true → (a || g') = true := by
  simp only [Bool.or_eq_true]
  exact Or.imp_right h

theorem Command.hushed :
    Hushed m (Command.handleCall c s m i)
      (Command.handleCall (c.ignoringMore patterns k) s m i) := by
  unfold Command.handleCall
  split
  · exact .same _
  · exact hushed_ite
      (or_imp_left (or_imp_left (or_imp_right _ (ignores_ignoringMore _)) _) _) _

theorem Code.hushed :
    Hushed m (Code.handleCall c s m i) (Code.handleCall (c.ignoringMore patterns k) s m i) := by
  have hcatalog : (c.ignoringMore patterns k).catalog = c.catalog := rfl
  unfold Code.handleCall
  rw [hcatalog]
  split
  · exact .same _
  · dsimp only
    split
    · exact .same _
    · exact hushed_ite (or_imp_left (or_imp_right _ (ignores_ignoringMore _)) _) _

theorem Regex.hushed_call :
    Hushed m (Regex.handleCall c s m i) (Regex.handleCall (c.ignoringMore patterns k) s m i) := by
  unfold Regex.handleCall
  dsimp only
  split
  · exact .same _
  · exact hushed_ite (or_imp_right _ (ignores_ignoringMore _)) _

theorem Regex.hushed_literal :
    Hushed m (Regex.handleLiteral c s m i)
      (Regex.handleLiteral (c.ignoringMore patterns k) s m i) :=
  hushed_ite (or_imp_left (ignores_ignoringMore _) _) _

theorem Markup.hushed_assignment :
    Hushed m (Markup.handleAssignment c s m i)
      (Markup.handleAssignment (c.ignoringMore patterns k) s m i) := by
  unfold Markup.handleAssignment
  dsimp only
  split
  · exact .same _
  · split
    · exact .same _
    · exact hushed_ite (ignores_ignoringMore _) _

theorem Markup.hushed_call :
    Hushed m (Markup.handleCall c s m i)
      (Markup.handleCall (c.ignoringMore patterns k) s m i) :=
  hushed_ite (or_imp_right _ (ignores_ignoringMore _)) _

theorem Markup.hushed_attribute :
    Hushed m (Markup.handleAttribute c s m i)
      (Markup.handleAttribute (c.ignoringMore patterns k) s m i) := by
  unfold Markup.handleAttribute
  split
  · exact .same _
  · split
    · exact .same _
    · split
      · exact .same _
      · exact hushed_ite (ignores_ignoringMore _) _

theorem Redirect.hushed_call :
    Hushed m (Redirect.handleCall c s m i)
      (Redirect.handleCall (c.ignoringMore patterns k) s m i) := by
  unfold Redirect.handleCall
  dsimp only
  split
  · exact .same _
  · split
    · exact .same _
    · exact hushed_ite (ignores_ignoringMore _) _

theorem Redirect.hushed_assignment :
    Hushed m (Redirect.handleAssignment c s m i)
      (Redirect.handleAssignment (c.ignoringMore patterns k) s m i) := by
  unfold Redirect.handleAssignment
  split
  · exact .same _
  · exact hushed_ite (ignores_ignoringMore _) _

theorem Cookie.hushed_call :
    Hushed m (Cookie.handleCall c s m i)
      (Cookie.handleCall (c.ignoringMore patterns k) s m i) :=
  hushed_ite (or_imp_left (or_imp_right _ (ignores_ignoringMore _)) _) _

theorem Cookie.hushed_assignment :
    Hushed m (Cookie.handleAssignment c s m i)
      (Cookie.handleAssignment (c.ignoringMore patterns k) s m i) :=
  hushed_ite (or_imp_right _ (ignores_ignoringMore _)) _

theorem Cookie.hushed_member :
    Hushed m (Cookie.handleMember c s m i)
      (Cookie.handleMember (c.ignoringMore patterns k) s m i) := by
  have hreading : (c.ignoringMore patterns k).options.allowReading = c.options.allowReading := rfl
  unfold Cookie.handleMember
  rw [hreading]
  split
  · exact .same _
  · cases Cookie.isAssigned s i with
    | error f => exact .same _
    | ok assigned => exact hushed_ite (or_imp_right _ (ignores_ignoringMore _)) _

/-- At a node a check that ignores more does the same or nothing, except for headers. -/
theorem handle_hushed (hk : c.kind ≠ .header) :
    Hushed m (handle c s m i) (handle (c.ignoringMore patterns k) s m i) := by
  have hkind : (c.ignoringMore patterns k).kind = c.kind := rfl
  unfold handle
  rw [hkind]
  dsimp only
  split
  · exact .same _
  · split
    · exact Command.hushed
    · exact .same _
  · split
    · exact Code.hushed
    · exact .same _
  · split
    · exact Regex.hushed_call
    · split
      · exact Regex.hushed_literal
      · exact .same _
  · split
    · exact Markup.hushed_call
    · split
      · exact Markup.hushed_assignment
      · split
        · exact Markup.hushed_attribute
        · exact .same _
  · split
    · exact Redirect.hushed_call
    · split
      · exact Redirect.hushed_assignment
      · exact .same _
  · split
    · exact Cookie.hushed_call
    · split
      · exact Cookie.hushed_assignment
      · split
        · exact Cookie.hushed_member
        · exact .same _
  · contradiction

theorem begun_ignoringMore : begun (c.ignoringMore patterns k) s path m = begun c s path m := rfl

theorem reply_ignoringMore (r : Option Request) :
    reply (c.ignoringMore patterns k) s m i r = reply c s m i r := rfl

theorem finds_ignoringMore (hk : c.kind ≠ .header) :
    Alike Drops (finds c s m i) (finds (c.ignoringMore patterns k) s m i) := by
  have hh : Hushed m (handle c s m i) (handle (c.ignoringMore patterns k) s m i) :=
    handle_hushed hk
  cases hx : handle c s m i with
  | error f =>
    rw [hx] at hh
    generalize hy : handle (c.ignoringMore patterns k) s m i = y at hh
    cases hh with
    | same =>
      rw [finds_of_error hx, finds_of_error hy]
      exact .error f
  | ok x =>
    obtain ⟨f, hf, _⟩ := reply_ok hx
    rw [hx] at hh
    generalize hy : handle (c.ignoringMore patterns k) s m i = y at hh
    rw [finds_of_ok hx, hf]
    cases hh with
    | same =>
      rw [finds_of_ok hy, reply_ignoringMore, hf]
      exact .ok (.inr rfl)
    | silent =>
      rw [finds_of_ok hy]
      exact .ok (.inl rfl)

end

/-! ## Headers -/

namespace Header

section
variable {c : Check} {s : Source} {e : Emitter} {m : Memory} {nodes anchors : List Nat} {i : Nat}
  {findings : List Finding} {patterns : List String} {k : IgnoreList}

/-- A finding at a call that counts says what the scope of the call lacks. -/
def ReportsAt (c : Check) (s : Source) (e : Emitter) (i : Nat) (f : Finding) : Prop :=
  counts c s i = true ∧ missingIn c s (s.tree.scopeOf i) ≠ [] ∧
    Says s e (missingIn c s (s.tree.scopeOf i)) i f

/-- The calls at which findings report their scopes, in the order of the nodes. -/
def ReportedAt (c : Check) (s : Source) (e : Emitter) (nodes anchors : List Nat)
    (findings : List Finding) : Prop :=
  anchors.Sublist nodes ∧ List.Forall₂ (ReportsAt c s e) anchors findings

theorem ReportedAt.skip (h : ReportedAt c s e nodes anchors findings) :
    ReportedAt c s e (nodes ++ [i]) anchors findings :=
  ⟨h.1.trans (List.sublist_append_left nodes [i]), h.2⟩

theorem ReportedAt.snoc {f : Finding} (h : ReportedAt c s e nodes anchors findings)
    (hf : ReportsAt c s e i f) :
    ReportedAt c s e (nodes ++ [i]) (anchors ++ [i]) (findings ++ [f]) :=
  ⟨h.1.append (List.Sublist.refl [i]), List.rel_append h.2 (.cons hf .nil)⟩

theorem ReportedAt.counts (h : ReportedAt c s e nodes anchors findings) (hi : i ∈ anchors) :
    i ∈ nodes ∧ counts c s i = true ∧ missingIn c s (s.tree.scopeOf i) ≠ [] := by
  obtain ⟨hcounts, hrest⟩ := (List.forall₂_and_left anchors findings).mp h.2
  obtain ⟨hlacks, _⟩ := (List.forall₂_and_left anchors findings).mp hrest
  exact ⟨h.1.subset hi, hcounts i hi, hlacks i hi⟩

/-- Each scope that lacks a header, and of which a call counts, is among those reported. -/
def AllReported (c : Check) (s : Source) (nodes anchors : List Nat) : Prop :=
  ∀ j ∈ nodes, counts c s j = true → missingIn c s (s.tree.scopeOf j) ≠ [] →
    ∃ i ∈ anchors, s.tree.scopeOf i = s.tree.scopeOf j

/-- What is remembered after some nodes of a file that sets no headers by a library, in a tree of
any shape. -/
structure Keeps (c : Check) (s : Source) (e : Emitter) (nodes : List Nat) (m : Memory) :
    Prop where
  visited : ∀ i ∈ nodes, i ∈ s.tree.all
  helmet : m.usesHelmet = false
  check : m.emitter.check = e.check
  path : m.emitter.path = e.path
  claimed : Claimed c s nodes m.emitter.claimed
  reported : ∃ anchors, ReportedAt c s e nodes anchors m.emitter.findings ∧
    AllReported c s nodes anchors

theorem AllReported.snoc (h : AllReported c s nodes anchors)
    (hi : counts c s i = true → missingIn c s (s.tree.scopeOf i) ≠ [] →
      ∃ j ∈ anchors, s.tree.scopeOf j = s.tree.scopeOf i) :
    AllReported c s (nodes ++ [i]) anchors := by
  intro j hj hc hm
  rcases List.mem_append.mp hj with hj | hj
  · exact h j hj hc hm
  · rw [List.mem_singleton.mp hj] at hc hm ⊢
    exact hi hc hm

theorem AllReported.mono {anchors' : List Nat} (h : AllReported c s nodes anchors)
    (hsub : anchors ⊆ anchors') : AllReported c s nodes anchors' := by
  intro j hj hc hm
  obtain ⟨i, hi, hs⟩ := h j hj hc hm
  exact ⟨i, hsub hi, hs⟩

theorem Keeps.visit (hk : c.kind = .header) (hd : s.tree.DistinctScopes) (hi : i ∈ s.tree.all)
    (h : Keeps c s e nodes m) :
    Ends (fun _ => False) (Keeps c s e (nodes ++ [i])) (Check.visit c s m i) := by
  have hvisited : ∀ j ∈ nodes ++ [i], j ∈ s.tree.all := by
    intro j hj
    rcases List.mem_append.mp hj with hj | hj
    · exact h.visited j hj
    · exact List.mem_singleton.mp hj ▸ hi
  obtain ⟨anchors, hat, hall⟩ := h.reported
  cases hc : counts c s i with
  | false =>
    rw [visit_of_not_counts hk (.inr hc)]
    refine .ok ⟨hvisited, h.helmet, h.check, h.path, h.claimed.skip hc, anchors, hat.skip, ?_⟩
    exact hall.snoc fun hcount => absurd hcount (by simp [hc])
  | true =>
    obtain ⟨e', hv, hcases⟩ := visit_of_counts hk h.helmet hc
    rw [hv]
    rcases hcases with ⟨hin, rfl⟩ | ⟨_, hm, rfl⟩ | ⟨_, hm, p, hp, rfl⟩
    -- an earlier call has claimed the same scope, and was reported if the scope lacks a header
    · obtain ⟨j, hj, hcj, hkj⟩ := (h.claimed _).mp hin
      have hs : s.tree.scopeOf j = s.tree.scopeOf i := hd.scopeOf_inj (h.visited j hj) hi hkj
      refine .ok ⟨hvisited, h.helmet, h.check, h.path, h.claimed.again hc hin, anchors, hat.skip,
        hall.snoc fun _ hm => ?_⟩
      rw [← hs] at hm ⊢
      exact hall j hj hcj hm
    · refine .ok ⟨hvisited, h.helmet, h.check, h.path, h.claimed.snoc hc, anchors, hat.skip, ?_⟩
      exact hall.snoc fun _ hne => absurd hm hne
    · refine .ok ⟨hvisited, h.helmet, h.check, h.path, h.claimed.snoc hc, anchors ++ [i], ?_, ?_⟩
      · rw [report_congr h.check h.path]
        exact hat.snoc ⟨hc, hm, says_report hp _⟩
      · refine (hall.mono (List.subset_append_left anchors [i])).snoc fun _ _ => ?_
        exact ⟨i, by simp, rfl⟩

theorem run_eq (hk : c.kind = .header) {path : Path} (hs : c.skips path = false) :
    run c s path m = s.tree.all.foldlM (Check.visit c s) (prepare s (start m path)) := by
  simp only [run, hs, Bool.false_eq_true, if_false, Check.prepare, hk]

/-- Nothing is found in a file that is left out or that sets headers by a library. -/
theorem run_silent (hk : c.kind = .header) {path : Path}
    (h : c.skips path = true ∨ usesHelmet s = true) (m : Memory) :
    ∃ m', run c s path m = .ok m' ∧ m'.emitter.findings = [] := by
  cases hs : c.skips path with
  | true => exact run_of_skips hs s m
  | false =>
    have hu : usesHelmet s = true := h.resolve_left (by simp [hs])
    have hloop : ∀ nodes : List Nat, nodes.foldlM (Check.visit c s) (prepare s (start m path)) =
        .ok (prepare s (start m path)) := by
      intro nodes
      induction nodes with
      | nil => rfl
      | cons i nodes ih =>
        rw [List.foldlM_cons, visit_of_not_counts hk (.inl hu)]
        exact ih
    exact ⟨_, (run_eq hk hs).trans (hloop s.tree.all), rfl⟩

theorem run_keeps (hk : c.kind = .header) (hd : s.tree.DistinctScopes) {path : Path}
    (hs : c.skips path = false) (hu : usesHelmet s = false) (m : Memory) :
    ∃ m', run c s path m = .ok m' ∧ Keeps c s (m.emitter.reset path) s.tree.all m' := by
  have h₀ : Keeps c s (m.emitter.reset path) [] (prepare s (start m path)) := by
    refine ⟨by simp, hu, rfl, rfl, fun k => ?_, [], ⟨.slnil, .nil⟩, by simp [AllReported]⟩
    simp [prepare, start, Emitter.reset]
  rw [run_eq hk hs]
  exact (Ends.foldlM (Keeps c s (m.emitter.reset path)) h₀
    fun _ i m' hi hm' => hm'.visit hk hd hi).exists_ok

/-- A scope is to be reported: the file is looked at and sets no headers by a library, the scope
lacks a header, and one of its calls counts. -/
def Owes (c : Check) (s : Source) (path : Path) (scope : Nat) : Prop :=
  c.skips path = false ∧ usesHelmet s = false ∧ missingIn c s scope ≠ [] ∧
    ∃ j ∈ s.tree.all, counts c s j = true ∧ s.tree.scopeOf j = scope

/-- A run reports the scopes that are to be reported, and no others. -/
theorem run_reportedAt (hk : c.kind = .header) (hd : s.tree.DistinctScopes) (path : Path)
    (m : Memory) :
    ∃ m' anchors, run c s path m = .ok m' ∧
      ReportedAt c s (m.emitter.reset path) s.tree.all anchors m'.emitter.findings ∧
      ∀ scope, (∃ i ∈ anchors, s.tree.scopeOf i = scope) ↔ Owes c s path scope := by
  by_cases hsilent : c.skips path = true ∨ usesHelmet s = true
  · obtain ⟨m', hrun, hf⟩ := run_silent hk hsilent m
    refine ⟨m', [], hrun, ⟨List.nil_sublist _, hf ▸ .nil⟩, fun scope => ?_⟩
    have hnot : ¬ Owes c s path scope := by
      intro h
      rcases hsilent with hs | hu
      · simp [h.1] at hs
      · simp [h.2.1] at hu
    simp [hnot]
  · simp only [not_or, Bool.not_eq_true] at hsilent
    obtain ⟨hs, hu⟩ := hsilent
    obtain ⟨m', hrun, hkeeps⟩ := run_keeps hk hd hs hu m
    obtain ⟨anchors, hat, hall⟩ := hkeeps.reported
    refine ⟨m', anchors, hrun, hat, fun scope => ⟨fun h => ?_, fun h => ?_⟩⟩
    · obtain ⟨i, hi, hscope⟩ := h
      obtain ⟨hmem, hc, hm⟩ := hat.counts hi
      exact ⟨hs, hu, hscope ▸ hm, i, hmem, hc, hscope⟩
    · obtain ⟨_, _, hm, j, hj, hc, hscope⟩ := h
      subst hscope
      exact hall j hj hc hm

theorem missingIn_ignoringMore (scope : Nat) :
    missingIn (c.ignoringMore patterns k) s scope = missingIn c s scope := rfl

theorem counts_of_ignoringMore (h : counts (c.ignoringMore patterns k) s i = true) :
    counts c s i = true := by
  obtain ⟨hn, hg⟩ := Bool.and_eq_true_iff.mp h
  refine Bool.and_eq_true_iff.mpr ⟨hn, ?_⟩
  cases hi : c.ignores [some (s.text i)] with
  | false => rfl
  | true => simp [ignores_ignoringMore _ hi] at hg

theorem Owes.of_ignoringMore {path : Path} {scope : Nat}
    (h : Owes (c.ignoringMore patterns k) s path scope) : Owes c s path scope := by
  obtain ⟨hskip, hu, hm, j, hj, hc, hs⟩ := h
  exact ⟨hskip, hu, hm, j, hj, counts_of_ignoringMore hc, hs⟩

/-- Of two lists of findings the second reports only scopes that the first does, and with the same
headers missing. The calls at which the two report a scope may differ. -/
def Narrows (c c' : Check) (s : Source) (e : Emitter) (findings findings' : List Finding) : Prop :=
  ∃ anchors anchors', ReportedAt c s e s.tree.all anchors findings ∧
    ReportedAt c' s e s.tree.all anchors' findings' ∧
    ∀ i' f', (i', f') ∈ anchors'.zip findings' → ∃ i f, (i, f) ∈ anchors.zip findings ∧
      s.tree.scopeOf i = s.tree.scopeOf i' ∧
      missingIn c s (s.tree.scopeOf i) = missingIn c' s (s.tree.scopeOf i') ∧
      f.message = f'.message

theorem ReportedAt.exists_finding (h : ReportedAt c s e nodes anchors findings) (hi : i ∈ anchors) :
    ∃ f, (i, f) ∈ anchors.zip findings := by
  have hi : i ∈ (anchors.zip findings).map Prod.fst := by
    rwa [List.map_fst_zip (Nat.le_of_eq (List.Forall₂.length_eq h.2))]
  obtain ⟨pair, hpair, rfl⟩ := List.mem_map.mp hi
  exact ⟨pair.2, hpair⟩

theorem ReportedAt.message_eq {f : Finding} (h : ReportedAt c s e nodes anchors findings)
    (hf : (i, f) ∈ anchors.zip findings) :
    f.message = message (missingIn c s (s.tree.scopeOf i)) :=
  (List.forall₂_zip h.2 hf).2.2.message

theorem run_narrows (hk : c.kind = .header) (hd : s.tree.DistinctScopes) (path : Path)
    (m : Memory) (patterns : List String) (k : IgnoreList) :
    ∃ m₁ m₂, run c s path m = .ok m₁ ∧ run (c.ignoringMore patterns k) s path m = .ok m₂ ∧
      Narrows c (c.ignoringMore patterns k) s (m.emitter.reset path) m₁.emitter.findings
        m₂.emitter.findings := by
  have hk' : (c.ignoringMore patterns k).kind = .header := hk
  obtain ⟨m₁, anchors, h₁, hat, howes⟩ := run_reportedAt hk hd path m
  obtain ⟨m₂, anchors', h₂, hat', howes'⟩ := run_reportedAt hk' hd path m
  refine ⟨m₁, m₂, h₁, h₂, anchors, anchors', hat, hat', ?_⟩
  intro i' f' hf'
  have howed := ((howes' _).mp ⟨i', (List.of_mem_zip hf').1, rfl⟩).of_ignoringMore
  obtain ⟨i, hi, hs⟩ := (howes _).mpr howed
  obtain ⟨f, hf⟩ := hat.exists_finding hi
  have hlacks : missingIn c s (s.tree.scopeOf i) =
      missingIn (c.ignoringMore patterns k) s (s.tree.scopeOf i') := by
    rw [hs, missingIn_ignoringMore]
  exact ⟨i, f, hf, hs, hlacks, by rw [hat.message_eq hf, hat'.message_eq hf', hlacks]⟩

end

end Header

/-- Patterns that are added to what a check ignores only suppress, if all can be read. Six checks
find a part of what they found, in the same order. The check for headers reports no scope that it
did not report, and each with the same message, but perhaps at a later call; there the scopes are to
be told apart by their keys, as those of a file that was parsed are. -/
theorem run_ignoring_suppresses (c : Check) (P Q : List String) {l' : IgnoreList}
    (hl : (IgnoreList.read (P ++ Q)).run.value = .ok l') (s : Source) (path : Path)
    (m : Memory) :
    ∃ l, (IgnoreList.read P).run.value = .ok l ∧
      (c.kind ≠ .header →
        Paired s.tree (fun fs fs' => fs'.Sublist fs) (run (c.ignoring P l) s path m)
          (run (c.ignoring (P ++ Q) l') s path m)) ∧
      (c.kind = .header → s.tree.DistinctScopes →
        ∃ m₁ m₂, run (c.ignoring P l) s path m = .ok m₁ ∧
          run (c.ignoring (P ++ Q) l') s path m = .ok m₂ ∧
          Header.Narrows (c.ignoring P l) (c.ignoring (P ++ Q) l') s (m.emitter.reset path)
            m₁.emitter.findings m₂.emitter.findings) := by
  obtain ⟨l, k, hP, rfl⟩ := IgnoreList.read_append hl
  have hmore : c.ignoring (P ++ Q) (l ++ k) = (c.ignoring P l).ignoringMore (P ++ Q) k := rfl
  rw [hmore]
  refine ⟨l, hP, fun hk => ?_, fun hk hd => ?_⟩
  · have hk₁ : (c.ignoring P l).kind ≠ .header := hk
    refine run_sublist hk₁ hk₁ rfl fun i => ?_
    rw [begun_ignoringMore]
    exact finds_ignoringMore hk₁
  · have hk₁ : (c.ignoring P l).kind = .header := hk
    exact Header.run_narrows hk₁ hd path m (P ++ Q) k

def twoHeaders : Source where
  bytes := "res.set('A', Function(q)); res.set('B', Function(r))".toUTF8.data
  tree := ⟨#[
    { kind := .program, start := 0, stop := 52 },
    { kind := .callExpression, start := 0, stop := 25, parent := some 0 },
    { kind := .memberExpression, start := 0, stop := 7, parent := some 1, field := some .callee },
    { kind := .identifier, start := 0, stop := 3, parent := some 2, field := some .object },
    { kind := .propertyIdentifier, start := 4, stop := 7, parent := some 2,
      field := some .property },
    { kind := .arguments, start := 7, stop := 25, parent := some 1, field := some .arguments },
    { kind := .stringLiteral, start := 8, stop := 11, parent := some 5 },
    { kind := .callExpression, start := 13, stop := 24, parent := some 5 },
    { kind := .identifier, start := 13, stop := 21, parent := some 7, field := some .callee },
    { kind := .arguments, start := 21, stop := 24, parent := some 7, field := some .arguments },
    { kind := .identifier, start := 22, stop := 23, parent := some 9 },
    { kind := .callExpression, start := 27, stop := 52, parent := some 0 },
    { kind := .memberExpression, start := 27, stop := 34, parent := some 11,
      field := some .callee },
    { kind := .identifier, start := 27, stop := 30, parent := some 12, field := some .object },
    { kind := .propertyIdentifier, start := 31, stop := 34, parent := some 12,
      field := some .property },
    { kind := .arguments, start := 34, stop := 52, parent := some 11, field := some .arguments },
    { kind := .stringLiteral, start := 35, stop := 38, parent := some 15 },
    { kind := .callExpression, start := 40, stop := 51, parent := some 15 },
    { kind := .identifier, start := 40, stop := 48, parent := some 17, field := some .callee },
    { kind := .arguments, start := 48, stop := 51, parent := some 17, field := some .arguments },
    { kind := .identifier, start := 49, stop := 50, parent := some 19 }]⟩

def columns (x : Except Fault Memory) : Option (List Nat) :=
  x.toOption.map fun m => m.emitter.findings.map (·.start.column)

/-- To ignore what holds a `q` takes away one of two findings about evaluated code, and moves the
one about headers from the first call to the second. -/
theorem twoHeaders_suppressed :
    let code := ofKind .code
    let header := ofKind .header
    let P := ["logger"]
    let Q := ["q"]
    let path : Path := { parts := ["a.js"] }
    ∃ l l', (IgnoreList.read P).run.value = .ok l ∧ (IgnoreList.read (P ++ Q)).run.value = .ok l' ∧
      twoHeaders.tree.DistinctScopes ∧
      (∃ m₁ m₂, run (code.ignoring P l) twoHeaders path code.fresh = .ok m₁ ∧
        run (code.ignoring (P ++ Q) l') twoHeaders path code.fresh = .ok m₂ ∧
        m₂.emitter.findings.Sublist m₁.emitter.findings ∧
        columns (.ok m₁) = some [14, 41] ∧ columns (.ok m₂) = some [41]) ∧
      ∃ m₁ m₂, run (header.ignoring P l) twoHeaders path header.fresh = .ok m₁ ∧
        run (header.ignoring (P ++ Q) l') twoHeaders path header.fresh = .ok m₂ ∧
        Header.Narrows (header.ignoring P l) (header.ignoring (P ++ Q) l') twoHeaders
          (header.fresh.emitter.reset path) m₁.emitter.findings m₂.emitter.findings ∧
        columns (.ok m₁) = some [1] ∧ columns (.ok m₂) = some [28] := by
  intro code header P Q path
  let l := (IgnoreList.read P).run.value.toOption.getD []
  let l' := (IgnoreList.read (P ++ Q)).run.value.toOption.getD []
  have hl : (IgnoreList.read P).run.value = .ok l := by decide +kernel
  have hl' : (IgnoreList.read (P ++ Q)).run.value = .ok l' := by decide +kernel
  have hd : twoHeaders.tree.DistinctScopes := by decide +kernel
  refine ⟨l, l', hl, hl', hd, ?_, ?_⟩
  · have h₁ : columns (run (code.ignoring P l) twoHeaders path code.fresh) = some [14, 41] := by
      decide +kernel
    have h₂ : columns (run (code.ignoring (P ++ Q) l') twoHeaders path code.fresh) =
        some [41] := by decide +kernel
    obtain ⟨k, hk, hcode, -⟩ := run_ignoring_suppresses code P Q hl' twoHeaders path code.fresh
    obtain rfl : l = k := Except.ok.inj (hl.symm.trans hk)
    rcases hcode nofun with ⟨m₁, m₂, hm₁, hm₂, hsub⟩ | ⟨hu, -, -⟩
    · exact ⟨m₁, m₂, hm₁, hm₂, hsub, hm₁ ▸ h₁, hm₂ ▸ h₂⟩
    · exact absurd hu (by decide +kernel)
  · have h₁ : columns (run (header.ignoring P l) twoHeaders path header.fresh) = some [1] := by
      decide +kernel
    have h₂ : columns (run (header.ignoring (P ++ Q) l') twoHeaders path header.fresh) =
        some [28] := by decide +kernel
    obtain ⟨k, hk, -, hheader⟩ :=
      run_ignoring_suppresses header P Q hl' twoHeaders path header.fresh
    obtain rfl : l = k := Except.ok.inj (hl.symm.trans hk)
    obtain ⟨m₁, m₂, hm₁, hm₂, hnarrows⟩ := hheader rfl hd
    exact ⟨m₁, m₂, hm₁, hm₂, hnarrows, hm₁ ▸ h₁, hm₂ ▸ h₂⟩

/-- The text `res.set('A'); res.set('B')` with each call in a function of its own, where both
functions are said to have the same bytes. -/
def twinScopes : Source where
  bytes := "res.set('A'); res.set('B')".toUTF8.data
  tree := ⟨#[
    { kind := .program, start := 0, stop := 26 },
    { kind := .arrowFunction, start := 0, stop := 26, parent := some 0 },
    { kind := .callExpression, start := 0, stop := 12, parent := some 1 },
    { kind := .memberExpression, start := 0, stop := 7, parent := some 2, field := some .callee },
    { kind := .identifier, start := 0, stop := 3, parent := some 3, field := some .object },
    { kind := .propertyIdentifier, start := 4, stop := 7, parent := some 3,
      field := some .property },
    { kind := .arguments, start := 7, stop := 12, parent := some 2, field := some .arguments },
    { kind := .stringLiteral, start := 8, stop := 11, parent := some 6 },
    { kind := .arrowFunction, start := 0, stop := 26, parent := some 0 },
    { kind := .callExpression, start := 14, stop := 26, parent := some 8 },
    { kind := .memberExpression, start := 14, stop := 21, parent := some 9,
      field := some .callee },
    { kind := .identifier, start := 14, stop := 17, parent := some 10, field := some .object },
    { kind := .propertyIdentifier, start := 18, stop := 21, parent := some 10,
      field := some .property },
    { kind := .arguments, start := 21, stop := 26, parent := some 9, field := some .arguments },
    { kind := .stringLiteral, start := 22, stop := 25, parent := some 13 }]⟩

def said (x : Except Fault Memory) : Option (List String) :=
  x.toOption.map fun m => m.emitter.findings.map (·.message)

theorem exists_of_said {x : Except Fault Memory} {messages : List String}
    (h : said x = some messages) :
    ∃ m, x = .ok m ∧ m.emitter.findings.map (·.message) = messages := by
  cases x with
  | error f => cases h
  | ok m => exact ⟨m, rfl, Option.some.inj h⟩

/-- Where scopes share a key, a pattern that takes the first call away hands the key to a scope that
lacks a header, and a finding appears. And there are patterns with which no check runs at all. -/
theorem ignoring_may_report_more :
    let header : Check := { kind := .header, options := { requiredHeaders := ["A"] } }
    let path : Path := { parts := ["a.js"] }
    ¬ twinScopes.tree.DistinctScopes ∧ (IgnoreList.read []).run.value = .ok [] ∧
      (∃ l m₁ m₂, (IgnoreList.read ["'A'"]).run.value = .ok l ∧
        run (header.ignoring [] []) twinScopes path header.fresh = .ok m₁ ∧
        run (header.ignoring ["'A'"] l) twinScopes path header.fresh = .ok m₂ ∧
        m₁.emitter.findings = [] ∧
        m₂.emitter.findings.map (·.message) = ["Missing security headers: A"]) ∧
      (IgnoreList.read ["(?a)(?u)z"]).run.value = .error .conflictingFlags := by
  intro header path
  refine ⟨by decide +kernel, rfl, ?_, by decide +kernel⟩
  let l := (IgnoreList.read ["'A'"]).run.value.toOption.getD []
  have hl : (IgnoreList.read ["'A'"]).run.value = .ok l := by decide +kernel
  have hnone : said (run (header.ignoring [] []) twinScopes path header.fresh) = some [] := by
    decide +kernel
  have hone : said (run (header.ignoring ["'A'"] l) twinScopes path header.fresh) =
      some ["Missing security headers: A"] := by
    decide +kernel
  obtain ⟨m₁, h₁, hnone⟩ := exists_of_said hnone
  obtain ⟨m₂, h₂, hone⟩ := exists_of_said hone
  exact ⟨l, m₁, m₂, hl, h₁, h₂, List.map_eq_nil_iff.mp hnone, hone⟩

end Check

end SinkAudit
