import SinkAudit.Proofs.Order
import SinkAudit.Proofs.Reuse

/-! # Several checks on one file

A scan of a file with fresh checks returns the findings of each check by itself, put in order. So
a check finds among others what it finds alone, and the order of the checks does not show. -/
namespace SinkAudit

section
variable {α β τ : Type} [DecidableEq τ] {tag : α → τ} {tagOf : β → τ} {g : α → List β} {l : List α}

theorem filter_flatMap_tag (hg : ∀ a ∈ l, ∀ b ∈ g a, tagOf b = tag a) (t : τ) :
    (l.flatMap g).filter (tagOf · = t) = (l.filter (tag · = t)).flatMap g := by
  induction l with
  | nil => rfl
  | cons a l ih =>
    have htag (b : β) (hb : b ∈ g a) : decide (tagOf b = t) = decide (tag a = t) := by
      rw [hg a (by simp) b hb]
    rw [List.flatMap_cons, List.filter_append, ih fun a ha => hg a (by simp [ha]),
      List.filter_congr htag]
    by_cases h : tag a = t
    · simp [h]
    · simp [h]

theorem filter_tag_of_nodup (hd : (l.map tag).Nodup) {a : α} (ha : a ∈ l) :
    l.filter (tag · = tag a) = [a] := by
  induction l with
  | nil => cases ha
  | cons b l ih =>
    obtain ⟨hb, hd⟩ := List.nodup_cons.mp hd
    rcases List.mem_cons.mp ha with rfl | ha
    · rw [List.filter_cons_of_pos (by simp), List.filter_eq_nil_iff.mpr]
      intro c hc he
      exact hb (of_decide_eq_true he ▸ List.mem_map_of_mem hc)
    · have hne : tag b ≠ tag a := fun he => hb (he ▸ List.mem_map_of_mem ha)
      rw [List.filter_cons_of_neg (by simpa using hne), ih hd ha]

end

/-- The order of blocks of findings that are told apart by their checks does not show. -/
theorem Finding.sort_flatMap_perm {α : Type} {id : α → String} {g : α → List Finding}
    {l l' : List α} (hp : l'.Perm l) (hd : (l.map id).Nodup) (hg : ∀ a ∈ l, ∀ f ∈ g a, f.check = id a) :
    sort (l'.flatMap g) = sort (l.flatMap g) := by
  have hblock (t : String) :
      (l'.flatMap g).filter (·.check = t) = (l.flatMap g).filter (·.check = t) := by
    rw [filter_flatMap_tag hg, filter_flatMap_tag fun a ha => hg a (hp.subset ha)]
    have hf := hp.filter (id · = t)
    by_cases h : ∃ a ∈ l, id a = t
    · obtain ⟨a, ha, rfl⟩ := h
      rw [filter_tag_of_nodup hd ha] at hf ⊢
      rw [hf.eq_singleton]
    · have hnil : l.filter (id · = t) = [] := by
        rw [List.filter_eq_nil_iff]
        exact fun a ha he => h ⟨a, ha, of_decide_eq_true he⟩
      rw [hnil] at hf ⊢
      rw [hf.eq_nil]
  refine sort_congr fun k => ?_
  -- a key fixes the check, so only the findings of one block matter
  have hk (fs : List Finding) : fs.filter (key · = k) =
      (fs.filter (·.check = (ofLex (ofLex (ofLex k).2).2).2)).filter (key · = k) := by
    rw [List.filter_filter]
    refine List.filter_congr fun f _ => ?_
    by_cases h : key f = k
    · subst h
      simp [key]
    · simp [h]
  rw [hk, hblock, ← hk]

namespace Checker

theorem alone_ends (c : Check) (s : Source) (path : Path) :
    Ends (Check.Fails s.tree) (fun fs => ∀ f ∈ fs, f.check = c.kind.id ∧ f.path = path)
      (alone c (s, path)) := by
  have h := Check.run_ends c s path c.fresh
  unfold alone run ofCheck
  dsimp only
  generalize c.run s path c.fresh = x at h
  cases h with
  | error h => exact .error h
  | ok h =>
    refine .ok fun f hf => ?_
    obtain ⟨i, -, p, risk, message, advice, rfl⟩ := h.2.2.mem hf
    exact ⟨rfl, rfl⟩

/-- Checkers with memories of their own find what each check finds alone and stay so. -/
theorem runAll_like_alone {ks : List Checker} (ho : ∀ k ∈ ks, k.Owned) (s : Source) (path : Path) :
    Alike (fun ks' fss => (∀ k ∈ ks', k.Owned) ∧ ks'.map check = ks.map check ∧
        ks'.map findings = fss)
      (runAll ks s path) ((ks.map check).mapM fun c => alone c (s, path)) := by
  unfold runAll
  induction ks with
  | nil => exact .ok ⟨by simp, rfl, rfl⟩
  | cons k ks ih =>
    rw [List.map_cons, List.mapM_cons, List.mapM_cons]
    refine (run_like_alone (ho k (by simp)) s path).bind ?_
    rintro k' _ ⟨hk, hc, rfl⟩
    refine (ih fun k hk => ho k (by simp [hk])).bind ?_
    rintro ks' _ ⟨hks, hcs, rfl⟩
    exact .ok ⟨by simpa using ⟨hk, hks⟩, by rw [List.map_cons, hc, hcs], rfl⟩

end Checker

def freshScan (cs : List Check) (extension : String) (s : Source) (path : Path) :
    Except Error (List Finding) :=
  (scanSource (cs.map Checker.ofCheck) extension s path).outcome.map (·.2)

section
variable {extension : String} {s : Source} {path : Path} {g : Grammar}

theorem outcome_scanSource (hg : Grammar.ofExtension? (Text.lower extension) = some g)
    (ks : List Checker) :
    (scanSource ks extension s path).outcome =
      ((Checker.runAll ks s path).mapError .analysis).map fun ks => (ks, Checker.report ks) := by
  rw [scanSource, hg]
  simp only [Attempt.outcome_bind, Attempt.outcome_ofExcept]
  cases Checker.runAll ks s path with
  | error f => rfl
  | ok ks => rfl

theorem freshScan_of_no_grammar (hg : Grammar.ofExtension? (Text.lower extension) = none)
    (cs : List Check) : freshScan cs extension s path = .ok [] := by
  rw [freshScan, scanSource, hg]
  rfl

/-- Checkers that have a memory of their own find in a file what their checks find alone, put in
order, and their memories stay their own. -/
theorem scanSource_like_alone (hg : Grammar.ofExtension? (Text.lower extension) = some g)
    {ks : List Checker} (ho : ∀ k ∈ ks, k.Owned) (s : Source) (path : Path) :
    Alike (fun a fs => (∀ k ∈ a.1, k.Owned) ∧ a.1.map Checker.check = ks.map Checker.check ∧
        a.2 = fs)
      (scanSource ks extension s path).outcome
      ((((ks.map Checker.check).mapM fun c => Checker.alone c (s, path)).mapError .analysis).map
        fun fss => Finding.sort fss.flatten) := by
  rw [outcome_scanSource hg]
  refine ((Checker.runAll_like_alone ho s path).mapError Error.analysis).map ?_
  rintro ks' _ ⟨ho', hc, rfl⟩
  exact ⟨ho', hc, congrArg Finding.sort List.flatMap_def⟩

theorem owned_map_ofCheck (cs : List Check) : ∀ k ∈ cs.map Checker.ofCheck, k.Owned := by
  intro k hk
  obtain ⟨c, -, rfl⟩ := List.mem_map.mp hk
  exact Checker.owned_ofCheck c

theorem map_check_map_ofCheck (cs : List Check) :
    (cs.map Checker.ofCheck).map Checker.check = cs := by
  rw [List.map_map]
  exact List.map_id cs

theorem freshScan_eq (hg : Grammar.ofExtension? (Text.lower extension) = some g) (cs : List Check) :
    freshScan cs extension s path =
      ((cs.mapM fun c => Checker.alone c (s, path)).mapError .analysis).map fun fss =>
        Finding.sort fss.flatten := by
  have h := scanSource_like_alone hg (owned_map_ofCheck cs) s path
  rw [map_check_map_ofCheck] at h
  exact (h.map_left fun _ _ ha => ha.2.2).eq

/-- Checkers find in a file what fresh ones find, whatever files they have seen before. -/
theorem scanSource_like_fresh {ks : List Checker} (ho : ∀ k ∈ ks, k.Owned) (extension : String)
    (s : Source) (path : Path) :
    Alike (fun a fs => (∀ k ∈ a.1, k.Owned) ∧ a.1.map Checker.check = ks.map Checker.check ∧
        a.2 = fs)
      (scanSource ks extension s path).outcome
      (freshScan (ks.map Checker.check) extension s path) := by
  cases hg : Grammar.ofExtension? (Text.lower extension) with
  | none =>
    rw [freshScan_of_no_grammar hg, scanSource, hg]
    exact .ok ⟨ho, rfl, rfl⟩
  | some g =>
    rw [freshScan_eq hg]
    exact scanSource_like_alone hg ho s path

def Checker.succeeds (s : Source) (path : Path) (c : Check) : Bool := (alone c (s, path)).isOk

def Checker.found (s : Source) (path : Path) (c : Check) : List Finding :=
  (alone c (s, path)).toOption.getD []

theorem Checker.alone_eq (c : Check) : alone c (s, path) =
    if succeeds s path c then .ok (found s path c) else .error .noTarget := by
  have h := alone_ends c s path
  unfold succeeds found
  generalize alone c (s, path) = x at h
  cases h with
  | ok _ => rfl
  | error h => exact congrArg Except.error h.1

theorem Checker.succeeds_of_targeted (ht : ¬ Check.Untargeted s.tree) (c : Check) :
    succeeds s path c = true := by
  have h := alone_ends c s path
  unfold succeeds
  generalize alone c (s, path) = x at h
  cases h with
  | ok _ => rfl
  | error h => exact absurd h.2 ht

theorem Checker.of_mem_found {c : Check} {f : Finding} (hf : f ∈ found s path c) :
    f.check = c.kind.id ∧ f.path = path := by
  have h := alone_ends c s path
  unfold found at hf
  generalize alone c (s, path) = x at h hf
  cases h with
  | ok h => exact h f hf
  | error _ => cases hf

/-- A scan fails if one of its checks does, whichever it is, and always in the same way. -/
theorem freshScan_eq_ite (hg : Grammar.ofExtension? (Text.lower extension) = some g)
    (cs : List Check) :
    freshScan cs extension s path =
      if cs.all (Checker.succeeds s path) then
        .ok (Finding.sort (cs.flatMap (Checker.found s path)))
      else .error (.analysis .noTarget) := by
  rw [freshScan_eq hg]
  by_cases hall : cs.all (Checker.succeeds s path) = true
  · have hok (c : Check) (hc : c ∈ cs) :
        Checker.alone c (s, path) = .ok (Checker.found s path c) := by
      rw [Checker.alone_eq, if_pos (List.all_eq_true.mp hall c hc)]
    rw [if_pos hall, mapM_eq_ok hok, List.flatMap_def]
    rfl
  · obtain ⟨c, hc, hs⟩ : ∃ c ∈ cs, Checker.succeeds s path c = false := by simpa using hall
    have hends (c : Check) : Ends (· = .noTarget) (fun _ => True) (Checker.alone c (s, path)) := by
      rw [Checker.alone_eq]
      split
      · exact .ok trivial
      · exact .error rfl
    have herr : Checker.alone c (s, path) = .error .noTarget := by simp [Checker.alone_eq, hs]
    rw [if_neg hall, mapM_eq_error (fun c _ => hends c) hc herr]
    rfl

theorem freshScan_eq_ok_iff (hg : Grammar.ofExtension? (Text.lower extension) = some g)
    {cs : List Check} {fs : List Finding} :
    freshScan cs extension s path = .ok fs ↔
      (∀ c ∈ cs, Checker.succeeds s path c = true) ∧
        Finding.sort (cs.flatMap (Checker.found s path)) = fs := by
  rw [freshScan_eq_ite hg, ← List.all_eq_true]
  by_cases hall : cs.all (Checker.succeeds s path) = true
  · rw [if_pos hall, Except.ok.injEq]
    exact ⟨fun h => ⟨hall, h⟩, fun h => h.2⟩
  · rw [if_neg hall]
    exact ⟨fun h => (nomatch h), fun h => absurd h.1 hall⟩

theorem exists_freshScan_ok (h : ¬ Check.Untargeted s.tree) (cs : List Check) :
    ∃ fs, freshScan cs extension s path = .ok fs := by
  cases hg : Grammar.ofExtension? (Text.lower extension) with
  | none => exact ⟨[], freshScan_of_no_grammar hg cs⟩
  | some g =>
    exact ⟨_, (freshScan_eq_ok_iff hg).mpr ⟨fun c _ => Checker.succeeds_of_targeted h c, rfl⟩⟩

theorem exists_freshScan_ok_iff (cs : List Check) :
    (∃ fs, freshScan cs extension s path = .ok fs) ↔
      ∀ c ∈ cs, ∃ fs, freshScan [c] extension s path = .ok fs := by
  cases hg : Grammar.ofExtension? (Text.lower extension) with
  | none => simp [freshScan_of_no_grammar hg]
  | some g => simp [freshScan_eq_ok_iff hg]

/-- What a scan finds is what one of its checks finds alone. -/
theorem mem_freshScan_iff (hg : Grammar.ofExtension? (Text.lower extension) = some g)
    {cs : List Check} {fs : List Finding} (h : freshScan cs extension s path = .ok fs)
    {f : Finding} : f ∈ fs ↔ ∃ c ∈ cs, f ∈ Checker.found s path c := by
  obtain ⟨-, rfl⟩ := (freshScan_eq_ok_iff hg).mp h
  rw [(Finding.sort_stable _).mem_iff, List.mem_flatMap]

variable {cs cs' : List Check}

theorem freshScan_singleton (hd : (cs.map fun c => c.kind.id).Nodup) {fs : List Finding}
    (h : freshScan cs extension s path = .ok fs) {c : Check} (hc : c ∈ cs) :
    freshScan [c] extension s path = .ok (fs.filter fun f => f.check = c.kind.id) := by
  cases hg : Grammar.ofExtension? (Text.lower extension) with
  | none =>
    rw [freshScan_of_no_grammar hg] at h ⊢
    cases h
    rfl
  | some g =>
    obtain ⟨hall, rfl⟩ := (freshScan_eq_ok_iff hg).mp h
    refine (freshScan_eq_ok_iff hg).mpr ⟨by simpa using hall c hc, ?_⟩
    rw [← Finding.sort_filter, filter_flatMap_tag fun c _ f hf => (Checker.of_mem_found hf).1,
      filter_tag_of_nodup hd hc]

theorem freshScan_perm (hd : (cs.map fun c => c.kind.id).Nodup) (hp : cs'.Perm cs) :
    freshScan cs' extension s path = freshScan cs extension s path := by
  cases hg : Grammar.ofExtension? (Text.lower extension) with
  | none => rw [freshScan_of_no_grammar hg, freshScan_of_no_grammar hg]
  | some g =>
    rw [freshScan_eq_ite hg, freshScan_eq_ite hg, hp.all_eq,
      Finding.sort_flatMap_perm hp hd fun c _ f hf => (Checker.of_mem_found hf).1]

end

/-- Checks with different identifiers do not interact. Each of them finds among the others what it
finds alone, in the same order; the scan finishes exactly if it does so with each of them, and in
particular where all assignments have a target; and it does not depend on the order of the checks,
neither in what it finds nor in how it fails. -/
theorem freshScan_checks_independent (cs : List Check) (hd : (cs.map fun c => c.kind.id).Nodup)
    (extension : String) (s : Source) (path : Path) :
    (∀ fs, freshScan cs extension s path = .ok fs → ∀ c ∈ cs,
      freshScan [c] extension s path = .ok (fs.filter fun f => f.check = c.kind.id)) ∧
    ((∃ fs, freshScan cs extension s path = .ok fs) ↔
      ∀ c ∈ cs, ∃ fs, freshScan [c] extension s path = .ok fs) ∧
    (¬ Check.Untargeted s.tree → ∃ fs, freshScan cs extension s path = .ok fs) ∧
    ∀ cs' : List Check, cs'.Perm cs →
      freshScan cs' extension s path = freshScan cs extension s path :=
  ⟨fun _ h _ hc => freshScan_singleton hd h hc, exists_freshScan_ok_iff cs,
    fun h => exists_freshScan_ok h cs, fun _ hp => freshScan_perm hd hp⟩

def twoSinks : Source where
  bytes := "eval(x);res.set('A')".toUTF8.data
  tree := ⟨#[
    { kind := .program, start := 0, stop := 20 },
    { kind := .callExpression, start := 0, stop := 7, parent := some 0 },
    { kind := .identifier, start := 0, stop := 4, parent := some 1, field := some .callee },
    { kind := .arguments, start := 4, stop := 7, parent := some 1, field := some .arguments },
    { kind := .identifier, start := 5, stop := 6, parent := some 3 },
    { kind := .callExpression, start := 8, stop := 20, parent := some 0 },
    { kind := .memberExpression, start := 8, stop := 15, parent := some 5, field := some .callee },
    { kind := .identifier, start := 8, stop := 11, parent := some 6, field := some .object },
    { kind := .propertyIdentifier, start := 12, stop := 15, parent := some 6,
      field := some .property },
    { kind := .arguments, start := 15, stop := 20, parent := some 5, field := some .arguments },
    { kind := .stringLiteral, start := 16, stop := 19, parent := some 9 }]⟩

theorem twoSinks_checks_independent : (Check.defaults.map fun c => c.kind.id).Nodup ∧
    ∃ fs, freshScan Check.defaults ".js" twoSinks { parts := ["a.js"] } = .ok fs ∧
      freshScan [.ofKind .code] ".js" twoSinks { parts := ["a.js"] } =
        .ok (fs.filter fun f => f.check = CheckKind.code.id) ∧
      freshScan Check.defaults.reverse ".js" twoSinks { parts := ["a.js"] } = .ok fs := by
  have hd : (Check.defaults.map fun c => c.kind.id).Nodup := by decide
  obtain ⟨hfilter, -, -, hperm⟩ :=
    freshScan_checks_independent Check.defaults hd ".js" twoSinks { parts := ["a.js"] }
  obtain ⟨fs, hfs⟩ : ∃ fs, freshScan Check.defaults ".js" twoSinks { parts := ["a.js"] } = .ok fs :=
    exists_eq_ok (by decide +kernel)
  refine ⟨hd, fs, hfs, hfilter fs hfs (.ofKind .code) ?_, ?_⟩
  · exact List.mem_map_of_mem (by decide)
  · rw [hperm _ (List.reverse_perm _), hfs]

end SinkAudit
