import Mathlib.Data.List.Nodup
import SinkAudit.Project.Scan
import SinkAudit.Proofs.Scan

/-! # Scans of projects

A project is scanned by the same checks from file to file. Its result is the ordered union of
scans of the files by fresh checks, so neither the order in which the files are listed nor the
other files show in what is found in one. -/
namespace SinkAudit

/-! ## The checks -/

namespace Config

def selected (config : Config) (only : List String) : List CheckKind :=
  CheckKind.all.filter fun kind =>
    config.isEnabled kind.id && (only.isEmpty || only.contains kind.id)

def checkOf (config : Config) (kind : CheckKind) : Except Error Check :=
  (config.optionsFor kind.id).outcome.map fun options => { kind, options }

theorem ofId?_id {kind : CheckKind} (h : kind ∈ CheckKind.all) :
    CheckKind.ofId? kind.id = some kind := by
  revert kind
  decide

theorem id_injective : Function.Injective CheckKind.id := by
  intro a b
  cases a <;> cases b <;> decide

theorem lookup_options {cs : List Check} (hd : (cs.map fun c => c.kind.id).Nodup) {c : Check}
    (hc : c ∈ cs) : (cs.map fun c => (c.kind.id, c.options)).lookup c.kind.id = some c.options := by
  induction cs with
  | nil => cases hc
  | cons c' cs ih =>
    obtain ⟨hc', hd⟩ := List.nodup_cons.mp hd
    rcases List.mem_cons.mp hc with rfl | hc
    · exact List.lookup_cons_self
    · have hne : (c.kind.id == c'.kind.id) = false :=
        beq_eq_false_iff_ne.mpr fun he => hc' (List.mem_map.mpr ⟨c, hc, he⟩)
      rw [List.map_cons, List.lookup_cons, hne]
      exact ih hd hc

theorem options_like_checks (config : Config) (kinds : List CheckKind) :
    Alike (fun options cs => options = cs.map (fun c : Check => (c.kind.id, c.options)) ∧
        cs.map Check.kind = kinds)
      ((kinds.map CheckKind.id).mapM fun id =>
        (config.optionsFor id).outcome >>= fun o => .ok (id, o))
      (kinds.mapM config.checkOf) := by
  induction kinds with
  | nil => exact .ok ⟨rfl, rfl⟩
  | cons kind kinds ih =>
    rw [List.map_cons, List.mapM_cons, List.mapM_cons, checkOf]
    cases (config.optionsFor kind.id).outcome with
    | error e => exact .error e
    | ok o =>
      refine Alike.bind (R := fun p c => p = (kind.id, o) ∧ c = { kind, options := o })
        (.ok ⟨rfl, rfl⟩) ?_
      rintro _ _ ⟨rfl, rfl⟩
      refine ih.bind ?_
      rintro _ cs ⟨rfl, hcs⟩
      exact .ok ⟨rfl, by rw [List.map_cons, hcs]⟩

theorem nodup_ids (p : CheckKind → Bool) :
    ((CheckKind.all.filter p).map CheckKind.id).Nodup := by
  have hall : (CheckKind.all.map CheckKind.id).Nodup := by decide
  exact hall.sublist (List.filter_sublist.map CheckKind.id)

/-- Checks of kinds that are run, in their order, are selected by their identifiers. -/
theorem select_checks {cs : List Check} {p : CheckKind → Bool}
    (hk : cs.map Check.kind = CheckKind.all.filter p) :
    Check.select (cs.map fun c => (c.kind.id, c.options))
      ((CheckKind.all.filter p).map CheckKind.id) = .ok cs := by
  have hunknown : (((CheckKind.all.filter p).map CheckKind.id).filter fun id =>
      (CheckKind.ofId? id).isNone) = [] := by
    rw [List.filter_eq_nil_iff]
    intro id hid
    obtain ⟨kind, hkind, rfl⟩ := List.mem_map.mp hid
    simp [ofId?_id (List.mem_filter.mp hkind).1]
  have hkinds : (CheckKind.all.filter fun kind =>
      ((CheckKind.all.filter p).map CheckKind.id).contains kind.id) = CheckKind.all.filter p := by
    refine List.filter_congr fun kind hkind => ?_
    rw [Bool.eq_iff_iff, List.contains_iff_mem, List.mem_map_of_injective id_injective,
      List.mem_filter]
    exact and_iff_right hkind
  have hd : (cs.map fun c => c.kind.id).Nodup := by
    have hmap : (cs.map fun c => c.kind.id) = (cs.map Check.kind).map CheckKind.id := by
      rw [List.map_map]
      rfl
    rw [hmap, hk]
    exact nodup_ids p
  unfold Check.select
  simp only [hunknown, hkinds, List.isEmpty_nil, if_true]
  rw [← hk, List.map_map]
  refine congrArg Except.ok ((List.map_congr_left fun c hc => ?_).trans (List.map_id cs))
  simp only [Function.comp, lookup_options hd hc, id]

/-- Each selected check is built from the options for its kind alone. -/
theorem outcome_selectChecks (config : Config) {only : List String}
    (h : ∀ id ∈ only, (CheckKind.ofId? id).isSome) :
    (config.selectChecks only).outcome = (config.selected only).mapM config.checkOf := by
  have hunknown : (only.filter fun id => (CheckKind.ofId? id).isNone) = [] := by
    rw [List.filter_eq_nil_iff]
    intro id hid
    simp [Option.isSome_iff_ne_none.mp (h id hid)]
  have hids : (CheckKind.all.map (·.id)).filter (fun id =>
      config.isEnabled id && (only.isEmpty || only.contains id)) =
        (config.selected only).map CheckKind.id := by
    rw [List.filter_map]
    rfl
  unfold selectChecks
  simp only [hunknown, hids, List.isEmpty_nil, if_true, Attempt.outcome_bind, Attempt.outcome_pure,
    Attempt.outcome_mapM, Attempt.outcome_ofExcept]
  refine (options_like_checks config (config.selected only)).bind_eq ?_
  rintro _ cs ⟨rfl, hcs⟩
  rw [selected, select_checks hcs]
  rfl

theorem known_of_selectChecks {config : Config} {only : List String} {checks : List Check}
    (h : (config.selectChecks only).outcome = .ok checks) :
    ∀ id ∈ only, (CheckKind.ofId? id).isSome := by
  intro id hid
  by_contra hunknown
  have hne : (only.filter fun id => (CheckKind.ofId? id).isNone).isEmpty = false := by
    rw [List.isEmpty_eq_false_iff_exists_mem]
    exact ⟨id, List.mem_filter.mpr ⟨hid, by simpa using hunknown⟩⟩
  unfold selectChecks at h
  simp only [hne, Bool.false_eq_true, if_false, Attempt.outcome_bind] at h
  cases h

end Config

/-! ## The files -/

namespace Workspace
variable {w w' : Workspace}

variable (root : Path) (extensions ignore : List String)

theorem sourceFiles_perm : (w.sourceFiles root extensions ignore).Perm
    ((w.filesBelow root).filter fun f =>
      extensions.contains f.path.extension && !f.path.isIgnored ignore) :=
  List.mergeSort_perm _ _

end Workspace

/-! ## The scan -/

def SourceFile.scan (f : SourceFile) (checks : List Check) : Except Error (List Finding) :=
  freshScan checks f.path.suffix f.source f.path

theorem grammar_of_scanned {extension : String}
    (h : Workspace.scannedExtensions.contains extension = true) :
    (Grammar.ofExtension? extension).isSome := by
  have hall : Workspace.scannedExtensions.all
      (fun e => (Grammar.ofExtension? e).isSome) = true := by decide
  exact List.all_eq_true.mp hall extension (List.contains_iff_mem.mp h)

/-- Scanning one more file adds what fresh checks find in it. -/
theorem Progress.scan_like_fresh {p : Progress} (ho : ∀ k ∈ p.checkers, k.Owned) {f : SourceFile}
    (hf : Workspace.scannedExtensions.contains f.path.extension = true) :
    Alike (fun p' fs => (∀ k ∈ p'.checkers, k.Owned) ∧
        p'.checkers.map Checker.check = p.checkers.map Checker.check ∧
        p'.findings = p.findings ++ fs ∧ p'.scanned = p.scanned + 1 ∧ p'.skipped = p.skipped)
      (p.scan f).outcome (f.scan (p.checkers.map Checker.check)) := by
  have hg : (Grammar.ofExtension? f.path.extension).isNone = false := by
    simpa using grammar_of_scanned hf
  have hscan : (p.scan f).outcome =
      (scanSource p.checkers f.path.suffix f.source f.path).outcome.map fun a =>
        { p with checkers := a.1, findings := p.findings ++ a.2, scanned := p.scanned + 1 } := by
    unfold scan
    simp only [hg, Bool.false_eq_true, if_false, Attempt.outcome_bind]
    cases (scanSource p.checkers f.path.suffix f.source f.path).outcome with
    | ok a => rfl
    | error e => rfl
  rw [hscan]
  refine (scanSource_like_fresh ho f.path.suffix f.source f.path).map_left ?_
  rintro ⟨ks, found⟩ fs ⟨ho', hc, rfl⟩
  exact ⟨ho', hc, rfl, rfl, rfl⟩

/-- Scanning files one after the other finds what independent scans find. -/
theorem Progress.foldlM_scan_like_fresh {files : List SourceFile}
    (hf : ∀ f ∈ files, Workspace.scannedExtensions.contains f.path.extension = true)
    {p : Progress} (ho : ∀ k ∈ p.checkers, k.Owned) :
    Alike (fun p' found => p'.findings = p.findings ++ found.flatten ∧
        p'.scanned = p.scanned + files.length ∧ p'.skipped = p.skipped)
      (files.foldlM Progress.scan p).outcome
      (files.mapM fun f => f.scan (p.checkers.map Checker.check)) := by
  rw [Attempt.outcome_foldlM]
  induction files generalizing p with
  | nil => exact .ok ⟨by simp, rfl, rfl⟩
  | cons f files ih =>
    rw [List.foldlM_cons, List.mapM_cons]
    refine (p.scan_like_fresh ho (hf f (by simp))).bind ?_
    rintro p' fs ⟨ho', hc, hfindings, hscanned, hskipped⟩
    have hrest := ih (fun f h => hf f (by simp [h])) ho'
    rw [hc] at hrest
    rw [← bind_pure (files.foldlM (fun p f => (Progress.scan p f).outcome) p')]
    refine hrest.bind ?_
    rintro p'' found ⟨hfindings', hscanned', hskipped'⟩
    refine .ok ⟨?_, ?_, hskipped'.trans hskipped⟩
    · rw [hfindings', hfindings, List.flatten_cons, List.append_assoc]
    · rw [hscanned', hscanned, List.length_cons]
      omega

def Config.united (config : Config) (level : Risk) (limit : Nat) (files : List SourceFile)
    (checks : List Check) (found : List (List Finding)) : ScanResult where
  root := config.root
  findings := (Finding.sort found.flatten).filter fun f => level.rank ≤ f.risk.rank
  filesScanned := min files.length limit
  truncated := limit < files.length
  checks := checks.map (·.kind.id)
  severity := config.severity

namespace Workspace
variable {w : Workspace} {config : Config} {only : List String} {level : Risk}

def projectFiles (w : Workspace) (config : Config) : List SourceFile :=
  w.sourceFiles config.root scannedExtensions config.ignore

theorem scanned_of_mem {f : SourceFile} (hf : f ∈ w.projectFiles config) :
    scannedExtensions.contains f.path.extension = true := by
  have hmem := (sourceFiles_perm _ _ _).subset hf
  exact (Bool.and_eq_true_iff.mp (List.mem_filter.mp hmem).2).1

theorem outcome_scanProject (hl : Risk.ofName? config.severity = some level)
    (ho : ∀ id ∈ only, (CheckKind.ofId? id).isSome) (limit : Int) :
    (w.scanProject config only limit).outcome =
      (config.selected only).mapM config.checkOf >>= fun checks =>
        ((w.projectFiles config).take limit.toNat).mapM (fun f => f.scan checks) >>= fun found =>
          .ok (config.united level limit.toNat (w.projectFiles config) checks found) := by
  have hf : ∀ f ∈ (w.projectFiles config).take limit.toNat,
      scannedExtensions.contains f.path.extension = true :=
    fun f hf => scanned_of_mem (List.mem_of_mem_take hf)
  unfold scanProject
  simp only [Attempt.outcome_bind, Config.outcome_selectChecks config ho, hl]
  unfold projectFiles at hf ⊢
  generalize w.sourceFiles config.root scannedExtensions config.ignore = files at hf ⊢
  refine congrArg _ (funext fun checks => ?_)
  have hloop := Progress.foldlM_scan_like_fresh hf (p := { checkers := checks.map Checker.ofCheck })
    (owned_map_ofCheck checks)
  rw [map_check_map_ofCheck] at hloop
  refine (hloop.bind (S := Eq) ?_).eq
  rintro p found ⟨hfindings, hscanned, hskipped⟩
  have hunited : config.united level limit.toNat files checks found = {
      root := config.root
      findings := Finding.atLeast level (Finding.sort p.findings)
      filesScanned := p.scanned
      filesSkipped := p.skipped
      truncated := limit.toNat < files.length
      checks := checks.map (·.kind.id)
      severity := config.severity } := by
    rw [Config.united, hfindings, hscanned, hskipped, List.length_take, Nat.min_comm,
      Nat.zero_add, List.nil_append, Finding.atLeast]
  rw [hunited]
  -- the warning about files that are left out does not change the outcome
  split
  · exact .ok rfl
  · exact .ok rfl

end Workspace

namespace Config

/-- Checks are built for the selected kinds, each from its own options. -/
def Builds (config : Config) (only : List String) (checks : List Check) : Prop :=
  List.Forall₂ (fun kind c => config.checkOf kind = .ok c) (config.selected only) checks

theorem kind_of_checkOf {config : Config} {kind : CheckKind} {c : Check}
    (h : config.checkOf kind = .ok c) : c.kind = kind := by
  unfold checkOf at h
  cases ho : (config.optionsFor kind.id).outcome with
  | error e =>
    rw [ho] at h
    cases h
  | ok options =>
    rw [ho] at h
    cases h
    rfl

theorem Builds.kinds {config : Config} {only : List String} {checks : List Check}
    (h : config.Builds only checks) : checks.map Check.kind = config.selected only := by
  have hsame : List.Forall₂ Eq (config.selected only) (checks.map Check.kind) := by
    rw [List.forall₂_map_right_iff]
    exact h.imp fun kind c hc => (kind_of_checkOf hc).symm
  rw [List.forall₂_eq_eq_eq] at hsame
  exact hsame.symm

end Config

/-- A result unites what fresh checks find in each file by itself, up to the limit: it is the stable
sort of the findings that are bad enough, and it says how many files there were. -/
structure ScanResult.Unites (r : ScanResult) (config : Config) (level : Risk) (limit : Nat)
    (files : List SourceFile) (checks : List Check) : Prop where
  root : r.root = config.root
  findings : ∃ found, List.Forall₂ (fun f fs => f.scan checks = .ok fs) (files.take limit) found ∧
    StableSort Finding.key (found.flatten.filter fun f => level.rank ≤ f.risk.rank) r.findings
  filesScanned : r.filesScanned = min files.length limit
  filesSkipped : r.filesSkipped = 0
  truncated : r.truncated = true ↔ limit < files.length
  checks : r.checks = checks.map (·.kind.id)
  severity : r.severity = config.severity

section
variable {config : Config} {level : Risk} {limit : Nat} {files : List SourceFile}
  {checks : List Check} {r : ScanResult}

theorem unites_iff : r.Unites config level limit files checks ↔
    ∃ found, List.Forall₂ (fun f fs => f.scan checks = .ok fs) (files.take limit) found ∧
      config.united level limit files checks found = r := by
  constructor
  · rintro ⟨hroot, ⟨found, hscan, hsort⟩, hscanned, hskipped, htruncated, hchecks, hseverity⟩
    refine ⟨found, hscan, ?_⟩
    have hfindings : r.findings =
        (Finding.sort found.flatten).filter fun f => level.rank ≤ f.risk.rank :=
      hsort.unique ((Finding.sort_stable found.flatten).filter _)
    have htruncated : r.truncated = decide (limit < files.length) := by
      rw [Bool.eq_iff_iff, htruncated, decide_eq_true_iff]
    cases r
    rw [Config.united, ScanResult.mk.injEq]
    exact ⟨hroot.symm, hfindings.symm, hscanned.symm, hskipped.symm, htruncated.symm, hchecks.symm,
      hseverity.symm⟩
  · rintro ⟨found, hscan, rfl⟩
    exact ⟨rfl, ⟨found, hscan, (Finding.sort_stable found.flatten).filter _⟩, rfl, rfl,
      decide_eq_true_iff, rfl, rfl⟩

/-- The findings are what single checks find in single files and what is bad enough. -/
theorem ScanResult.Unites.mem_iff (h : r.Unites config level limit files checks)
    (hs : ∀ f ∈ files, Workspace.scannedExtensions.contains f.path.extension = true)
    {finding : Finding} : finding ∈ r.findings ↔ level.rank ≤ finding.risk.rank ∧
      ∃ f ∈ files.take limit, ∃ c ∈ checks, finding ∈ Checker.found f.source f.path c := by
  obtain ⟨found, hscan, rfl⟩ := unites_iff.mp h
  obtain ⟨rfl, hok⟩ := eq_map_of_forall₂_ok hscan
  rw [Config.united, List.mem_filter, (Finding.sort_stable _).mem_iff,
    ← List.flatMap_def, List.mem_flatMap, decide_eq_true_iff, and_comm]
  refine and_congr_right fun _ => exists_congr fun f => and_congr_right fun hf => ?_
  obtain ⟨g, hg⟩ :=
    Option.isSome_iff_exists.mp (grammar_of_scanned (hs f (List.mem_of_mem_take hf)))
  exact mem_freshScan_iff hg (hok f hf)

end

namespace Workspace

variable {w : Workspace} {config : Config} {only : List String} {level : Risk} {limit : Nat}

theorem scanProject_eq_ok_iff (hl : Risk.ofName? config.severity = some level)
    (ho : ∀ id ∈ only, (CheckKind.ofId? id).isSome) {limit : Int} {r : ScanResult} :
    (w.scanProject config only limit).outcome = .ok r ↔
      ∃ checks, config.Builds only checks ∧
        r.Unites config level limit.toNat (w.projectFiles config) checks := by
  simp only [outcome_scanProject hl ho, bind_eq_ok_iff, mapM_eq_ok_iff, unites_iff, Config.Builds,
    Except.ok.injEq]

/-- A scan that returns was given a risk and checks that are known. -/
theorem known_of_scanProject {limit : Int} {r : ScanResult}
    (h : (w.scanProject config only limit).outcome = .ok r) :
    (∀ id ∈ only, (CheckKind.ofId? id).isSome) ∧
      ∃ level, Risk.ofName? config.severity = some level := by
  unfold scanProject at h
  rw [Attempt.outcome_bind, bind_eq_ok_iff] at h
  obtain ⟨checks, hchecks, h⟩ := h
  refine ⟨Config.known_of_selectChecks hchecks, ?_⟩
  cases hl : Risk.ofName? config.severity with
  | some level => exact ⟨level, rfl⟩
  | none =>
    simp only [Attempt.outcome_bind, hl, bind_eq_ok_iff] at h
    obtain ⟨progress, -, h⟩ := h
    split at h
    · cases h
    · cases h

theorem of_scanProject_eq_ok {limit : Int} {r : ScanResult}
    (h : (w.scanProject config only limit).outcome = .ok r) :
    ∃ level checks, config.Builds only checks ∧
      r.Unites config level limit.toNat (w.projectFiles config) checks := by
  obtain ⟨ho, level, hl⟩ := known_of_scanProject h
  exact ⟨level, (scanProject_eq_ok_iff hl ho).mp h⟩

theorem exists_scanProject_ok (hl : Risk.ofName? config.severity = some level)
    (ho : ∀ id ∈ only, (CheckKind.ofId? id).isSome)
    (hoptions : ∀ kind ∈ config.selected only, ∃ c, config.checkOf kind = .ok c)
    (htargets : ∀ f ∈ (w.projectFiles config).take limit, ¬ Check.Untargeted f.source.tree) :
    ∃ r, (w.scanProject config only limit).outcome = .ok r := by
  obtain ⟨checks, hchecks⟩ := exists_mapM_ok hoptions
  obtain ⟨found, hfound⟩ := exists_mapM_ok (f := fun f : SourceFile => f.scan checks)
    fun f hf => exists_freshScan_ok (htargets f hf) checks
  have hunites : (config.united level limit (w.projectFiles config) checks found).Unites config
      level limit (w.projectFiles config) checks :=
    unites_iff.mpr ⟨found, mapM_eq_ok_iff.mp hfound, rfl⟩
  exact ⟨_, (scanProject_eq_ok_iff hl ho).mpr ⟨checks, mapM_eq_ok_iff.mp hchecks, hunites⟩⟩

/-- Two files, listed against their order. -/
def twoFiles : Workspace where
  root := { root := "/", parts := ["p"] }
  files := [
    { path := { parts := ["b.js"] }, bytes := twoSinks.bytes, tree := some twoSinks.tree },
    { path := { parts := ["a.js"] }, bytes := twoSinks.bytes, tree := some twoSinks.tree }]

def graded (fs : List Finding) : List (String × Risk) := fs.map fun f => (f.check, f.risk)

end Workspace

end SinkAudit
