import SinkAudit.Proofs.Delivery
import SinkAudit.Proofs.Layers

/-! # Exit codes

Two levels decide about the exit code of a scan, one after the other: findings below the severity
are left out, and what remains is compared with the level that the request gives. A scan that is
asked for the lowest severity instead loads the same configuration but for the severity, and finds
all that both levels are about (`exists_scan_low`). So a run that delivers its reports says of those
findings whether one reaches both levels (`run_gates_findings`). -/
namespace SinkAudit

/-! ## The severity of a configuration -/

/-- What a layer makes of a key depends on what there was at the key. -/
theorem Members.get?_overlay_congr {base base' : Members} {key : String}
    (h : base.get? key = base'.get? key) (layer : Members) :
    (base.overlay layer).get? key = (base'.overlay layer).get? key := by
  induction layer generalizing base base' with
  | nil => exact h
  | cons m layer ih =>
    rw [overlay, overlay]
    refine ih ?_
    rw [get?_set, get?_set]
    by_cases hk : m.1 = key
    · rw [hk, h]
    · rw [if_neg hk, if_neg hk, h]

theorem Config.ofMembers_of_low {root : Path} {data data' : Members}
    (hseverity : data'.get? "severity" = some (.str "low"))
    (h : ∀ key, key ≠ "severity" → data'.get? key = data.get? key) :
    (ofMembers root data').value = { (ofMembers root data).value with severity := "low" } := by
  have hmade (data : Members) : (ofMembers root data).value = {
      root
      severity := Text.lower ((data.get? "severity").getD (.str "low")).text
      ignore := (Options.textList "ignore" ((data.get? "ignore").getD (.arr []))).value
      disabledChecks := (Options.textList "disabled_checks"
        ((data.get? "disabled_checks").getD (.arr []))).value
      checks := (checkOptions data).value } := rfl
  have hlower : Text.lower ((some (Json.str "low")).getD (.str "low")).text = "low" := by
    decide +kernel
  have hchecks : checkOptions data' = checkOptions data := by
    unfold checkOptions
    rw [h "checks" (by decide)]
  rw [hmade, hmade, hseverity, hlower, hchecks, h "ignore" (by decide),
    h "disabled_checks" (by decide)]

namespace Workspace

variable {w : Workspace} {config : Config} {only : List String} {limit : Int} {result : ScanResult}

/-- A scan for the lowest severity finds what the scan for another finds, and what lies below. -/
theorem exists_scanProject_low (h : (w.scanProject config only limit).outcome = .ok result) :
    ∃ level full, Risk.ofName? config.severity = some level ∧
      (w.scanProject { config with severity := "low" } only limit).outcome = .ok full ∧
      ∀ f, f ∈ result.findings ↔ level.rank ≤ f.risk.rank ∧ f ∈ full.findings := by
  obtain ⟨ho, level, hl⟩ := known_of_scanProject h
  obtain ⟨checks, hbuilds, hunites⟩ := (scanProject_eq_ok_iff hl ho).mp h
  obtain ⟨found, hscan, -⟩ := unites_iff.mp hunites
  let low : Config := { config with severity := "low" }
  have hlow : Risk.ofName? low.severity = some .low := (by decide +kernel : Risk.ofName? "low" = _)
  have hfull : (low.united .low limit.toNat (w.projectFiles config) checks found).Unites low .low
      limit.toNat (w.projectFiles config) checks := unites_iff.mpr ⟨found, hscan, rfl⟩
  have hreturns : (w.scanProject low only limit).outcome = .ok _ :=
    (scanProject_eq_ok_iff hlow ho).mpr ⟨checks, hbuilds, hfull⟩
  refine ⟨level, _, hl, hreturns, fun f => ?_⟩
  rw [hunites.mem_iff fun _ => scanned_of_mem, hfull.mem_iff fun _ => scanned_of_mem]
  exact and_congr_right fun _ => (and_iff_right (Nat.zero_le _)).symm

end Workspace

namespace CommandLine

namespace ScanRequest

variable {w : Workspace} {q : ScanRequest} {config : Config} {result : ScanResult}

def forLow (q : ScanRequest) : ScanRequest := { q with severity := some .low }

/-- The request for the lowest severity overrides the same members, but for the severity. -/
theorem get?_overlay_forLow (q : ScanRequest) (base : Members) :
    (base.overlay q.forLow.overrides).get? "severity" = some (.str "low") ∧
      ∀ key, key ≠ "severity" →
        (base.overlay q.forLow.overrides).get? key = (base.overlay q.overrides).get? key := by
  unfold overrides
  rw [Members.overlay_append, Members.overlay_append]
  constructor
  · have hdisabled : Members.get? (if q.forLow.disabled.isEmpty then [] else
        [("disabled_checks", .strings q.forLow.disabled)]) "severity" = none := by
      split
      · rfl
      · rfl
    rw [Members.get?_overlay_of_none hdisabled]
    exact (Members.get?_set _ _ _ _).trans (if_pos rfl)
  · intro key hkey
    have hseverity (severity : Option Risk) : Members.get?
        (severity.map fun r => ("severity", Json.str r.name)).toList key = none := by
      cases severity with
      | none => rfl
      | some r => exact (Members.get?_cons _ _ _ _).trans (if_neg hkey.symm)
    refine Members.get?_overlay_congr ?_ _
    rw [Members.get?_overlay_of_none (hseverity _), Members.get?_overlay_of_none (hseverity _)]

theorem scan_eq_ok_iff : (q.scan w).outcome = .ok (config, result) ↔
    (w.loadConfig q.project q.config q.overrides).outcome = .ok config ∧
      (w.scanProject config q.only fileLimit).outcome = .ok result := by
  simp only [scan, Attempt.outcome_bind, Attempt.outcome_pure, bind_eq_ok_iff]
  constructor
  · rintro ⟨config', hload, result', hscan, heq⟩
    cases heq
    exact ⟨hload, hscan⟩
  · rintro ⟨hload, hscan⟩
    exact ⟨config, hload, result, hscan, rfl⟩

/-- The request for the lowest severity finds what a request finds, and what lies below. -/
theorem exists_scan_low (h : (q.scan w).outcome = .ok (config, result)) :
    ∃ level full, Risk.ofName? config.severity = some level ∧
      (q.forLow.scan w).outcome = .ok ({ config with severity := "low" }, full) ∧
      ∀ f, f ∈ result.findings ↔ level.rank ≤ f.risk.rank ∧ f ∈ full.findings := by
  obtain ⟨hload, hscan⟩ := scan_eq_ok_iff.mp h
  obtain ⟨own, other, hown, hother, rfl⟩ := Workspace.loadConfig_eq_ok_iff.mp hload
  obtain ⟨level, full, hl, hfull, hfindings⟩ := Workspace.exists_scanProject_low hscan
  obtain ⟨hseverity, hkept⟩ :=
    get?_overlay_forLow q ((Config.defaults.overlay own).overlay other)
  refine ⟨level, full, hl, scan_eq_ok_iff.mpr ⟨?_, hfull⟩, hfindings⟩
  exact Workspace.loadConfig_eq_ok_iff.mpr
    ⟨own, other, hown, hother, Config.ofMembers_of_low hseverity hkept⟩

end ScanRequest

/-- Some finding is at least as bad as the wanted risk, and as another level. -/
def Trips (failOn : Option Risk) (level : Risk) (findings : List Finding) : Prop :=
  ∃ t ∈ failOn, ∃ f ∈ findings, max t.rank level.rank ≤ f.risk.rank

section
variable {failOn : Option Risk} {level : Risk} {findings full : List Finding}
  (h : ∀ f, f ∈ findings ↔ level.rank ≤ f.risk.rank ∧ f ∈ full)

include h

theorem trips_iff {t : Risk} : Trips (some t) level full ↔ Finding.atLeast t findings ≠ [] := by
  constructor
  · rintro ⟨_, ⟨⟩, f, hf, hmax⟩
    obtain ⟨ht, hlevel⟩ := Nat.max_le.mp hmax
    exact List.ne_nil_of_mem (List.mem_filter.mpr ⟨(h f).mpr ⟨hlevel, hf⟩, decide_eq_true ht⟩)
  · intro hne
    obtain ⟨f, hf⟩ := List.exists_mem_of_ne_nil _ hne
    obtain ⟨hmem, ht⟩ := List.mem_filter.mp hf
    obtain ⟨hlevel, hfull⟩ := (h f).mp hmem
    exact ⟨t, rfl, f, hfull, Nat.max_le.mpr ⟨of_decide_eq_true ht, hlevel⟩⟩

theorem exitCode_of_trips (ht : Trips failOn level full) : exitCode failOn findings = 2 := by
  cases failOn with
  | none =>
    obtain ⟨t, ⟨⟩, -⟩ := ht
  | some t => exact if_neg (List.isEmpty_iff.not.mpr ((trips_iff h).mp ht))

theorem exitCode_of_not_trips (ht : ¬ Trips failOn level full) : exitCode failOn findings = 0 := by
  cases failOn with
  | none => rfl
  | some t => exact if_pos (List.isEmpty_iff.mpr (Classical.not_not.mp ((trips_iff h).not.mp ht)))

end

/-- A run whose project can be scanned ends in one of three ways. An output of a format that is not
known is an error of usage. A file that cannot be written breaks the run off. Otherwise the exit
code is two exactly if the scan for the lowest severity has a finding that reaches both the severity
and the level that the request gives, and zero if not, whatever is printed and written. -/
theorem run_gates_findings {w : Workspace} {args : List String} {verbose : Bool} {q : ScanRequest}
    {config : Config} {result : ScanResult}
    (hread : Invocation.read args = .ok { verbose, command := .scan q })
    (hfolder : w.isFolder q.project = true)
    (hscan : (q.scan w).outcome = .ok (config, result)) :
    ∃ level full, Risk.ofName? config.severity = some level ∧
      (q.forLow.scan w).outcome = .ok ({ config with severity := "low" }, full) ∧
      (∀ o, unknownOutput? q.outputs = some o → (run w args).exit = .ok 2 ∧
        (run w args).written = [] ∧ (run w args).errors.getLast? =
          some (Stop.line (.usage programName ("Unknown output format: " ++ o.1)))) ∧
      (unknownOutput? q.outputs = none →
        (∀ fault, q.paths.foldlM Disk.save w.disk = .error fault →
          (run w args).exit = .error (.write fault)) ∧
        ∀ d, q.paths.foldlM Disk.save w.disk = .ok d →
          (Trips q.failOn level full.findings → (run w args).exit = .ok 2) ∧
          (¬ Trips q.failOn level full.findings → (run w args).exit = .ok 0)) := by
  obtain ⟨level, full, hl, hlow, hfindings⟩ := ScanRequest.exists_scan_low hscan
  have hrun : run w args = q.run w verbose := by rw [run, hread]
  rw [hrun]
  refine ⟨level, full, hl, hlow, fun o ho => ?_, fun ho => ⟨fun fault hfault => ?_, fun d hd => ?_⟩⟩
  · obtain ⟨log, hlog⟩ := ScanRequest.run_of_unknown hfolder hscan verbose ho
    rw [hlog]
    exact ⟨rfl, rfl, List.getLast?_concat⟩
  · exact ScanRequest.exit_of_unsaved hfolder hscan verbose ho hfault
  · rw [ScanRequest.exit_of_saved hfolder hscan verbose ho hd]
    exact ⟨fun ht => congrArg Except.ok (exitCode_of_trips hfindings ht),
      fun ht => congrArg Except.ok (exitCode_of_not_trips hfindings ht)⟩

def gateRequest : ScanRequest where
  project := .ofText "."
  severity := some .medium
  outputs := [("csv", .ofText "out/r.csv")]
  bundle := some (.ofText "b.zip")
  failOn := some .low

def gateArgs : List String :=
  ["-v", "scan", "--severity", "medium", "--fail-on", "low", "--output", "csv", "out/r.csv",
    "--bundle", "b.zip"]

section
open Workspace (twoFiles)

theorem exists_scan_request {q : ScanRequest} {severity : String} {level : Risk}
    (hl : Risk.ofName? severity = some level) (ho : q.only = [])
    (h : (twoFiles.loadConfig q.project q.config q.overrides).outcome =
      .ok { root := twoFiles.root, severity }) :
    ∃ result, (q.scan twoFiles).outcome = .ok ({ root := twoFiles.root, severity }, result) := by
  have hknown : ∀ id ∈ q.only, (CheckKind.ofId? id).isSome := by simp [ho]
  obtain ⟨result, hresult⟩ := Workspace.exists_scan_of_known hl hknown
  exact ⟨result, ScanRequest.scan_eq_ok_iff.mpr ⟨h, hresult⟩⟩

theorem exists_medium_finding {full : ScanResult}
    (h : (twoFiles.scanProject { root := twoFiles.root } [] fileLimit).outcome = .ok full) :
    ∃ f ∈ full.findings, Risk.medium.rank ≤ f.risk.rank := by
  obtain ⟨f, hf⟩ := List.exists_mem_of_ne_nil _
    (Workspace.findings_of_header (by simp) (by decide +kernel) h)
  obtain ⟨level, checks, -, hunites⟩ := Workspace.of_scanProject_eq_ok h
  obtain ⟨-, file, -, c, -, hfound⟩ :=
    (hunites.mem_iff fun _ => Workspace.scanned_of_mem).mp hf
  refine ⟨f, hf, ?_⟩
  cases hrisk : f.risk with
  | low => exact absurd hrisk (Checker.risk_of_mem_found hfound)
  | _ => decide

theorem gateArgs_tripped :
    Invocation.read gateArgs = .ok { verbose := true, command := .scan gateRequest } ∧
      twoFiles.isFolder gateRequest.project = true ∧
      (∃ config result, (gateRequest.scan twoFiles).outcome = .ok (config, result)) ∧
      (run twoFiles gateArgs).exit = .ok 2 := by
  have hread : Invocation.read gateArgs =
      .ok { verbose := true, command := .scan gateRequest } := rfl
  have hfolder : twoFiles.isFolder gateRequest.project = true := by decide +kernel
  have hmedium : Risk.ofName? "medium" = some .medium := by decide +kernel
  have hload : (twoFiles.loadConfig (.ofText ".") none [("severity", .str "medium")]).outcome =
      .ok { root := twoFiles.root, severity := "medium" } :=
    Workspace.loadConfig_eq_ok_iff.mpr ⟨[], [], rfl, rfl, rfl⟩
  obtain ⟨result, hscan⟩ := exists_scan_request (q := gateRequest) hmedium rfl hload
  refine ⟨hread, hfolder, ⟨_, _, hscan⟩, ?_⟩
  obtain ⟨level, full, hl, hlow, -, hknown⟩ := run_gates_findings hread hfolder hscan
  cases hmedium.symm.trans hl
  obtain ⟨d, hd⟩ : ∃ d, gateRequest.paths.foldlM Disk.save twoFiles.disk = .ok d :=
    exists_eq_ok (by decide +kernel)
  exact ((hknown rfl).2 d hd).1
    ⟨.low, rfl, exists_medium_finding (ScanRequest.scan_eq_ok_iff.mp hlow).2⟩

def outputRequest (outputs : List (String × Path)) : ScanRequest where
  project := .ofText "."
  outputs

theorem exists_scan_outputRequest (outputs : List (String × Path)) : ∃ config result,
    ((outputRequest outputs).scan twoFiles).outcome = .ok (config, result) := by
  have hlow : Risk.ofName? "low" = some .low := by decide +kernel
  have hload : (twoFiles.loadConfig (.ofText ".") none []).outcome =
      .ok { root := twoFiles.root } :=
    Workspace.loadConfig_eq_ok_iff.mpr ⟨[], [], rfl, rfl, rfl⟩
  obtain ⟨result, hscan⟩ := exists_scan_request (q := outputRequest outputs) hlow rfl hload
  exact ⟨_, result, hscan⟩

/-- A run for files ends without regard to the findings. -/
def EndsUngated (outputs : List (String × Path)) (exit : Except Failure Nat) : Prop :=
  let args := "scan" :: outputs.flatMap fun o => ["--output", o.1, o.2.text]
  Invocation.read args = .ok { command := .scan (outputRequest outputs) } ∧
    (∃ config result,
      ((outputRequest outputs).scan twoFiles).outcome = .ok (config, result)) ∧
    (run twoFiles args).exit = exit

/-- An unknown format, a file below another and one where a folder was made for the one before it:
no level is given, and the exit code is not zero. -/
theorem otherOutputs_not_gated :
    EndsUngated [("xml", .ofText "r.xml")] (.ok 2) ∧
    EndsUngated [("json", .ofText "a.js/r.json")] (.error (.write .folderIsFile)) ∧
    EndsUngated [("json", .ofText "a/../b.json"), ("json", .ofText "a")]
      (.error (.write .isFolder)) := by
  have hfolder : twoFiles.isFolder (.ofText ".") = true := by decide +kernel
  refine ⟨⟨rfl, exists_scan_outputRequest _, ?_⟩, ⟨rfl, exists_scan_outputRequest _, ?_⟩,
    rfl, exists_scan_outputRequest _, ?_⟩
  · obtain ⟨config, result, hscan⟩ := exists_scan_outputRequest [("xml", .ofText "r.xml")]
    obtain ⟨log, hlog⟩ := ScanRequest.run_of_unknown hfolder hscan false rfl
    exact congrArg Result.exit hlog
  · obtain ⟨config, result, hscan⟩ := exists_scan_outputRequest [("json", .ofText "a.js/r.json")]
    exact ScanRequest.exit_of_unsaved hfolder hscan false rfl rfl
  · obtain ⟨config, result, hscan⟩ :=
      exists_scan_outputRequest [("json", .ofText "a/../b.json"), ("json", .ofText "a")]
    exact ScanRequest.exit_of_unsaved hfolder hscan false rfl rfl

end

end CommandLine

end SinkAudit
