import SinkAudit.Proofs.Finds
import SinkAudit.Proofs.Project
import SinkAudit.Proofs.RoundTrip

/-! # Documents for exchange

The document of a scan is read by programs that look up the rule of every result and trust the
summary. That they can is said of the document as it is read back: where its parts are (`Layout`),
that they fit together and say what the scan found (`Complete`), and that this holds of every scan
of a project (`scanProject_sarif_complete`). -/
namespace SinkAudit

namespace Json

def strAt? (v : Json) (keys : List String) : Option String :=
  match v.path? keys with
  | some (.str s) => some s
  | _ => none

def intAt? (v : Json) (keys : List String) : Option Int :=
  match v.path? keys with
  | some (.int i) => some i
  | _ => none

end Json

namespace Report

def PlacedAt (f : Finding) (location : Json) : Prop :=
  ∃ region, location.path? ["physicalLocation", "region"] = some region ∧
    region.intAt? ["startLine"] = some f.start.line ∧
    region.intAt? ["startColumn"] = some f.start.column ∧
    region.intAt? ["endLine"] = some f.stop.line ∧
    region.intAt? ["endColumn"] = some f.stop.column

/-- The result says what the finding says: of which check, how bad and where. -/
structure Describes (f : Finding) (result : Json) : Prop where
  rule : result.strAt? ["ruleId"] = some f.check
  level : result.strAt? ["level"] =
    some (if f.risk = .critical ∨ f.risk = .high then "error" else "warning")
  risk : result.strAt? ["properties", "risk"] = some f.risk.name
  location : ∃ location, result.path? ["locations"] = some (.arr [location]) ∧ PlacedAt f location

/-- Where a document holds its rules, its results and what is said of the run as a whole. -/
def Layout (doc : Json) (rules results : List Json) (invocation : Json) : Prop :=
  ∃ run, doc.path? ["runs"] = some (.arr [run]) ∧
    run.path? ["tool", "driver", "rules"] = some (.arr rules) ∧
    run.path? ["results"] = some (.arr results) ∧
    run.path? ["invocations"] = some (.arr [invocation])

def hasRisk (risk : Risk) (result : Json) : Bool :=
  result.strAt? ["properties", "risk"] == some risk.name

/-- The parts of a document agree with each other and with the result of a scan. -/
structure Complete (r : ScanResult) (rules results : List Json) (invocation : Json) : Prop where
  ids : rules.map (·.strAt? ["id"]) = r.checks.map some
  distinct : (rules.map (·.strAt? ["id"])).Nodup
  describes : List.Forall₂ Describes r.findings results
  refers : ∀ result ∈ results,
    rules.countP (fun rule => rule.strAt? ["id"] == result.strAt? ["ruleId"]) = 1
  counts : ∀ risk : Risk, invocation.intAt? ["properties", "summary", risk.name] =
    some (results.countP (hasRisk risk))
  total : results.countP (hasRisk .critical) + results.countP (hasRisk .high) +
    results.countP (hasRisk .medium) + results.countP (hasRisk .low) = results.length

/-! ## The parts of a document -/

theorem sarifRegion_toJson (f : Finding) : ∃ region, sarifRegion f.toJson = .ok region ∧
    region.Plain ∧ region.intAt? ["startLine"] = some f.start.line ∧
    region.intAt? ["startColumn"] = some f.start.column ∧
    region.intAt? ["endLine"] = some f.stop.line ∧
    region.intAt? ["endColumn"] = some f.stop.column := by
  refine ⟨_, rfl, ?_, rfl, rfl, rfl, rfl⟩
  simp [Members.get?]

theorem sarifLocation_toJson (f : Finding) : ∃ location, sarifLocation f.toJson = .ok location ∧
    location.Plain ∧ PlacedAt f location := by
  obtain ⟨region, hregion, hp, hplace⟩ := sarifRegion_toJson f
  refine ⟨.obj [("physicalLocation", .obj
    [("artifactLocation", .obj [("uri", .str (Text.replaceChar '\\' '/' f.path.text))]),
     ("region", region)])], ?_, by simp [hp], region, rfl, hplace⟩
  rw [sarifLocation, hregion]
  rfl

theorem sarifLevel_name {risk : Risk} (h : risk ≠ .low) :
    sarifLevel risk.name = if risk = .critical ∨ risk = .high then "error" else "warning" := by
  cases risk with
  | low => exact absurd rfl h
  | _ => rfl

theorem plain_strings (xs : List String) : (Json.strings xs).Plain := by
  simp [Json.strings]

theorem sarifResult_toJson {f : Finding} (h : f.risk ≠ .low) :
    ∃ result, sarifResult f.toJson = .ok result ∧ result.Plain ∧ Describes f result := by
  obtain ⟨location, hlocation, hp, hplace⟩ := sarifLocation_toJson f
  rw [sarifResult, hlocation]
  refine ⟨_, rfl, ?_, rfl, congrArg some (sarifLevel_name h), rfl, location, rfl, hplace⟩
  simp [Members.get?, hp, plain_strings]

theorem exists_sarifResults {fs : List Finding} (h : ∀ f ∈ fs, f.risk ≠ .low) :
    ∃ results, (fs.map Finding.toJson).mapM sarifResult = .ok results ∧
      (∀ result ∈ results, result.Plain) ∧ List.Forall₂ Describes fs results := by
  induction fs with
  | nil => exact ⟨[], rfl, by simp, .nil⟩
  | cons f fs ih =>
    obtain ⟨result, hr, hp, hd⟩ := sarifResult_toJson (h f (by simp))
    obtain ⟨results, hrs, hps, hds⟩ := ih fun f' hf' => h f' (by simp [hf'])
    refine ⟨result :: results, ?_, by simpa using ⟨hp, hps⟩, .cons hd hds⟩
    rw [List.map_cons, List.mapM_cons, hr, hrs]
    rfl

theorem sarifRules_toMembers {r : ScanResult} {kinds : List CheckKind}
    (hk : r.checks = kinds.map CheckKind.id) (hall : ∀ kind ∈ kinds, kind ∈ CheckKind.all) :
    sarifRules (.obj r.toMembers) = .ok (kinds.map sarifRule) := by
  have hrules : sarifRules (.obj r.toMembers) =
      (r.checks.map Json.str).mapM checkNamed >>= fun named =>
        .ok ((named.filterMap id).map sarifRule) := rfl
  have hnamed : (r.checks.map Json.str).mapM checkNamed = .ok (kinds.map some) := by
    rw [hk, List.map_map, mapM_eq_ok_iff, List.forall₂_map_left_iff, List.forall₂_map_right_iff,
      List.forall₂_same]
    intro kind hkind
    exact congrArg Except.ok (Config.ofId?_id (hall kind hkind))
  rw [hrules, hnamed]
  show Except.ok (((kinds.map some).filterMap id).map sarifRule) = _
  rw [List.filterMap_map, Function.id_comp, List.filterMap_some]

theorem plain_sarifRule (kind : CheckKind) : (sarifRule kind).Plain := by
  simp [sarifRule]

theorem exists_sarifDocument {r : ScanResult} {kinds : List CheckKind}
    (hk : r.checks = kinds.map CheckKind.id) (hall : ∀ kind ∈ kinds, kind ∈ CheckKind.all)
    (hrisk : ∀ f ∈ r.findings, f.risk ≠ .low) :
    ∃ doc results invocation, sarifDocument (.obj r.toMembers) = .ok doc ∧ doc.Plain ∧
      Layout doc (kinds.map sarifRule) results invocation ∧
      List.Forall₂ Describes r.findings results ∧
      invocation.path? ["properties", "summary"] =
        some (.obj (Risk.all.map fun risk => (risk.name, .int (r.count risk)))) := by
  obtain ⟨results, hresults, hplain, hdescribes⟩ := exists_sarifResults hrisk
  have hfindings : findings (.obj r.toMembers) = .ok (r.findings.map Finding.toJson) := rfl
  rw [sarifDocument, sarifRules_toMembers hk hall, hfindings]
  simp only [bind, Except.bind]
  rw [hresults]
  refine ⟨_, results, _, rfl, ?_, ⟨_, rfl, rfl, rfl, rfl⟩, hdescribes, rfl⟩
  simpa [Members.get?, ScanResult.toMembers, Risk.all, Risk.name, plain_sarifRule] using hplain

/-! ## Counts and rules -/

theorem name_injective : Function.Injective Risk.name := by
  intro a b
  cases a <;> cases b <;> decide

theorem countP_hasRisk {fs : List Finding} {results : List Json}
    (h : List.Forall₂ Describes fs results) (risk : Risk) :
    results.countP (hasRisk risk) = fs.countP fun f => f.risk == risk := by
  induction h with
  | nil => rfl
  | @cons f result fs results hd _ ih =>
    have hiff : hasRisk risk result = (f.risk == risk) := by
      rw [hasRisk, hd.risk, Bool.eq_iff_iff, beq_iff_eq, beq_iff_eq, Option.some.injEq]
      exact name_injective.eq_iff
    rw [List.countP_cons, List.countP_cons, ih, hiff]

/-- Every finding is counted under one risk. -/
theorem sum_count (fs : List Finding) :
    (fs.countP fun f => f.risk == .critical) + (fs.countP fun f => f.risk == .high) +
      (fs.countP fun f => f.risk == .medium) + (fs.countP fun f => f.risk == .low) =
        fs.length := by
  induction fs with
  | nil => rfl
  | cons f fs ih =>
    simp only [List.countP_cons, List.length_cons]
    cases f.risk <;> simp <;> omega

theorem rule_ids (kinds : List CheckKind) :
    (kinds.map sarifRule).map (·.strAt? ["id"]) = (kinds.map CheckKind.id).map some := by
  rw [List.map_map, List.map_map]
  rfl

theorem complete_of_describes {r : ScanResult} {kinds : List CheckKind} {results : List Json}
    {invocation : Json} (hk : r.checks = kinds.map CheckKind.id) (hd : r.checks.Nodup)
    (hc : ∀ f ∈ r.findings, f.check ∈ r.checks) (hr : List.Forall₂ Describes r.findings results)
    (hs : invocation.path? ["properties", "summary"] =
      some (.obj (Risk.all.map fun risk => (risk.name, .int (r.count risk))))) :
    Complete r (kinds.map sarifRule) results invocation := by
  have hids : (kinds.map sarifRule).map (·.strAt? ["id"]) = r.checks.map some := by
    rw [rule_ids, hk]
  have hnodup : (r.checks.map some).Nodup := hd.map fun _ _ => Option.some.inj
  refine ⟨hids, hids ▸ hnodup, hr, ?_, ?_, ?_⟩
  · intro result hresult
    obtain ⟨f, hf, hdescribes⟩ := exists_of_forall₂ hr hresult
    have hcount := List.count_eq_one_of_mem hnodup (List.mem_map_of_mem (f := some) (hc f hf))
    rw [← hids, List.count, List.countP_map] at hcount
    rw [hdescribes.rule]
    exact hcount
  · intro risk
    have hpath : invocation.path? ["properties", "summary", risk.name] =
        some (.int (r.count risk)) := by
      show invocation.path? (["properties", "summary"] ++ [risk.name]) = _
      rw [Json.path?_snoc, hs]
      cases risk <;> rfl
    rw [Json.intAt?, hpath, countP_hasRisk hr]
    rfl
  · simp only [countP_hasRisk hr, sum_count]
    exact hr.length_eq

end Report

/-! ## Scans -/

/-- No check finds anything of the lowest risk. -/
theorem Checker.risk_of_mem_found {c : Check} {s : Source} {path : Path} {f : Finding}
    (hf : f ∈ found s path c) : f.risk ≠ .low := by
  have hends := Check.run_found c s path c.fresh
  unfold found alone run ofCheck at hf
  dsimp only at hf
  generalize c.run s path c.fresh = x at hends hf
  cases hends with
  | error _ => cases hf
  | ok hfound =>
    obtain ⟨i, -, hat⟩ := hfound f hf
    obtain ⟨p, risk, message, advice, -, hrisk, -, rfl⟩ := hat.sound
    exact hrisk

namespace Workspace

/-- The document of a scan has one rule for each check that ran and one result for each finding, in
their order. Every result belongs to one rule and says how bad the finding is and where, and the
numbers in the summary are those of the results. -/
theorem scanProject_sarif_complete {w : Workspace} {config : Config} {only : List String}
    {limit : Int} {r : ScanResult} (h : (w.scanProject config only limit).outcome = .ok r) :
    r.checks = (config.selected only).map CheckKind.id ∧
      ∃ text doc rules results invocation,
        Report.Format.render (.obj r.toMembers) .sarif = .ok text ∧ Json.parse text = some doc ∧
        Report.Layout doc rules results invocation ∧
        Report.Complete r rules results invocation := by
  obtain ⟨level, checks, hbuilds, hunites⟩ := of_scanProject_eq_ok h
  have hk : r.checks = (config.selected only).map CheckKind.id := by
    rw [hunites.checks, ← hbuilds.kinds, List.map_map]
    rfl
  have hd : r.checks.Nodup := hk ▸ Config.nodup_ids _
  have hall : ∀ kind ∈ config.selected only, kind ∈ CheckKind.all :=
    fun kind hkind => List.mem_of_mem_filter hkind
  have hrisk : ∀ f ∈ r.findings, f.risk ≠ .low := by
    intro f hf
    obtain ⟨-, file, -, c, -, hf⟩ := (hunites.mem_iff fun _ => scanned_of_mem).mp hf
    exact Checker.risk_of_mem_found hf
  have hcheck : ∀ f ∈ r.findings, f.check ∈ r.checks := by
    intro f hf
    obtain ⟨-, file, -, c, hc, hf⟩ := (hunites.mem_iff fun _ => scanned_of_mem).mp hf
    rw [hunites.checks, (Checker.of_mem_found hf).1]
    exact List.mem_map_of_mem hc
  obtain ⟨doc, results, invocation, hdoc, hplain, hlayout, hdescribes, hsummary⟩ :=
    Report.exists_sarifDocument hk hall hrisk
  refine ⟨hk, doc.render, doc, _, results, invocation, ?_, Json.parse_render hplain, hlayout,
    Report.complete_of_describes hk hd hcheck hdescribes hsummary⟩
  rw [Report.Format.render, Report.sarif, hdoc]
  rfl

/-- Two checks, asked for against their order. -/
def twoChecks : List String := ["security-headers", "code-injection"]

theorem exists_scan_of_known {severity : String} {level : Risk} {only : List String}
    (hl : Risk.ofName? severity = some level) (ho : ∀ id ∈ only, (CheckKind.ofId? id).isSome) :
    ∃ r, (twoFiles.scanProject { root := twoFiles.root, severity } only fileLimit).outcome =
      .ok r := by
  have hoptions : ∀ kind ∈ CheckKind.all,
      (Config.checkOf { root := twoFiles.root } kind).isOk = true := by decide +kernel
  have htargets : ∀ f ∈ twoFiles.filesBelow twoFiles.root, ¬ Check.Untargeted f.source.tree := by
    decide +kernel
  refine exists_scanProject_ok hl ho
    (fun kind hk => exists_eq_ok (hoptions kind (List.mem_of_mem_filter hk))) ?_
  intro f hf
  have hmem := (sourceFiles_perm _ _ _).subset (List.mem_of_mem_take hf)
  exact htargets f (List.mem_of_mem_filter hmem)

theorem findings_of_header {only : List String} (ho : ∀ id ∈ only, (CheckKind.ofId? id).isSome)
    (hheader : CheckKind.header ∈ Config.selected { root := twoFiles.root } only) {r : ScanResult}
    (h : (twoFiles.scanProject { root := twoFiles.root } only fileLimit).outcome = .ok r) :
    r.findings ≠ [] := by
  let config : Config := { root := twoFiles.root }
  have hlevel : Risk.ofName? config.severity = some .low := by decide +kernel
  obtain ⟨checks, hbuilds, hunites⟩ := (scanProject_eq_ok_iff hlevel ho).mp h
  obtain ⟨c, hc, hcheck⟩ := exists_of_forall₂ hbuilds.flip hheader
  -- the order of the files is not computed, only which they are
  have hperm : (twoFiles.projectFiles config).Perm _ := sourceFiles_perm _ _ _
  have htake : (twoFiles.projectFiles config).take fileLimit = twoFiles.projectFiles config :=
    List.take_of_length_le (hperm.length_eq.trans_le (by decide +kernel))
  have hscanned : ∃ f ∈ (twoFiles.filesBelow twoFiles.root).filter (fun f =>
      scannedExtensions.contains f.path.extension && !f.path.isIgnored config.ignore),
      (config.checkOf .header).toOption.all (fun c =>
        !(Checker.found f.source f.path c).isEmpty) = true := by decide +kernel
  obtain ⟨f, hf, hfound⟩ := hscanned
  rw [hcheck] at hfound
  have hfilled : (Checker.found f.source f.path c).isEmpty = false := by
    simpa [Except.toOption] using hfound
  obtain ⟨finding, hfinding⟩ := List.isEmpty_eq_false_iff_exists_mem.mp hfilled
  refine List.ne_nil_of_mem ((hunites.mem_iff fun _ => scanned_of_mem).mpr
    ⟨Nat.zero_le _, f, ?_, c, hc, hfinding⟩)
  show f ∈ (twoFiles.projectFiles config).take fileLimit
  rw [htake]
  exact hperm.mem_iff.mpr hf

theorem exists_scan_twoFiles :
    ∃ r, (twoFiles.scanProject { root := twoFiles.root } twoChecks fileLimit).outcome = .ok r := by
  have hlevel : Risk.ofName? "low" = some .low := by decide +kernel
  exact exists_scan_of_known hlevel (by decide +kernel)

theorem findings_of_scan_twoFiles {r : ScanResult}
    (h : (twoFiles.scanProject { root := twoFiles.root } twoChecks fileLimit).outcome = .ok r) :
    r.findings ≠ [] :=
  findings_of_header (by decide +kernel) (by decide +kernel) h

theorem twoFiles_sarif :
    ∃ r, (twoFiles.scanProject { root := twoFiles.root } twoChecks fileLimit).outcome = .ok r ∧
      r.findings ≠ [] ∧ r.checks = ["code-injection", "security-headers"] ∧
      ∃ text doc rules results invocation,
        Report.Format.render (.obj r.toMembers) .sarif = .ok text ∧ Json.parse text = some doc ∧
        Report.Layout doc rules results invocation ∧
        Report.Complete r rules results invocation := by
  have hselected : (Config.selected { root := twoFiles.root } twoChecks).map CheckKind.id =
      ["code-injection", "security-headers"] := by decide +kernel
  obtain ⟨r, hr⟩ := exists_scan_twoFiles
  obtain ⟨hchecks, hdocument⟩ := scanProject_sarif_complete hr
  exact ⟨r, hr, findings_of_scan_twoFiles hr, hchecks.trans hselected, hdocument⟩

end Workspace

end SinkAudit
