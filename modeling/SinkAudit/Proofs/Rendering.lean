import SinkAudit.Proofs.Binding
import SinkAudit.Proofs.Delivery

/-! # Rendering once

A report is rendered once for each format and then used wherever the format is asked for. That
cannot be seen from outside: what is printed, the files and the members of the bundle are what
rendering gives for each of them alone, and what is printed depends only on the formats that are
asked to be printed. A file that cannot be written takes away the files after it, but neither what
is printed nor the files before (`publish_renders_directly`). -/
namespace SinkAudit.CommandLine

/-! ## What is printed -/

def banner (place total : Nat) (format : Report.Format) : String :=
  "--- " ++ format.name ++ " report " ++ toString place ++ "/" ++ toString total ++ " ---\n"

/-- Each format is printed once, in order of first mention, with a banner above it exactly if there
are several. -/
def Prints (text : Report.Format → String) (formats : List Report.Format) (screen : String) : Prop :=
  ∃ shown, FirstOccurrences formats shown ∧
    (shown.length ≤ 1 → screen = String.join (shown.map fun format => text format ++ "\n")) ∧
    (1 < shown.length → screen = String.join (shown.mapIdx fun i format =>
      banner (i + 1) shown.length format ++ text format ++ "\n"))

theorem screenText_remembered (text : Report.Format → String) (shown : List Report.Format) :
    screenText (remembered text shown) = String.join (shown.zipIdx.map fun entry =>
      (if 1 < shown.length then banner (entry.2 + 1) shown.length entry.1 else "") ++
        text entry.1 ++ "\n") := by
  rw [screenText, remembered, List.length_map, List.zipIdx_map, List.map_map]
  rfl

theorem prints_screenText (text : Report.Format → String) (formats : List Report.Format) :
    Prints text formats (screenText (remembered text (formats.foldl insertNew []))) := by
  generalize hshown : formats.foldl insertNew [] = shown
  refine ⟨shown, hshown ▸ firstOccurrences_nil.foldl formats, fun hone => ?_, fun hseveral => ?_⟩
  · have hentries : shown.map (fun format => text format ++ "\n") =
        shown.zipIdx.map fun entry => text entry.1 ++ "\n" := by
      conv_lhs => rw [← List.zipIdx_map_fst 0 shown, List.map_map]
      rfl
    rw [screenText_remembered, hentries]
    simp only [if_neg (Nat.not_lt.mpr hone), String.empty_append]
  · rw [screenText_remembered, List.mapIdx_eq_zipIdx_map]
    simp only [if_pos hseveral]

/-! ## What files hold -/

def LeadsTo (w : Workspace) (file : List String) (path : Path) : Prop := w.disk.place path = file

instance (w : Workspace) (file : List String) (path : Path) : Decidable (LeadsTo w file path) :=
  inferInstanceAs (Decidable (_ = _))

/-- What a file holds after some are written, if it is one of them: the last counts. -/
def heldBy? (w : Workspace) (written : List (Path × Content)) (file : List String) :
    Option Content :=
  (written.reverse.find? fun entry => LeadsTo w file entry.1).map (·.2)

/-- The report is written for each target and then for the bundle. So in the end the bundle holds
the reports in its formats, and any other file the report for the last target that leads to it. -/
structure Files (w : Workspace) (text : Report.Format → String)
    (targets : List (Report.Format × Path)) (bundle : Option Path)
    (written : List (Path × Content)) : Prop where
  inOrder : written = filesFor text targets bundle
  inBundle : ∀ file, ∀ path ∈ bundle, LeadsTo w file path → heldBy? w written file = some (.bundle
    [("report.json", text .json), ("report.sarif", text .sarif), ("report.csv", text .csv)])
  atTarget : ∀ file target, IsLast (fun target => LeadsTo w file target.2) targets target →
    (∀ path ∈ bundle, ¬ LeadsTo w file path) →
      heldBy? w written file = some (.text (text target.1))
  elsewhere : ∀ file, (∀ target ∈ targets, ¬ LeadsTo w file target.2) →
    (∀ path ∈ bundle, ¬ LeadsTo w file path) → heldBy? w written file = none

section
variable {w : Workspace} {written : List (Path × Content)} {file : List String}

theorem heldBy?_of_isLast {path : Path} {content : Content}
    (h : IsLast (fun entry => LeadsTo w file entry.1) written (path, content)) :
    heldBy? w written file = some content := by
  rw [heldBy?, isLast_iff_find?.mp h]
  rfl

theorem heldBy?_eq_none (h : ∀ entry ∈ written, ¬ LeadsTo w file entry.1) :
    heldBy? w written file = none := by
  rw [heldBy?, Option.map_eq_none_iff, List.find?_eq_none]
  intro entry hentry
  simpa using h entry (List.mem_reverse.mp hentry)

end

theorem not_leadsTo_of_mem_filesFor {w : Workspace} {text : Report.Format → String}
    {targets : List (Report.Format × Path)} {bundle : Option Path} {file : List String}
    (htargets : ∀ target ∈ targets, ¬ LeadsTo w file target.2)
    (hbundle : ∀ path ∈ bundle, ¬ LeadsTo w file path) :
    ∀ entry ∈ filesFor text targets bundle, ¬ LeadsTo w file entry.1 := by
  intro entry hentry
  obtain hentry | hentry := List.mem_append.mp hentry
  · obtain ⟨target, htarget, rfl⟩ := List.mem_map.mp hentry
    exact htargets target htarget
  · obtain ⟨path, hpath, rfl⟩ := List.mem_map.mp hentry
    exact hbundle path (Option.mem_toList.mp hpath)

theorem files_filesFor (w : Workspace) (text : Report.Format → String)
    (targets : List (Report.Format × Path)) (bundle : Option Path) :
    Files w text targets bundle (filesFor text targets bundle) where
  inOrder := rfl
  inBundle file path hpath hleads := by
    cases hpath
    exact heldBy?_of_isLast ⟨hleads, _, [], rfl, by simp⟩
  atTarget file target hlast hbundle := by
    obtain ⟨hleads, before, after, rfl, hafter⟩ := hlast
    -- what is written later is for other targets and the bundle
    exact heldBy?_of_isLast ⟨hleads, before.map fun target => (target.2, .text (text target.1)),
      filesFor text after bundle, by simp [filesFor], not_leadsTo_of_mem_filesFor hafter hbundle⟩
  elsewhere file htargets hbundle :=
    heldBy?_eq_none (not_leadsTo_of_mem_filesFor htargets hbundle)

/-! ## Reports that cannot be rendered -/

def Rendered.Sound (report : Json) (done : Rendered) : Prop :=
  ∀ entry ∈ done, entry.1.render report = .ok entry.2

def Renders (report : Json) (format : Report.Format) : Prop :=
  ∃ text, format.render report = .ok text

section
variable {report : Json} {done : Rendered} {format : Report.Format}

theorem Rendered.Sound.get (h : done.Sound report) {got : Rendered × String}
    (hget : done.get report format = .ok got) : got.1.Sound report ∧ Renders report format := by
  unfold Rendered.get at hget
  split at hget
  · next text htext =>
    cases hget
    obtain ⟨before, after, hdone, -⟩ := List.lookup_eq_some_iff.mp htext
    exact ⟨h, text, h (format, text) (by simp [hdone])⟩
  · obtain ⟨text, hrender, rfl⟩ := map_eq_ok_iff.mp hget
    refine ⟨fun entry hentry => ?_, text, hrender⟩
    obtain hold | hnew := List.mem_append.mp hentry
    · exact h entry hold
    · cases List.mem_singleton.mp hnew
      exact hrender

theorem Rendered.Sound.addMember {state next : Rendered × List (String × String)}
    (h : state.1.Sound report) (hadd : addMember report state format = .ok next) :
    next.1.Sound report ∧ Renders report format := by
  obtain ⟨got, hgot, hnext⟩ := bind_eq_ok_iff.mp hadd
  cases hnext
  exact h.get (mapError_eq_ok_iff.mp hgot)

theorem Rendered.Sound.write {x y : Delivery} {target : Report.Format × Path}
    (h : x.done.Sound report) (hwrite : x.write report target = .ok y) :
    y.done.Sound report ∧ Renders report target.1 := by
  obtain ⟨made, -, hrest⟩ := bind_eq_ok_iff.mp hwrite
  obtain ⟨got, hgot, hrest⟩ := bind_eq_ok_iff.mp hrest
  obtain ⟨disk, -, hy⟩ := bind_eq_ok_iff.mp hrest
  cases hy
  exact h.get (mapError_eq_ok_iff.mp hgot)

/-- Steps that render one format after the other have rendered all if none fails. -/
theorem sound_of_foldlM {σ α ε : Type} {step : σ → α → Except ε σ} {state last : σ}
    {items : List α} (rendered : σ → Rendered) (format : α → Report.Format)
    (hstep : ∀ state next item, (rendered state).Sound report → step state item = .ok next →
      (rendered next).Sound report ∧ Renders report (format item))
    (h : (rendered state).Sound report) (hfold : items.foldlM step state = .ok last) :
    (rendered last).Sound report ∧ ∀ item ∈ items, Renders report (format item) := by
  induction items generalizing state with
  | nil =>
    cases hfold
    exact ⟨h, by simp⟩
  | cons item items ih =>
    rw [List.foldlM_cons] at hfold
    obtain ⟨next, hnext, hrest⟩ := bind_eq_ok_iff.mp hfold
    obtain ⟨hsound, hitem⟩ := hstep state next item h hnext
    obtain ⟨hlast, hitems⟩ := ih hsound hrest
    exact ⟨hlast, List.forall_mem_cons.mpr ⟨hitem, hitems⟩⟩

theorem sound_of_renderAll {formats : List Report.Format} (h : renderAll report formats = .ok done) :
    done.Sound report ∧ ∀ format ∈ formats, Renders report format := by
  refine sound_of_foldlM id id (fun done next format hdone hnext => ?_)
    (fun entry hentry => absurd hentry List.not_mem_nil) h
  obtain ⟨got, hget, rfl⟩ := map_eq_ok_iff.mp hnext
  exact hdone.get hget

end

section
variable {w : Workspace} {report : Json} {formats : List Report.Format}
  {targets : List (Report.Format × Path)} {bundle : Option Path}

/-- Nothing is printed or written unless the report can be rendered in what is to be printed. -/
theorem publish_of_unrendered {format : Report.Format} (hf : format ∈ formats)
    (h : ¬ Renders report format) :
    ∃ fault, publish w report formats targets bundle = { failure := some (.report fault) } := by
  cases hall : renderAll report formats with
  | error fault => exact ⟨fault, by rw [publish, hall]⟩
  | ok done => exact absurd ((sound_of_renderAll hall).2 format hf) h

theorem renders_of_bundle {x : Delivery} {path : Path} (hx : x.done.Sound report)
    (h : (x.bundle report path).2 = none) : ∀ format ∈ bundled, Renders report format := by
  unfold Delivery.bundle at h
  split at h
  · cases h
  · cases hmembers : advance (addMember report) (x.done, []) bundled with
    | mk last failure =>
      rw [hmembers] at h
      cases h
      exact (sound_of_foldlM Prod.fst id
        (fun state next format hstate hnext => hstate.addMember hnext) hx
        (advance_eq_iff.mp hmembers)).2

/-- Publishing comes to an end only if the report can be rendered in every format that is asked
for. -/
theorem renders_of_publish (h : (publish w report formats targets bundle).failure = none) :
    ∀ format ∈ wanted formats targets bundle, Renders report format := by
  unfold publish at h
  split at h
  · cases h
  · next done hall =>
    obtain ⟨hdone, hformats⟩ := sound_of_renderAll hall
    cases hwritten : advance (Delivery.write report) { disk := w.disk, done } targets with
    | mk x failure =>
      simp only [hwritten] at h
      cases failure with
      | some failure => cases h
      | none =>
        obtain ⟨hx, htargets⟩ := sound_of_foldlM Delivery.done Prod.fst
          (fun x y target hx hy => hx.write hy) hdone (advance_eq_iff.mp hwritten)
        refine forall_mem_wanted.mpr ⟨hformats, htargets, ?_⟩
        rintro path ⟨⟩
        exact renders_of_bundle hx h

end

/-- A report is printed as rendering gives it in each format alone, whatever else is asked for and in
which order, and so it is written to one file after the other up to the first that cannot be
written. Only such a file or a format in which the report cannot be rendered breaks this off; if the
format is to be printed, nothing is printed or written. -/
theorem publish_renders_directly (w : Workspace) (report : Json) (formats : List Report.Format)
    (targets : List (Report.Format × Path)) (bundle : Option Path) :
    let out := publish w report formats targets bundle
    let saved := (pathsOf targets bundle).foldlM Disk.save w.disk
    (∀ text : Report.Format → String,
      (∀ format ∈ formats, format.render report = .ok (text format)) →
        Prints text formats out.shown) ∧
    (∀ text : Report.Format → String,
      (∀ format ∈ wanted formats targets bundle, format.render report = .ok (text format)) →
        (∀ d, saved = .ok d → out.failure = none ∧ Files w text targets bundle out.written ∧
          ∀ path ∈ pathsOf targets bundle, d.spot (w.disk.place path) = .file) ∧
        ∀ fault, saved = .error fault → out.failure = some (.write fault) ∧
          ∃ n d, FailsAt Disk.save w.disk (pathsOf targets bundle) n d fault ∧
            Files w text (targets.take n) none out.written) ∧
    ((∃ format ∈ formats, ¬ Renders report format) →
      out.shown = "" ∧ out.written = [] ∧ ∃ fault, out.failure = some (.report fault)) ∧
    ((∃ format ∈ wanted formats targets bundle, ¬ Renders report format) → out.failure ≠ none) := by
  intro out saved
  refine ⟨fun text htext => ?_, fun text htext => ⟨fun d hd => ?_, fun fault hfault => ?_⟩, ?_, ?_⟩
  · have hshown : out.shown = _ := shown_publish htext
    exact hshown ▸ prints_screenText text formats
  · have hout : out = _ := publish_of_saved htext hd
    rw [hout]
    exact ⟨rfl, files_filesFor w text targets bundle, (Disk.foldlM_save_spec hd).2⟩
  · obtain ⟨n, d, hfail⟩ := exists_failsAt hfault
    have hout : out = _ := publish_of_unsaved htext hfail
    rw [hout]
    exact ⟨rfl, n, d, hfail, files_filesFor w text (targets.take n) none⟩
  · rintro ⟨format, hformat, hnone⟩
    obtain ⟨fault, hbroken⟩ := publish_of_unrendered hformat hnone
    exact ⟨congrArg Publication.shown hbroken, congrArg Publication.written hbroken, fault,
      congrArg Publication.failure hbroken⟩
  · rintro ⟨format, hwanted, hnone⟩ hended
    exact hnone (renders_of_publish hended format hwanted)

section
open Workspace (twoFiles)

def quietReport : Json := ScanResult.report { root := twoFiles.root } { root := twoFiles.root }

/-- Two targets that lead to one file. -/
def sameTargets : List (Report.Format × Path) :=
  [(.sarif, .ofText "out/r.txt"), (.human, .ofText "out/../out/r.txt")]

theorem sameTargets_last_counts : ∃ (text : Report.Format → String),
    (∀ format : Report.Format, format.render quietReport = .ok (text format)) ∧
      let out := publish twoFiles quietReport [.csv, .json, .csv] sameTargets
        (some (.ofText "b.zip"))
      out.failure = none ∧ Prints text [.csv, .json, .csv] out.shown ∧
        heldBy? twoFiles out.written ["p", "out", "r.txt"] = some (.text (text .human)) := by
  choose text htext using Report.exists_render { root := twoFiles.root } { root := twoFiles.root }
  obtain ⟨d, hd⟩ : ∃ d, (pathsOf sameTargets (some (.ofText "b.zip"))).foldlM Disk.save
      twoFiles.disk = .ok d := exists_eq_ok (by decide +kernel)
  obtain ⟨hprints, hwritten, -⟩ := publish_renders_directly twoFiles quietReport
    [.csv, .json, .csv] sameTargets (some (.ofText "b.zip"))
  obtain ⟨hended, hfiles, -⟩ := (hwritten text fun format _ => htext format).1 d hd
  have hlast : IsLast (fun target => LeadsTo twoFiles ["p", "out", "r.txt"] target.2) sameTargets
      (.human, .ofText "out/../out/r.txt") :=
    ⟨by decide +kernel, [(.sarif, .ofText "out/r.txt")], [], rfl, by simp⟩
  refine ⟨text, htext, hended, hprints text fun format _ => htext format,
    hfiles.atTarget _ _ hlast ?_⟩
  rintro path ⟨⟩
  decide +kernel

def blockedTargets : List (Report.Format × Path) :=
  [(.csv, .ofText "r.csv"), (.json, .ofText "a.js/r.json"), (.json, .ofText "r.json")]

/-- A target below a file is not written, and neither is the one after it. -/
theorem blockedTargets_not_written :
    let out := publish twoFiles quietReport [.json] blockedTargets none
    out.failure = some (.write .folderIsFile) ∧ out.written.map (·.1) = [.ofText "r.csv"] ∧
      heldBy? twoFiles out.written ["p", "r.json"] = none := by
  choose text htext using Report.exists_render { root := twoFiles.root } { root := twoFiles.root }
  have hfail : FailsAt Disk.save twoFiles.disk (pathsOf blockedTargets none) 1
      (twoFiles.disk.put ["p", "r.csv"] .file) .folderIsFile := ⟨rfl, _, rfl, rfl⟩
  have hout : publish twoFiles quietReport [.json] blockedTargets none = _ :=
    publish_of_unsaved (fun format _ => htext format) hfail
  rw [hout]
  have hother : ¬ LeadsTo twoFiles ["p", "r.json"] (.ofText "r.csv") := by decide +kernel
  refine ⟨rfl, rfl, heldBy?_eq_none fun entry hentry => ?_⟩
  cases List.mem_singleton.mp hentry
  exact hother

end

end SinkAudit.CommandLine
