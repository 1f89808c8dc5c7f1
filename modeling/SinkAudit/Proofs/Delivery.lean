import SinkAudit.CommandLine.Run
import SinkAudit.Proofs.FirstOccurrence
import SinkAudit.Proofs.Sarif
import SinkAudit.Proofs.Table

/-! # Delivering reports

The report of a scan can be rendered in every format (`exists_render`), and where a rendering is
remembered and used again, it is what rendering gives (`get_remembered`). So once the formats of a
request are known, only the file system can stand in the way: a delivery comes to an end exactly if
the files can be written one after the other (`publish_of_saved`), and breaks off at the first that
cannot (`publish_of_unsaved`). What is printed is the same. A file that is written stands where its
path leads, and no later one takes it away (`Disk.foldlM_save_spec`). -/
namespace SinkAudit

namespace Report
variable {ms : Members} {key : String}

/-! ## Reports for reading -/

theorem exists_joined (separator : String) (xs : List String) :
    ∃ text, joined separator (xs.map .str) = .ok text := by
  refine exists_bind_ok (exists_mapM_ok fun v hv => ?_) fun texts _ => ⟨_, rfl⟩
  obtain ⟨s, -, rfl⟩ := List.mem_map.mp hv
  exact ⟨s, rfl⟩

theorem exists_optionalLine {line : Json → Except Malformed String}
    (h : ∀ v, ms.get? key = some v → ∃ s, line v = .ok s) :
    ∃ lines, optionalLine (.obj ms) key line = .ok lines := by
  refine exists_bind_ok ⟨_, rfl⟩ fun value hvalue => ?_
  cases hvalue
  split
  · exact ⟨[], rfl⟩
  · next v hv =>
    exact exists_bind_ok (h v (Option.filter_eq_some_iff.mp hv).1) fun s _ => ⟨[s], rfl⟩

theorem exists_findingLines (f : Finding) : ∃ lines, findingLines f.toJson = .ok lines := by
  refine exists_bind_ok ⟨_, rfl⟩ fun head _ => ?_
  refine exists_bind_ok (exists_optionalLine fun v _ => ⟨_, rfl⟩) fun code _ => ?_
  refine exists_bind_ok (exists_optionalLine ?_) fun instead _ => ?_
  · rintro v ⟨⟩
    refine exists_bind_ok ⟨f.alternatives.map .str, rfl⟩ fun items hitems => ?_
    cases hitems
    exact exists_bind_ok (exists_joined _ _) fun text _ => ⟨_, rfl⟩
  refine exists_bind_ok (exists_optionalLine ?_) fun fix _ => ?_
  · rintro v ⟨⟩
    have hsteps : firstSteps (Json.strings f.remediation) =
        .ok ((f.remediation.take 3).map .str) := by
      rw [List.map_take]
      rfl
    refine exists_bind_ok ⟨_, hsteps⟩ fun items hitems => ?_
    cases hsteps.symm.trans hitems
    exact exists_bind_ok (exists_joined _ _) fun text _ => ⟨_, rfl⟩
  exact exists_bind_ok (exists_optionalLine fun v _ => ⟨_, rfl⟩) fun effort _ => ⟨_, rfl⟩

/-! ## The report of a scan -/

/-- What can be done to each finding can be done to all. -/
theorem exists_mapM_findings {α : Type} {f : Json → Except Malformed α}
    (h : ∀ finding : Finding, ∃ a, f finding.toJson = .ok a) (fs : List Finding) :
    ∃ as, (fs.map Finding.toJson).mapM f = .ok as := by
  refine exists_mapM_ok fun v hv => ?_
  obtain ⟨finding, -, rfl⟩ := List.mem_map.mp hv
  exact h finding

variable (config : Config) (result : ScanResult)

theorem exists_human : ∃ text, human (result.report config) = .ok text := by
  refine exists_bind_ok ⟨_, rfl⟩ fun root _ => exists_bind_ok ⟨_, rfl⟩ fun scanned _ => ?_
  refine exists_bind_ok ⟨_, rfl⟩ fun counts _ => exists_bind_ok ⟨_, rfl⟩ fun found hfound => ?_
  cases hfound
  exact exists_bind_ok (exists_mapM_findings exists_findingLines _) fun lines _ => ⟨_, rfl⟩

theorem exists_csv : ∃ text, csv (result.report config) = .ok text := by
  refine exists_bind_ok ⟨_, rfl⟩ fun found hfound => ?_
  cases hfound
  exact exists_bind_ok (exists_mapM_findings (fun f => ⟨_, csvRow_obj _⟩) _)
    fun rows _ => ⟨_, rfl⟩

theorem exists_sarifRules : ∃ rules, sarifRules (result.report config) = .ok rules := by
  have hids : ∀ v ∈ result.checks.map Json.str, ∃ kind, checkNamed v = .ok kind := by
    intro v hv
    obtain ⟨id, -, rfl⟩ := List.mem_map.mp hv
    exact ⟨_, rfl⟩
  exact exists_bind_ok (x := (result.checks.map Json.str).mapM checkNamed) (exists_mapM_ok hids)
    fun kinds _ => ⟨_, rfl⟩

theorem exists_sarif : ∃ text, sarif (result.report config) = .ok text := by
  have hresult (f : Finding) : ∃ v, sarifResult f.toJson = .ok v := by
    obtain ⟨location, hlocation, -⟩ := sarifLocation_toJson f
    rw [sarifResult, hlocation]
    exact ⟨_, rfl⟩
  have hdocument : ∃ doc, sarifDocument (result.report config) = .ok doc := by
    refine exists_bind_ok (exists_sarifRules config result) fun rules _ => ?_
    refine exists_bind_ok ⟨_, rfl⟩ fun found hfound => ?_
    cases hfound
    exact exists_bind_ok (exists_mapM_findings hresult _) fun results _ => ⟨_, rfl⟩
  obtain ⟨doc, hdoc⟩ := hdocument
  exact ⟨doc.render, by rw [sarif, hdoc]; rfl⟩

/-- The report of a scan can be rendered in every format. -/
theorem exists_render (format : Format) :
    ∃ text, format.render (result.report config) = .ok text := by
  cases format with
  | json => exact ⟨_, rfl⟩
  | sarif => exact exists_sarif config result
  | human => exact exists_human config result
  | csv => exact exists_csv config result

end Report

/-! ## Files on a disk -/

theorem Path.resolveParts_concat {name : String} (h : name ≠ "..") (done names : List String) :
    resolveParts done (names ++ [name]) = resolveParts done names ++ [name] := by
  induction names generalizing done with
  | nil => simp [resolveParts, h]
  | cons next names ih =>
    rw [List.cons_append, resolveParts, resolveParts, ih, ih]
    split
    · rfl
    · rfl

namespace Disk

variable {d d' d'' : Disk}

/-- What stood on a disk still stands there. -/
structure Extends (d d' : Disk) : Prop where
  base : d'.base = d.base
  kept : ∀ place, d.spot place ≠ .vacant → d'.spot place = d.spot place

theorem Extends.refl (d : Disk) : d.Extends d := ⟨rfl, fun _ _ => rfl⟩

theorem Extends.trans (h : d.Extends d') (h' : d'.Extends d'') : d.Extends d'' where
  base := h'.base.trans h.base
  kept place hplace := by
    have hkept := h.kept place hplace
    rw [h'.kept place (hkept ▸ hplace), hkept]

theorem Extends.place_eq (h : d.Extends d') (p : Path) : d'.place p = d.place p := by
  rw [place, place, route, route, h.base]

theorem extends_put {place : List String} {x : Spot} (h : d.spot place ≠ .vacant → x = d.spot place) :
    d.Extends (d.put place x) where
  base := rfl
  kept other hother := by
    by_cases heq : other = place
    · subst heq
      exact (if_pos rfl).trans (h hother)
    · exact if_neg heq

theorem enter_spec {here last names : List String} {made : Bool}
    (h : d.enter here made names = .ok (d', last)) :
    d.Extends d' ∧ last = Path.resolveParts here.reverse names := by
  induction names generalizing d here made with
  | nil =>
    cases h
    exact ⟨.refl _, (List.reverse_reverse _).symm⟩
  | cons name names ih =>
    rw [enter] at h
    rw [Path.resolveParts]
    split at h
    · next hdots =>
      rw [if_pos hdots]
      have hup : here.dropLast.reverse = here.reverse.drop 1 := by simp
      exact hup ▸ ih h
    · next hdots =>
      rw [if_neg hdots]
      have hdown : (here ++ [name]).reverse = name :: here.reverse := by simp
      split at h
      · exact hdown ▸ ih h
      · next hvacant =>
        obtain ⟨hextends, hlast⟩ := ih h
        exact ⟨(extends_put fun hne => absurd hvacant hne).trans hextends, hdown ▸ hlast⟩
      · cases h
      · cases h

/-- A file that is saved stands where its path leads, and all else is still there. -/
theorem save_spec {p : Path} (h : d.save p = .ok d') :
    d.Extends d' ∧ d'.spot (d.place p) = .file := by
  obtain ⟨⟨made, folder⟩, hmade, hwrite⟩ := bind_eq_ok_iff.mp h
  obtain ⟨hmade, hfolder⟩ := enter_spec hmade
  change made.write folder p = .ok d' at hwrite
  rw [write, route, hmade.base, ← route] at hwrite
  cases hlast : (d.route p).getLast? with
  | none =>
    rw [hlast] at hwrite
    cases hwrite
  | some name =>
    simp only [hlast] at hwrite
    split at hwrite
    · cases hwrite
    · next hdots =>
      have hplace : d.place p = folder ++ [name] := by
        rw [hfolder, List.reverse_nil, ← Path.resolveParts_concat (by simpa using hdots), place,
          List.dropLast_append_getLast? name hlast]
      split at hwrite
      · cases hwrite
      · cases hwrite
      · next hnotFolder hnotBarred =>
        cases hwrite
        refine ⟨hmade.trans (extends_put fun hvacant => ?_), hplace ▸ if_pos rfl⟩
        cases hspot : made.spot (folder ++ [name]) with
        | vacant => exact absurd hspot hvacant
        | file => rfl
        | folder => exact absurd hspot hnotFolder
        | barred => exact absurd hspot hnotBarred

theorem foldlM_save_spec {paths : List Path} (h : paths.foldlM save d = .ok d') :
    d.Extends d' ∧ ∀ p ∈ paths, d'.spot (d.place p) = .file := by
  induction paths generalizing d with
  | nil =>
    cases h
    exact ⟨.refl _, by simp⟩
  | cons p paths ih =>
    rw [List.foldlM_cons] at h
    obtain ⟨next, hsave, hrest⟩ := bind_eq_ok_iff.mp h
    obtain ⟨hextends, hfile⟩ := save_spec hsave
    obtain ⟨hrest, hfiles⟩ := ih hrest
    refine ⟨hextends.trans hrest, List.forall_mem_cons.mpr ⟨?_, fun q hq => ?_⟩⟩
    · rw [hrest.kept _ (by simp [hfile]), hfile]
    · rw [← hextends.place_eq]
      exact hfiles q hq

end Disk

namespace CommandLine

/-! ## Steps that may fail -/

section
variable {σ α ε : Type} {step : σ → α → Except ε σ} {state last : σ} {items : List α} {fault : ε}
  {n : Nat}

theorem advance_eq_iff :
    advance step state items = (last, none) ↔ items.foldlM step state = .ok last := by
  induction items generalizing state with
  | nil =>
    rw [advance, List.foldlM_nil, Prod.mk.injEq, eq_self, and_true]
    exact Except.ok.injEq state last ▸ Iff.rfl
  | cons item items ih =>
    rw [advance, List.foldlM_cons]
    cases step state item with
    | error fault => exact ⟨nofun, nofun⟩
    | ok next => exact ih

/-- Of some steps the one after the first `n` fails. -/
structure FailsAt (step : σ → α → Except ε σ) (state : σ) (items : List α) (n : Nat) (last : σ)
    (fault : ε) : Prop where
  before : (items.take n).foldlM step state = .ok last
  fails : ∃ item, items[n]? = some item ∧ step last item = .error fault

theorem exists_failsAt (h : items.foldlM step state = .error fault) :
    ∃ n last, FailsAt step state items n last fault := by
  induction items generalizing state with
  | nil => cases h
  | cons item items ih =>
    rw [List.foldlM_cons] at h
    cases hstep : step state item with
    | error fault' =>
      rw [hstep] at h
      cases h
      exact ⟨0, state, rfl, item, rfl, hstep⟩
    | ok next =>
      rw [hstep] at h
      obtain ⟨n, last, hbefore, hfails⟩ := ih h
      refine ⟨n + 1, last, ?_, hfails⟩
      rw [List.take_succ_cons, List.foldlM_cons, hstep]
      exact hbefore

/-- What was reached before the step that fails is kept. -/
theorem FailsAt.advance_eq (h : FailsAt step state items n last fault) :
    advance step state items = (last, some fault) := by
  induction items generalizing state n with
  | nil =>
    obtain ⟨item, hitem, -⟩ := h.fails
    cases hitem
  | cons item items ih =>
    cases n with
    | zero =>
      obtain ⟨_, hitem, hstep⟩ := h.fails
      cases hitem
      cases h.before
      rw [advance, hstep]
    | succ n =>
      have hbefore := h.before
      rw [List.take_succ_cons, List.foldlM_cons] at hbefore
      rw [advance]
      cases hstep : step state item with
      | error fault' =>
        rw [hstep] at hbefore
        cases hbefore
      | ok next =>
        rw [hstep] at hbefore
        exact ih ⟨hbefore, h.fails⟩

/-- The step that fails is one of the first, or all of them succeed and it is one of the others. -/
theorem FailsAt.append {others : List α} (h : FailsAt step state (items ++ others) n last fault) :
    FailsAt step state items n last fault ∨ ∃ next, items.length ≤ n ∧
      items.foldlM step state = .ok next ∧
        FailsAt step next others (n - items.length) last fault := by
  obtain ⟨hbefore, item, hitem, hstep⟩ := h
  by_cases hn : n < items.length
  · rw [List.take_append_of_le_length (Nat.le_of_lt hn)] at hbefore
    rw [List.getElem?_append_left hn] at hitem
    exact .inl ⟨hbefore, item, hitem, hstep⟩
  · have hle := Nat.not_lt.mp hn
    rw [List.take_append, List.take_of_length_le hle, List.foldlM_append, bind_eq_ok_iff] at hbefore
    obtain ⟨next, hnext, hbefore⟩ := hbefore
    rw [List.getElem?_append_right hle] at hitem
    exact .inr ⟨next, hle, hnext, hbefore, item, hitem, hstep⟩

end

/-! ## What is remembered -/

def remembered (text : Report.Format → String) (formats : List Report.Format) : Rendered :=
  formats.map fun format => (format, text format)

/-- The formats in which a report is asked for. -/
def wanted (formats : List Report.Format) (targets : List (Report.Format × Path))
    (bundle : Option Path) : List Report.Format :=
  formats ++ targets.map (·.1) ++ bundle.toList.flatMap fun _ => bundled

theorem forall_mem_wanted {p : Report.Format → Prop} {formats : List Report.Format}
    {targets : List (Report.Format × Path)} {bundle : Option Path} :
    (∀ format ∈ wanted formats targets bundle, p format) ↔
      (∀ format ∈ formats, p format) ∧ (∀ target ∈ targets, p target.1) ∧
        ∀ _path ∈ bundle, ∀ format ∈ bundled, p format := by
  rw [wanted, List.forall_mem_append, List.forall_mem_append, List.forall_mem_map,
    List.forall_mem_flatMap, and_assoc]
  simp only [Option.mem_toList, Option.mem_def]

section
variable {report : Json} {text : Report.Format → String} {shown : List Report.Format}

theorem lookup_remembered (format : Report.Format) :
    (remembered text shown).lookup format =
      if format ∈ shown then some (text format) else none := by
  induction shown with
  | nil => rfl
  | cons next shown ih =>
    rw [remembered, List.map_cons, List.lookup_cons, ← remembered, ih]
    by_cases hnext : format = next
    · simp [hnext]
    · simp [hnext, beq_eq_false_iff_ne.mpr hnext]

/-- What is remembered is what rendering gives, so it makes no difference which of them is used. -/
theorem get_remembered {format : Report.Format} (h : format.render report = .ok (text format)) :
    (remembered text shown).get report format =
      .ok (remembered text (insertNew shown format), text format) := by
  rw [Rendered.get, lookup_remembered, insertNew]
  by_cases hshown : format ∈ shown
  · rw [if_pos hshown, if_pos hshown]
  · rw [if_neg hshown, if_neg hshown, h, remembered, remembered, List.map_append]
    rfl

theorem renderAll_eq {formats : List Report.Format}
    (h : ∀ format ∈ formats, format.render report = .ok (text format)) :
    renderAll report formats = .ok (remembered text (formats.foldl insertNew [])) := by
  suffices ∀ shown, formats.foldlM
      (fun done format => (Rendered.get done report format).map (·.1)) (remembered text shown) =
        .ok (remembered text (formats.foldl insertNew shown)) from this []
  induction formats with
  | nil => exact fun shown => rfl
  | cons format formats ih =>
    intro shown
    rw [List.foldlM_cons, get_remembered (h format (by simp))]
    exact ih (fun next hnext => h next (by simp [hnext])) _

theorem foldlM_addMember {formats : List Report.Format}
    (h : ∀ format ∈ formats, format.render report = .ok (text format))
    (shown : List Report.Format) (members : List (String × String)) :
    formats.foldlM (addMember report) (remembered text shown, members) =
      .ok (remembered text (formats.foldl insertNew shown),
        members ++ formats.map fun format => ("report." ++ format.name, text format)) := by
  induction formats generalizing shown members with
  | nil => exact congrArg (fun ms => Except.ok (_, ms)) (List.append_nil members).symm
  | cons format formats ih =>
    rw [List.foldlM_cons, addMember, get_remembered (h format (by simp)), List.map_cons,
      List.append_cons]
    exact ih (fun next hnext => h next (by simp [hnext])) _ _

end

/-! ## What is written -/

def filesFor (text : Report.Format → String) (targets : List (Report.Format × Path))
    (bundle : Option Path) : List (Path × Content) :=
  targets.map (fun target => (target.2, .text (text target.1))) ++
    bundle.toList.map fun path =>
      (path, .bundle (bundled.map fun format => ("report." ++ format.name, text format)))

def delivered (text : Report.Format → String) (shown : List Report.Format)
    (written : List (Path × Content)) (disk : Disk) : Delivery :=
  { disk, done := remembered text shown, written }

section
variable {report : Json} {text : Report.Format → String} (shown : List Report.Format)
  (written : List (Path × Content)) (disk : Disk)

theorem write_delivered {target : Report.Format × Path}
    (h : target.1.render report = .ok (text target.1)) :
    (delivered text shown written disk).write report target =
      ((disk.save target.2).mapError Failure.write).map (delivered text (insertNew shown target.1)
        (written ++ [(target.2, .text (text target.1))])) := by
  rw [Delivery.write, Disk.save]
  simp only [delivered, get_remembered h]
  cases disk.makeFolder target.2 with
  | error fault => rfl
  | ok made =>
    change (made.1.write made.2 target.2).mapError Failure.write >>= _ = _
    simp only [bind, Except.bind]
    cases made.1.write made.2 target.2 with
    | error fault => rfl
    | ok disk => rfl

theorem foldlM_write {targets : List (Report.Format × Path)}
    (h : ∀ target ∈ targets, target.1.render report = .ok (text target.1)) :
    targets.foldlM (Delivery.write report) (delivered text shown written disk) =
      (((targets.map (·.2)).foldlM Disk.save disk).mapError Failure.write).map
        (delivered text ((targets.map (·.1)).foldl insertNew shown)
          (written ++ filesFor text targets none)) := by
  induction targets generalizing shown written disk with
  | nil =>
    have hnone : written ++ filesFor text [] none = written := List.append_nil written
    rw [hnone]
    rfl
  | cons target targets ih =>
    rw [List.foldlM_cons, write_delivered _ _ _ (h target (by simp)), List.map_cons,
      List.map_cons, List.foldlM_cons]
    cases disk.save target.2 with
    | error fault => rfl
    | ok disk =>
      have hrest := ih (insertNew shown target.1)
        (written ++ [(target.2, .text (text target.1))]) disk
        fun next hnext => h next (by simp [hnext])
      rw [List.append_assoc] at hrest
      exact hrest

theorem bundle_delivered (h : ∀ format ∈ bundled, format.render report = .ok (text format))
    {path : Path} {disk' : Disk} (hsave : disk.save path = .ok disk') :
    (delivered text shown written disk).bundle report path =
      (delivered text (bundled.foldl insertNew shown)
        (written ++ filesFor text [] (some path)) disk', none) := by
  have hmembers := advance_eq_iff.mpr (foldlM_addMember h shown [])
  simp only [Delivery.bundle, delivered, hsave, hmembers]
  rfl

end

theorem bundle_of_unsaved {report : Json} {x : Delivery} {path : Path} {fault : WriteFault}
    (h : x.disk.save path = .error fault) : x.bundle report path = (x, some (.write fault)) := by
  rw [Delivery.bundle, h]

/-- The files that are to be written, in order. -/
def pathsOf (targets : List (Report.Format × Path)) (bundle : Option Path) : List Path :=
  targets.map (·.2) ++ bundle.toList

section
variable {report : Json} {text : Report.Format → String} {formats : List Report.Format}
  {targets : List (Report.Format × Path)} {bundle : Option Path} {w : Workspace}

/-- Once the formats are rendered, what is printed is settled. -/
theorem publish_eq (h : ∀ format ∈ formats, format.render report = .ok (text format))
    {shown : List Report.Format} {x : Delivery} {failure : Option Failure}
    (hshown : shown = formats.foldl insertNew [])
    (hended : Delivery.finish report bundle
      (advance (Delivery.write report) (delivered text shown [] w.disk) targets) = (x, failure)) :
    publish w report formats targets bundle =
      { shown := screenText (remembered text shown), written := x.written, failure } := by
  subst hshown
  unfold delivered at hended
  simp only [publish, renderAll_eq h, hended]

theorem shown_publish (h : ∀ format ∈ formats, format.render report = .ok (text format)) :
    (publish w report formats targets bundle).shown =
      screenText (remembered text (formats.foldl insertNew [])) :=
  congrArg Publication.shown (publish_eq h rfl rfl)

theorem advance_of_saved (formats : List Report.Format) {d : Disk}
    (h : ∀ target ∈ targets, target.1.render report = .ok (text target.1))
    (hsave : (targets.map (·.2)).foldlM Disk.save w.disk = .ok d) :
    advance (Delivery.write report) (delivered text (formats.foldl insertNew []) [] w.disk) targets =
      (delivered text ((targets.map (·.1)).foldl insertNew (formats.foldl insertNew []))
        (filesFor text targets none) d, none) := by
  have hwrite := foldlM_write (formats.foldl insertNew []) [] w.disk h
  rw [hsave] at hwrite
  exact advance_eq_iff.mpr hwrite

theorem advance_of_unsaved (formats : List Report.Format) {n : Nat} {d : Disk} {fault : WriteFault}
    (h : ∀ target ∈ targets, target.1.render report = .ok (text target.1))
    (hfail : FailsAt Disk.save w.disk (targets.map (·.2)) n d fault) :
    advance (Delivery.write report) (delivered text (formats.foldl insertNew []) [] w.disk) targets =
      (delivered text (((targets.take n).map (·.1)).foldl insertNew (formats.foldl insertNew []))
        (filesFor text (targets.take n) none) d, some (.write fault)) := by
  obtain ⟨hbefore, path, hpath, hsave⟩ := hfail
  rw [List.getElem?_map, Option.map_eq_some_iff] at hpath
  obtain ⟨target, htarget, rfl⟩ := hpath
  have htaken : ∀ target ∈ targets.take n, target.1.render report = .ok (text target.1) :=
    fun target hmem => h target (List.mem_of_mem_take hmem)
  have hwrite := foldlM_write (formats.foldl insertNew []) [] w.disk htaken
  rw [← List.map_take] at hbefore
  rw [hbefore] at hwrite
  have hstep := write_delivered (((targets.take n).map (·.1)).foldl insertNew
    (formats.foldl insertNew [])) ([] ++ filesFor text (targets.take n) none) d
    (h target (List.mem_of_getElem? htarget))
  rw [hsave] at hstep
  exact FailsAt.advance_eq ⟨hwrite, target, htarget, hstep⟩

variable (h : ∀ format ∈ wanted formats targets bundle, format.render report = .ok (text format))

include h

theorem publish_of_saved {d : Disk}
    (hsave : (pathsOf targets bundle).foldlM Disk.save w.disk = .ok d) :
    publish w report formats targets bundle = {
      shown := screenText (remembered text (formats.foldl insertNew []))
      written := filesFor text targets bundle } := by
  obtain ⟨hformats, htargets, hbundle⟩ := forall_mem_wanted.mp h
  rw [pathsOf, List.foldlM_append, bind_eq_ok_iff] at hsave
  obtain ⟨d₁, hd₁, hlast⟩ := hsave
  have hadvance := advance_of_saved formats htargets hd₁
  cases bundle with
  | none => exact publish_eq hformats rfl (congrArg (Delivery.finish report none) hadvance)
  | some path =>
    rw [Option.toList_some, List.foldlM_cons, bind_eq_ok_iff] at hlast
    obtain ⟨d₂, hsave, -⟩ := hlast
    have hended := (congrArg (Delivery.finish report (some path)) hadvance).trans
      (bundle_delivered _ _ _ (hbundle path rfl) hsave)
    rw [publish_eq hformats rfl hended]
    simp [delivered, filesFor]

theorem publish_of_unsaved {n : Nat} {d : Disk} {fault : WriteFault}
    (hfail : FailsAt Disk.save w.disk (pathsOf targets bundle) n d fault) :
    publish w report formats targets bundle = {
      shown := screenText (remembered text (formats.foldl insertNew []))
      written := filesFor text (targets.take n) none
      failure := some (.write fault) } := by
  obtain ⟨hformats, htargets, -⟩ := forall_mem_wanted.mp h
  rcases hfail.append with hfail | ⟨d', hlength, hd', hbefore, path, hpath, hsave⟩
  · have hadvance := advance_of_unsaved formats htargets hfail
    exact publish_eq hformats rfl (congrArg (Delivery.finish report bundle) hadvance)
  · -- all targets are written, and the bundle is not
    rw [List.length_map] at hlength hbefore hpath
    cases bundle with
    | none => cases hpath
    | some last =>
      obtain ⟨hzero, rfl⟩ : n - targets.length = 0 ∧ last = path := by
        simpa [List.getElem?_singleton] using hpath
      rw [hzero] at hbefore
      cases hbefore
      have hended := congrArg (Delivery.finish report (some last))
        (advance_of_saved formats htargets hd')
      rw [publish_eq hformats rfl (hended.trans (bundle_of_unsaved hsave)),
        List.take_of_length_le hlength]
      rfl

end

/-! ## Requests -/

def unknownOutput? (outputs : List (String × Path)) : Option (String × Path) :=
  outputs.find? fun o => (Report.Format.ofName? o.1).isNone

section
variable {outputs : List (String × Path)} {o : String × Path} {format : Report.Format}

theorem targetsOf_cons_known (h : Report.Format.ofName? o.1 = some format) :
    targetsOf (o :: outputs) = targetsOf outputs >>= fun targets =>
      .ok ((format, o.2) :: targets) := by
  rw [targetsOf, targetsOf, List.mapM_cons]
  simp only [h]
  rfl

theorem targetsOf_cons_unknown (h : Report.Format.ofName? o.1 = none) :
    targetsOf (o :: outputs) = .error o.1 := by
  rw [targetsOf, List.mapM_cons]
  simp only [h]
  rfl

theorem targetsOf_eq_error (h : unknownOutput? outputs = some o) :
    targetsOf outputs = .error o.1 := by
  induction outputs with
  | nil => cases h
  | cons o' outputs ih =>
    rw [unknownOutput?, List.find?_cons] at h
    cases hname : Report.Format.ofName? o'.1 with
    | none =>
      rw [hname] at h
      cases h
      exact targetsOf_cons_unknown hname
    | some format =>
      rw [hname] at h
      rw [targetsOf_cons_known hname, ih h]
      rfl

theorem exists_targetsOf (h : unknownOutput? outputs = none) :
    ∃ targets, targetsOf outputs = .ok targets ∧ targets.map (·.2) = outputs.map (·.2) := by
  induction outputs with
  | nil => exact ⟨[], rfl, rfl⟩
  | cons o outputs ih =>
    rw [unknownOutput?, List.find?_cons] at h
    cases hname : Report.Format.ofName? o.1 with
    | none =>
      rw [hname] at h
      cases h
    | some format =>
      rw [hname] at h
      obtain ⟨targets, htargets, hpaths⟩ := ih h
      refine ⟨(format, o.2) :: targets, ?_, by simp [hpaths]⟩
      rw [targetsOf_cons_known hname, htargets]
      rfl

end

def ScanRequest.paths (q : ScanRequest) : List Path := q.outputs.map (·.2) ++ q.bundle.toList

namespace ScanRequest

variable {w : Workspace} {q : ScanRequest} {config : Config} {result : ScanResult}

section
variable (hfolder : w.isFolder q.project = true)
  (hscan : (q.scan w).outcome = .ok (config, result)) (verbose : Bool)

include hfolder hscan

theorem run_of_unknown {o : String × Path} (ho : unknownOutput? q.outputs = some o) :
    ∃ log, q.run w verbose = usageError log ("Unknown output format: " ++ o.1) := by
  unfold Attempt.outcome at hscan
  simp only [run, hfolder, hscan, targetsOf_eq_error ho]
  exact ⟨_, rfl⟩

theorem run_of_known (ho : unknownOutput? q.outputs = none) :
    ∃ targets log, targets.map (·.2) = q.outputs.map (·.2) ∧
      q.run w verbose = deliver w q targets log config result := by
  obtain ⟨targets, htargets, hpaths⟩ := exists_targetsOf ho
  unfold Attempt.outcome at hscan
  simp only [run, hfolder, hscan, htargets]
  exact ⟨targets, _, hpaths, rfl⟩

/-- A run whose files can be written comes to an end; the exit code follows from the findings. -/
theorem exit_of_saved (ho : unknownOutput? q.outputs = none) {d : Disk}
    (hsave : q.paths.foldlM Disk.save w.disk = .ok d) :
    (q.run w verbose).exit = .ok (exitCode q.failOn result.findings) := by
  obtain ⟨targets, log, hpaths, hrun⟩ := run_of_known hfolder hscan verbose ho
  rw [paths, ← hpaths] at hsave
  choose text htext using Report.exists_render config result
  rw [hrun, deliver]
  simp only [publish_of_saved (fun format _ => htext format) hsave]

/-- A run breaks off at a file that cannot be written. -/
theorem exit_of_unsaved (ho : unknownOutput? q.outputs = none) {fault : WriteFault}
    (hsave : q.paths.foldlM Disk.save w.disk = .error fault) :
    (q.run w verbose).exit = .error (.write fault) := by
  obtain ⟨targets, log, hpaths, hrun⟩ := run_of_known hfolder hscan verbose ho
  rw [paths, ← hpaths] at hsave
  obtain ⟨n, d, hfail⟩ := exists_failsAt hsave
  choose text htext using Report.exists_render config result
  rw [hrun, deliver]
  simp only [publish_of_unsaved (fun format _ => htext format) hfail]

end

end ScanRequest

end CommandLine

end SinkAudit
