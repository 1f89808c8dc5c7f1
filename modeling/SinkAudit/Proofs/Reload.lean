import SinkAudit.Proofs.LowerCase
import SinkAudit.Proofs.Overlay

/-! # Loading a reported configuration

A configuration is reported as an object. That object as the only layer over the defaults loads as
the same configuration, without a warning (`loadConfig_reproduces`). What loading makes of layers is
in a form that loading leaves alone: a severity in lower case, lists of texts, and options by
distinct identifiers, each an object. -/
namespace SinkAudit

namespace Attempt
variable {α β : Type} {x : Attempt α} {f : α → Attempt β}

def Quiet (x : Attempt α) : Prop := x.run.warnings = []

theorem quiet_liftM {y : Logged α} (h : y.warnings = []) : (liftM y : Attempt α).Quiet := by
  have hlog : (liftM y : Attempt α).run.log = y.log ++ [] := rfl
  rw [Quiet, Logged.warnings, hlog, List.append_nil]
  exact h

theorem Quiet.bind (hx : x.Quiet) (hf : ∀ a, x.outcome = .ok a → (f a).Quiet) :
    (x >>= f).Quiet := by
  have hlog : (x >>= f).run.log = x.run.log ++ (ExceptT.bindCont f x.run.value).log := rfl
  have hrest : (ExceptT.bindCont f x.run.value).warnings = [] := by
    cases hvalue : x.run.value with
    | ok a => exact hf a hvalue
    | error e => rfl
  rw [Quiet, Logged.warnings, hlog, List.filter_append, List.map_append]
  exact List.append_eq_nil_iff.mpr ⟨hx, hrest⟩

end Attempt

/-! ## What is made of layers -/

namespace Config
variable {c : Config} {data layer : Members} {root : Path}

theorem distinct_defaults : defaults.Distinct := by
  simp [defaults, Members.Distinct, Members.keys, Json.strings]

theorem map_filterMap_sublist {α β γ : Type} {f : α → Option β} {g : β → γ} {g' : α → γ}
    (h : ∀ a b, f a = some b → g b = g' a) (l : List α) :
    ((l.filterMap f).map g).Sublist (l.map g') := by
  induction l with
  | nil => exact List.Sublist.slnil
  | cons a l ih =>
    rw [List.filterMap_cons]
    split
    · exact ih.cons _
    · rename_i b hb
      rw [List.map_cons, List.map_cons, h a b hb]
      exact ih.cons_cons _

theorem nodup_checkOptions (h : data.Distinct) :
    ((checkOptions data).value.map (·.1)).Nodup := by
  unfold checkOptions
  split
  · exact List.nodup_nil
  · rename_i ms hms
    have hkeys : (Members.keys ms).Nodup :=
      h "checks" ms (Members.mem_of_get? (Option.filter_eq_some_iff.mp hms).1)
    refine List.Nodup.sublist (map_filterMap_sublist ?_ ms) hkeys
    intro m check hcheck
    obtain ⟨id, v⟩ := m
    cases v with
    | obj options =>
      cases hcheck
      rfl
    | _ => cases hcheck
  · exact List.nodup_nil

/-- A configuration in the form in which layers make it. -/
structure Normal (c : Config) : Prop where
  severity : ∃ written, c.severity = Text.lower written
  checks : (c.checks.map (·.1)).Nodup

theorem normal_ofMembers (h : data.Distinct) : (ofMembers root data).value.Normal :=
  ⟨⟨_, rfl⟩, nodup_checkOptions h⟩

theorem textList_strings (label : String) (texts : List String) :
    Options.textList label (.strings texts) = { value := texts } := by
  have htexts : (texts.map Json.str).map Json.text = texts := by
    rw [List.map_map]
    exact List.map_id' texts
  change ({ value := (texts.map Json.str).map Json.text } : Logged (List String)) = _
  rw [htexts]

theorem checkOptions_reported
    (h : data.get? "checks" = some (.obj (c.checks.map fun check => (check.1, .obj check.2)))) :
    checkOptions data = { value := c.checks } := by
  rw [checkOptions, h]
  cases hchecks : c.checks with
  | nil => rfl
  | cons check checks =>
    change Logged.mk (List.filterMap _ (List.map _ (check :: checks))) [] = _
    rw [List.filterMap_map]
    exact congrArg (Logged.mk · []) List.filterMap_some

theorem Normal.overlay_reported (hc : c.Normal) (h : c.toJson = .obj layer) :
    defaults.overlay layer =
      [("severity", .str c.severity),
       ("ignore", .strings c.ignore),
       ("disabled_checks", .strings c.disabledChecks),
       ("checks", .obj (c.checks.map fun check => (check.1, .obj check.2))),
       ("project_root", .str c.root.text)] := by
  have hchecks : Members.overlay [] (c.checks.map fun check => (check.1, .obj check.2)) =
      c.checks.map fun check => (check.1, .obj check.2) := by
    refine Members.overlay_nil ?_
    rw [Members.keys, List.map_map]
    exact hc.checks
  cases h
  simp [defaults, Members.overlay, Members.set, Members.get?, Json.over, Json.strings, hchecks]

/-- The reported object, put over the defaults, makes the configuration that it reports. -/
theorem Normal.ofMembers_reported (hc : c.Normal)
    (hascii : ∀ ch ∈ c.severity.toList, ch.toNat < 128) (h : c.toJson = .obj layer) :
    ofMembers c.root (defaults.overlay layer) = { value := c } := by
  obtain ⟨written, hwritten⟩ := hc.severity
  have hlower : Text.lower c.severity = c.severity := by
    rw [hwritten] at hascii ⊢
    exact Text.lower_lower hascii
  rw [hc.overlay_reported h, ofMembers, checkOptions_reported rfl]
  change (do
    let ignore ← Options.textList "ignore" (.strings c.ignore)
    let disabledChecks ← Options.textList "disabled_checks" (.strings c.disabledChecks)
    return Config.mk c.root (Text.lower c.severity) ignore disabledChecks c.checks : Logged _) = _
  rw [textList_strings, textList_strings, hlower]
  rfl

end Config

/-! ## Reading layers -/

namespace Workspace
variable {w : Workspace} {root path : Path} {entry : Entry} {named : Option Path} {layer : Members}

/-- A layer is the object that the text of a file holds. -/
theorem readLayer_eq_ok_iff : (readLayer path entry).outcome = .ok layer ↔
    ∃ f text, entry = .file f ∧ Text.decodeStrict f.bytes.toList = .ok text ∧
      Json.parse text = some (.obj layer) := by
  unfold readLayer
  rw [Attempt.outcome_bind, bind_eq_ok_iff]
  constructor
  · rintro ⟨_, _, h⟩
    split at h
    · cases h
    · rename_i f
      rw [Attempt.outcome_bind, bind_eq_ok_iff, Attempt.outcome_ofExcept] at h
      obtain ⟨text, htext, h⟩ := h
      refine ⟨f, text, rfl, ?_, ?_⟩
      · cases hdecode : Text.decodeStrict f.bytes.toList with
        | error e =>
          rw [hdecode] at htext
          cases htext
        | ok decoded =>
          rw [hdecode] at htext
          cases htext
          rfl
      · split at h
        · cases h
        · rename_i ms hparse
          cases h
          exact hparse
        · cases h
  · rintro ⟨f, text, rfl, htext, hparse⟩
    refine ⟨(), rfl, ?_⟩
    dsimp only
    rw [Attempt.outcome_bind, bind_eq_ok_iff, Attempt.outcome_ofExcept, htext]
    exact ⟨text, rfl, by rw [hparse]; rfl⟩

theorem wellKeyed_of_readLayer (h : (readLayer path entry).outcome = .ok layer) :
    (Json.obj layer).WellKeyed := by
  obtain ⟨f, text, _, _, hparse⟩ := readLayer_eq_ok_iff.mp h
  exact Json.wellKeyed_of_parse hparse

theorem quiet_readLayer (path : Path) (entry : Entry) : (readLayer path entry).Quiet := by
  refine Attempt.Quiet.bind rfl fun _ _ => ?_
  cases entry with
  | folder => rfl
  | file f =>
    refine Attempt.Quiet.bind ?_ fun text _ => ?_
    · cases Text.decodeStrict f.bytes.toList with
      | ok text => rfl
      | error e => rfl
    · split
      · rfl
      · rfl
      · rfl

theorem wellKeyed_of_ownLayer (h : (w.ownLayer root).outcome = .ok layer) :
    (Json.obj layer).WellKeyed := by
  dsimp only [ownLayer] at h
  split at h
  · exact wellKeyed_of_readLayer h
  · cases h
    exact Json.wellKeyed_nil

/-- A file that holds the text of an object is read as that object. -/
theorem ownLayer_of_render {f : SourceFile}
    (hentry : w.entry? (root.join (.ofText Config.fileName)) = some (.file f))
    (hdecode : Text.decodeStrict f.bytes.toList = .ok (Json.obj layer).render)
    (hp : (Json.obj layer).Plain) : (w.ownLayer root).outcome = .ok layer := by
  dsimp only [ownLayer]
  rw [hentry]
  exact readLayer_eq_ok_iff.mpr ⟨f, _, rfl, hdecode, Json.parse_render hp⟩

theorem quiet_ownLayer (w : Workspace) (root : Path) : (w.ownLayer root).Quiet := by
  dsimp only [ownLayer]
  split
  · exact quiet_readLayer _ _
  · rfl

theorem wellKeyed_of_namedLayer (h : (w.namedLayer root named).outcome = .ok layer) :
    (Json.obj layer).WellKeyed := by
  cases named with
  | none =>
    cases h
    exact Json.wellKeyed_nil
  | some path =>
    dsimp only [namedLayer] at h
    split at h
    · exact wellKeyed_of_readLayer h
    · cases h
      exact Json.wellKeyed_nil

theorem quiet_namedLayer (h : ∀ path ∈ named, (w.entry? (root.join path)).isSome) :
    (w.namedLayer root named).Quiet := by
  cases named with
  | none => rfl
  | some path =>
    obtain ⟨entry, hentry⟩ := Option.isSome_iff_exists.mp (h path rfl)
    dsimp only [namedLayer]
    rw [hentry]
    exact quiet_readLayer _ entry

section
variable {folder : Path} {own other overrides : Members} {c : Config}

/-- A configuration that loads is made of layers that were read. -/
theorem loadConfig_eq_ok_iff : (w.loadConfig folder named overrides).outcome = .ok c ↔
    ∃ own other, (w.ownLayer (w.root.join folder).resolve).outcome = .ok own ∧
      (w.namedLayer (w.root.join folder).resolve named).outcome = .ok other ∧
      (Config.ofMembers (w.root.join folder).resolve
        (((Config.defaults.overlay own).overlay other).overlay overrides)).value = c := by
  have hmade (root : Path) (data : Members) :
      Attempt.outcome (Config.ofMembers root data) = .ok (Config.ofMembers root data).value := rfl
  simp only [loadConfig, Attempt.outcome_bind, bind_eq_ok_iff, hmade, Except.ok.injEq]
  constructor
  · rintro ⟨own, hown, other, hother, hc⟩
    exact ⟨own, other, hown, hother, hc⟩
  · rintro ⟨own, other, hown, hother, hc⟩
    exact ⟨own, hown, other, hother, hc⟩

theorem quiet_loadConfig (hown : (w.ownLayer (w.root.join folder).resolve).outcome = .ok own)
    (hother : (w.namedLayer (w.root.join folder).resolve named).outcome = .ok other)
    (hthere : (w.namedLayer (w.root.join folder).resolve named).Quiet)
    (h : (Config.ofMembers (w.root.join folder).resolve
      (((Config.defaults.overlay own).overlay other).overlay overrides)).warnings = []) :
    (w.loadConfig folder named overrides).Quiet := by
  refine (quiet_ownLayer w _).bind fun own' hown' => hthere.bind fun other' hother' => ?_
  rw [hown] at hown'
  rw [hother] at hother'
  cases hown'
  cases hother'
  exact Attempt.quiet_liftM h

theorem distinct_layers (hown : (w.ownLayer root).outcome = .ok own)
    (hother : (w.namedLayer root named).outcome = .ok other) (ho : overrides.Distinct) :
    (((Config.defaults.overlay own).overlay other).overlay overrides).Distinct := by
  have hlower := Config.distinct_defaults.overlay (wellKeyed_of_ownLayer hown).distinct
  exact (hlower.overlay (wellKeyed_of_namedLayer hother).distinct).overlay ho

theorem normal_of_loadConfig (ho : overrides.Distinct)
    (h : (w.loadConfig folder named overrides).outcome = .ok c) :
    c.Normal ∧ c.root = (w.root.join folder).resolve := by
  obtain ⟨own, other, hown, hother, rfl⟩ := loadConfig_eq_ok_iff.mp h
  exact ⟨Config.normal_ofMembers (distinct_layers hown hother ho), rfl⟩

/-- A configuration that loads, with a severity in ASCII, loads again from what is reported of it:
whatever is loaded for the same root from layers that together are the reported object, in whichever
place it stands, is the configuration itself, and nothing is warned about. -/
theorem loadConfig_reproduces {w' : Workspace} {folder' : Path} {named' : Option Path}
    {overrides' : Members} (ho : overrides.Distinct)
    (h : (w.loadConfig folder named overrides).outcome = .ok c)
    (hascii : ∀ ch ∈ c.severity.toList, ch.toNat < 128)
    (hroot : (w'.root.join folder').resolve = (w.root.join folder).resolve)
    (hown : (w'.ownLayer c.root).outcome = .ok own)
    (hother : (w'.namedLayer c.root named').outcome = .ok other)
    (hthere : ∀ path ∈ named', (w'.entry? (c.root.join path)).isSome)
    (hlayers : c.toJson = .obj (own ++ other ++ overrides')) :
    (w'.loadConfig folder' named' overrides').outcome = .ok c ∧
      (w'.loadConfig folder' named' overrides').run.warnings = [] := by
  obtain ⟨hc, hcroot⟩ := normal_of_loadConfig ho h
  rw [hcroot, ← hroot] at hown hother hthere
  have hmade := hc.ofMembers_reported hascii hlayers
  rw [hcroot, ← hroot, Members.overlay_append, Members.overlay_append] at hmade
  constructor
  · exact loadConfig_eq_ok_iff.mpr ⟨own, other, hown, hother, by rw [hmade]⟩
  · exact quiet_loadConfig hown hother (quiet_namedLayer hthere) (by rw [hmade]; rfl)

end

def loudLayer : Members := [("severity", .str "HIGH")]

def loudProject : Workspace :=
  { root := ⟨"/", ["p"]⟩,
    files := [{ path := ⟨"", [Config.fileName]⟩, bytes := (Json.obj loudLayer).render.toUTF8.data }] }

def mixedOverrides : Members :=
  [("ignore", .null),
   ("checks", .obj [("open-redirect", .obj [("lookback", .int 3)]), ("xss", .int 2)])]

def loudConfig : Config :=
  { root := ⟨"/", ["p"]⟩,
    severity := "high",
    ignore := [],
    checks := [("open-redirect", [("lookback", .int 3)])] }

theorem ownLayer_loudProject : (loudProject.ownLayer ⟨"/", ["p"]⟩).outcome = .ok loudLayer := by
  have hdecode : Text.decodeStrict (Json.obj loudLayer).render.toUTF8.data.toList =
      .ok (Json.obj loudLayer).render := by decide +kernel
  exact ownLayer_of_render rfl hdecode (by simp [loudLayer])

theorem loadConfig_loudProject :
    (loudProject.loadConfig {} none mixedOverrides).outcome = .ok loudConfig :=
  loadConfig_eq_ok_iff.mpr ⟨_, [], ownLayer_loudProject, rfl, rfl⟩

theorem loudConfig_reproduced :
    (loudProject.loadConfig {} none mixedOverrides).outcome = .ok loudConfig ∧
      ∃ layer, loudConfig.toJson = .obj layer ∧
        (loadConfig { loudProject with files := [] } {} none layer).outcome = .ok loudConfig ∧
        (loadConfig { loudProject with files := [] } {} none layer).run.warnings = [] := by
  have ho : mixedOverrides.Distinct := by simp [mixedOverrides, Members.Distinct, Members.keys]
  have hascii : ∀ ch ∈ loudConfig.severity.toList, ch.toNat < 128 := by
    have hchars : loudConfig.severity.toList = ['h', 'i', 'g', 'h'] := by decide
    rw [hchars]
    simp
  exact ⟨loadConfig_loudProject, _, rfl,
    loadConfig_reproduces ho loadConfig_loudProject hascii rfl rfl rfl (by simp) rfl⟩

end Workspace

end SinkAudit
