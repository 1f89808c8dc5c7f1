import SinkAudit.Proofs.Outcome
import SinkAudit.Report.Format

/-! # Taking a table apart

Lines and fields are joined without quotes. No field keeps a comma or a line break, whatever the
findings hold, so cutting a table at line breaks and each line at commas gives back its fields
(`render_csv_cut_back`). -/
namespace SinkAudit

namespace Text

/-- The parts of a text between the occurrences of a character. -/
def cut (c : Char) (s : String) : List String := (s.split c).toList.map (·.copy)

theorem cut_intercalate {c : Char} {parts : List String} (hne : parts ≠ [])
    (h : ∀ s ∈ parts, c ∉ s.toList) : cut c ((String.singleton c).intercalate parts) = parts := by
  rw [cut, String.toList_split_intercalate h, if_neg hne]

theorem not_mem_intercalate {c : Char} {sep : String} {parts : List String} (hsep : c ∉ sep.toList)
    (h : ∀ s ∈ parts, c ∉ s.toList) : c ∉ (sep.intercalate parts).toList := by
  induction parts with
  | nil => simp
  | cons s parts ih =>
    have hs : c ∉ s.toList := h s (by simp)
    have hrest := ih fun t ht => h t (by simp [ht])
    cases parts with
    | nil => simpa using hs
    | cons t parts =>
      rw [String.intercalate_cons_cons, String.toList_append, String.toList_append]
      simp only [List.mem_append]
      rintro ((hc | hc) | hc)
      · exact hs hc
      · exact hsep hc
      · exact hrest hc

end Text

namespace Report

def cellChar (c : Char) : Char := if c = ',' then ';' else if c = '\n' then ' ' else c

/-- What a finding has in a column: the text of its value, or nothing, with every comma and every
line break replaced. -/
def cell (finding : Members) (column : String) : String :=
  ((finding.get? column).getD (.str "")).text.map cellChar

theorem cellChar_ne (c : Char) : cellChar c ≠ ',' ∧ cellChar c ≠ '\n' := by
  unfold cellChar
  split
  · decide
  · split
    · decide
    · exact ⟨‹_›, ‹_›⟩

theorem csvField_eq (s : String) : csvField s = s.map cellChar := by
  apply String.toList_inj.mp
  rw [csvField, Text.replaceChar, Text.replaceChar, String.toList_ofList, String.toList_ofList,
    List.map_map, String.toList_map]
  refine List.map_congr_left fun c _ => ?_
  -- what stands for a comma is no line break, so the second replacement does not meet the first
  by_cases hc : c = ','
  · simp [cellChar, hc]
  · simp [cellChar, hc]

theorem not_mem_cell (finding : Members) (column : String) :
    ',' ∉ (cell finding column).toList ∧ '\n' ∉ (cell finding column).toList := by
  rw [cell, String.toList_map, List.mem_map, List.mem_map]
  constructor
  · rintro ⟨c, _, hc⟩
    exact (cellChar_ne c).1 hc
  · rintro ⟨c, _, hc⟩
    exact (cellChar_ne c).2 hc

def cells (finding : Members) : List String := csvColumns.map (cell finding)

theorem csvRow_obj (finding : Members) :
    csvRow (.obj finding) = .ok (",".intercalate (cells finding)) := by
  have hmembers : csvColumns.mapM (fun column => member (.obj finding) column (.str "")) =
      .ok (csvColumns.map fun column => (finding.get? column).getD (.str "")) :=
    mapM_eq_ok fun _ _ => rfl
  have hfields : (csvColumns.map fun column => (finding.get? column).getD (.str "")).map
      (fun v => csvField v.text) = cells finding := by
    rw [List.map_map]
    exact List.map_congr_left fun column _ => csvField_eq _
  simp only [csvRow, hmembers, hfields, bind, Except.bind, pure, Except.pure]

def csvLines (found : List Members) : List String :=
  (csvColumns :: found.map cells).map (",".intercalate ·)

theorem csv_obj {ms : Members} {found : List Members}
    (h : (Members.get? ms "findings").getD (.arr []) = .arr (found.map .obj)) :
    csv (.obj ms) = .ok ("\n".intercalate (csvLines found)) := by
  have hfound : findings (.obj ms) = .ok (found.map .obj) := by
    simp only [findings, member, member?, Except.map, bind, Except.bind, h, parts]
  have hrows : (found.map Json.obj).mapM csvRow =
      .ok (found.map fun f => ",".intercalate (cells f)) := by
    rw [List.mapM_map]
    exact mapM_eq_ok fun f _ => csvRow_obj f
  simp only [csv, hfound, hrows, bind, Except.bind, pure, Except.pure, csvLines, List.map_cons,
    List.map_map, Function.comp_def]

/-- A line has nine fields, and none of them holds what separates fields or lines. -/
theorem separators_not_mem {found : List Members} {fields : List String}
    (h : fields ∈ csvColumns :: found.map cells) :
    fields.length = 9 ∧ ∀ s ∈ fields, ',' ∉ s.toList ∧ '\n' ∉ s.toList := by
  rcases List.mem_cons.mp h with rfl | h
  · exact ⟨rfl, by decide⟩
  · obtain ⟨f, _, rfl⟩ := List.mem_map.mp h
    refine ⟨rfl, fun s hs => ?_⟩
    obtain ⟨column, _, rfl⟩ := List.mem_map.mp hs
    exact not_mem_cell f column

theorem cut_line {found : List Members} {fields : List String}
    (h : fields ∈ csvColumns :: found.map cells) :
    Text.cut ',' (",".intercalate fields) = fields := by
  obtain ⟨hlen, hsep⟩ := separators_not_mem h
  have hne : fields ≠ [] := by
    rintro rfl
    cases hlen
  exact Text.cut_intercalate hne fun s hs => (hsep s hs).1

theorem cut_lines (found : List Members) :
    Text.cut '\n' ("\n".intercalate (csvLines found)) = csvLines found := by
  refine Text.cut_intercalate (by simp [csvLines]) fun line hline => ?_
  obtain ⟨fields, hfields, rfl⟩ := List.mem_map.mp hline
  exact Text.not_mem_intercalate (by decide) fun s hs => ((separators_not_mem hfields).2 s hs).2

/-- A table has one line for the names of the columns and one for each finding, in order; each line
has nine fields, and those of a finding are its values with commas and line breaks replaced. -/
theorem render_csv_cut_back {ms : Members} {found : List Members}
    (h : (Members.get? ms "findings").getD (.arr []) = .arr (found.map .obj)) :
    ∃ text, Format.render (.obj ms) .csv = .ok text ∧
      (Text.cut '\n' text).length = found.length + 1 ∧
      (Text.cut '\n' text).map (Text.cut ',') =
        csvColumns :: found.map (fun f => csvColumns.map (cell f)) ∧
      ∀ line ∈ Text.cut '\n' text, (Text.cut ',' line).length = 9 := by
  refine ⟨_, csv_obj h, ?_, ?_, ?_⟩
  · rw [cut_lines]
    simp [csvLines]
  · have hcut : ∀ fields ∈ csvColumns :: found.map cells,
        Text.cut ',' (",".intercalate fields) = fields := fun _ hf => cut_line hf
    rw [cut_lines, csvLines, List.map_map]
    exact List.map_congr_left hcut |>.trans (List.map_id _)
  · rw [cut_lines]
    intro line hline
    obtain ⟨fields, hfields, rfl⟩ := List.mem_map.mp hline
    rw [cut_line hfields]
    exact (separators_not_mem hfields).1

/-- A finding with separators in its texts and a list for a snippet, one that is made of separators,
and one that has nothing. -/
def awkwardFindings : List Members :=
  [[("snippet", .arr [.null, .str "x\ny"]), ("message", .str "a, b\nc"), ("line", .int (-3))],
   [("risk", .str ",,"), ("path", .str "\n"), ("cwe", .str ",\n,")],
   []]

theorem awkwardFindings_cut_back :
    let ms : Members := [("findings", .arr (awkwardFindings.map .obj))]
    (Members.get? ms "findings").getD (.arr []) = .arr (awkwardFindings.map .obj) ∧
      ∃ text, Format.render (.obj ms) .csv = .ok text ∧
        (Text.cut '\n' text).map (Text.cut ',') =
          [csvColumns,
           ["", "", "", "", "", "-3", "", "a; b c", "[None; 'x\\ny']"],
           [";;", "", "", "; ;", " ", "", "", "", ""],
           ["", "", "", "", "", "", "", "", ""]] := by
  intro ms
  have hms : (Members.get? ms "findings").getD (.arr []) = .arr (awkwardFindings.map .obj) := rfl
  obtain ⟨text, hr, _, hfields, _⟩ := render_csv_cut_back hms
  refine ⟨hms, text, hr, hfields.trans ?_⟩
  decide +kernel

end Report

end SinkAudit
