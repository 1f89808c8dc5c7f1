import SinkAudit.Check.Run
import SinkAudit.Proofs.Finds

/-! # Well-formed findings

Whatever a check finds, with whatever options, its finding names the check, a class and the weakness
that belongs to it, a risk above the lowest, steps, a place that does not end before it begins, and a
snippet that fits on a line (`run_wellFormed`). -/
namespace SinkAudit

/-! ## Places -/

def Position.le (a b : Position) : Prop :=
  a.line < b.line ∨ (a.line = b.line ∧ a.column ≤ b.column)

instance (a b : Position) : Decidable (a.le b) :=
  inferInstanceAs (Decidable (a.line < b.line ∨ (a.line = b.line ∧ a.column ≤ b.column)))

namespace Source
variable {s : Source}

theorem slice_append {a b : Nat} (h : a ≤ b) : s.slice 0 b = s.slice 0 a ++ s.slice a b := by
  rw [slice, slice, slice, ← Array.toList_append, Array.extract_append_extract]
  simp [Nat.max_eq_right h]

/-- Within a line, columns count the bytes. -/
theorem column_append {before more : List UInt8} (h : 10 ∉ more) :
    ((before ++ more).reverse.takeWhile (· != 10)).length =
      more.length + (before.reverse.takeWhile (· != 10)).length := by
  rw [List.reverse_append, List.takeWhile_append_of_pos, List.length_append, List.length_reverse]
  intro b hb
  rw [bne_iff_ne]
  rintro rfl
  exact h (List.mem_reverse.mp hb)

theorem position_mono {a b : Nat} (h : a ≤ b) : (s.position a).le (s.position b) := by
  unfold position Position.le
  dsimp only
  rw [slice_append h, List.count_append]
  generalize s.slice 0 a = before
  generalize s.slice a b = more
  by_cases hline : 10 ∈ more
  · have hcount : 0 < more.count 10 := List.count_pos_iff.mpr hline
    omega
  · rw [column_append hline, List.count_eq_zero_of_not_mem hline]
    omega

end Source

/-! ## Snippets -/

/-- Each blank is a space between two characters that are none. -/
def Tidy (cs : List Char) : Prop :=
  ∀ before c after, cs = before ++ c :: after → Text.isBlank c = true →
    c = ' ' ∧ (∃ d ∈ before.getLast?, Text.isBlank d = false) ∧
      ∃ d ∈ after.head?, Text.isBlank d = false

structure IsWord (w : List Char) : Prop where
  ne_nil : w ≠ []
  solid : ∀ c ∈ w, Text.isBlank c = false

theorem IsWord.exists_head {w : List Char} (h : IsWord w) (cs : List Char) :
    ∃ d ∈ (w ++ cs).head?, Text.isBlank d = false := by
  obtain ⟨d, w', rfl⟩ := List.exists_cons_of_ne_nil h.ne_nil
  exact ⟨d, rfl, h.solid d (by simp)⟩

theorem IsWord.exists_last {w : List Char} (h : IsWord w) :
    ∃ d ∈ w.getLast?, Text.isBlank d = false :=
  ⟨w.getLast h.ne_nil, List.getLast?_eq_getLast_of_ne_nil h.ne_nil,
    h.solid _ (List.getLast_mem h.ne_nil)⟩

theorem IsWord.tidy {w : List Char} (h : IsWord w) : Tidy w := by
  intro before c after hw hc
  rw [h.solid c (by simp [hw])] at hc
  cases hc

/-- Where a character stands in a word, a space and more text: in the word, it is the space, or in
the rest. -/
theorem append_space_cases {w cs before after : List Char} {c : Char}
    (h : w ++ ' ' :: cs = before ++ c :: after) :
    c ∈ w ∨ (before = w ∧ c = ' ' ∧ after = cs) ∨
      ∃ rest, before = w ++ ' ' :: rest ∧ cs = rest ++ c :: after := by
  rcases List.append_eq_append_iff.mp h with ⟨rest, rfl, hrest⟩ | ⟨rest, rfl, hrest⟩
  · cases rest with
    | nil =>
      obtain ⟨rfl, rfl⟩ := List.cons.inj hrest
      exact .inr (.inl ⟨List.append_nil w, rfl, rfl⟩)
    | cons d rest =>
      obtain ⟨rfl, hcs⟩ := List.cons.inj hrest
      exact .inr (.inr ⟨rest, rfl, hcs⟩)
  · cases rest with
    | nil =>
      obtain ⟨rfl, rfl⟩ := List.cons.inj hrest
      exact .inr (.inl ⟨(List.append_nil before).symm, rfl, rfl⟩)
    | cons d rest =>
      obtain ⟨rfl, -⟩ := List.cons.inj hrest
      exact .inl (by simp)

theorem IsWord.tidy_append {w cs : List Char} (h : IsWord w) (hcs : Tidy cs)
    (hhead : ∃ d ∈ cs.head?, Text.isBlank d = false) : Tidy (w ++ ' ' :: cs) := by
  intro before c after heq hc
  rcases append_space_cases heq with hw | ⟨rfl, rfl, rfl⟩ | ⟨rest, rfl, hrest⟩
  · rw [h.solid c hw] at hc
    cases hc
  · exact ⟨rfl, h.exists_last, hhead⟩
  · obtain ⟨hspace, ⟨d, hd, hsolid⟩, hafter⟩ := hcs rest c after hrest hc
    refine ⟨hspace, ⟨d, ?_, hsolid⟩, hafter⟩
    obtain ⟨rest, rfl⟩ := List.getLast?_eq_some_iff.mp hd
    rw [← List.cons_append, ← List.append_assoc]
    exact List.getLast?_concat

theorem tidy_intercalate {ws : List (List Char)} (h : ∀ w ∈ ws, IsWord w) :
    Tidy (List.intercalate [' '] ws) := by
  induction ws with
  | nil =>
    intro before c after heq
    simp at heq
  | cons w ws ih =>
    have hw := h w (by simp)
    cases ws with
    | nil =>
      rw [List.intercalate_singleton]
      exact hw.tidy
    | cons w' ws =>
      rw [List.intercalate_cons_cons, List.append_assoc]
      refine hw.tidy_append (ih fun x hx => h x (by simp [hx])) ?_
      have hw' := h w' (by simp)
      cases ws with
      | nil => simpa using hw'.exists_head []
      | cons w'' ws =>
        rw [List.intercalate_cons_cons, List.append_assoc]
        exact hw'.exists_head _

/-- A text that is cut is tidy with dots for the rest. -/
theorem Tidy.cut {cs : List Char} (h : Tidy cs) (n : Nat) : Tidy (cs.take n ++ "...".toList) := by
  have hdots : ∀ d ∈ "...".toList, Text.isBlank d = false := by
    intro d hd
    obtain rfl : d = '.' := by simpa using hd
    decide
  intro before c after heq hc
  have hnot : c ∉ "...".toList := by
    intro hmem
    rw [hdots c hmem] at hc
    cases hc
  rcases List.append_eq_append_iff.mp heq with ⟨rest, rfl, hrest⟩ | ⟨rest, hrest, hafter⟩
  · exact absurd (hrest ▸ by simp) hnot
  · cases rest with
    | nil =>
      have hmem : c ∈ [] ++ "...".toList := hafter ▸ List.mem_cons_self
      exact absurd hmem hnot
    | cons d rest =>
      obtain ⟨rfl, rfl⟩ := List.cons.inj hafter
      have hcs : cs = before ++ c :: (rest ++ cs.drop n) := by
        rw [← List.cons_append, ← List.append_assoc, ← hrest, List.take_append_drop]
      obtain ⟨hspace, hbefore, hhead⟩ := h before c _ hcs hc
      refine ⟨hspace, hbefore, ?_⟩
      cases rest with
      | nil => exact ⟨'.', rfl, by decide⟩
      | cons d rest => exact hhead

theorem isWord_of_mem_wordsOf {cs w : List Char} (h : w ∈ Text.wordsOf cs) : IsWord w := by
  obtain ⟨hsplit, hne⟩ := List.mem_filter.mp h
  refine ⟨by simpa using hne, ?_⟩
  clear h hne
  induction cs generalizing w with
  | nil => simp_all
  | cons c cs ih =>
    rw [List.splitOnP_cons_eq_if_modifyHead] at hsplit
    split at hsplit
    · rcases List.mem_cons.mp hsplit with rfl | hsplit
      · simp
      · exact ih hsplit
    · rename_i hc
      obtain ⟨w', ws, hws⟩ := List.exists_cons_of_ne_nil (List.splitOnP_ne_nil Text.isBlank cs)
      rw [hws, List.modifyHead_cons] at hsplit
      rcases List.mem_cons.mp hsplit with rfl | hsplit
      · intro d hd
        rcases List.mem_cons.mp hd with rfl | hd
        · simpa using hc
        · exact ih (by simp [hws]) d hd
      · exact ih (by simp [hws, hsplit])

theorem tidy_words (text : String) : Tidy (" ".intercalate (Text.words text)).toList := by
  rw [String.toList_intercalate, Text.words, List.map_map]
  have hid : String.toList ∘ String.ofList = id := by
    funext cs
    exact String.toList_ofList
  rw [hid, List.map_id]
  exact tidy_intercalate fun w hw => isWord_of_mem_wordsOf hw

theorem tidy_snippetOf (text : String) : Tidy (snippetOf text).toList := by
  unfold snippetOf
  dsimp only
  split
  · rw [String.toList_append, String.toList_ofList]
    exact (tidy_words text).cut _
  · rw [String.toList_ofList]
    exact tidy_words text

theorem length_snippetOf (text : String) : (snippetOf text).length ≤ 200 := by
  unfold snippetOf snippetLimit
  dsimp only
  split
  · have hdots : "...".length = 3 := by decide
    rw [String.length_append, String.length_ofList, List.length_take, hdots]
    omega
  · rw [String.length_ofList]
    omega

/-! ## Findings -/

/-- What is said of a finding that goes into reports. -/
structure Finding.WellFormed (check : String) (f : Finding) : Prop where
  check : f.check = check
  weakness : weaknesses.lookup f.vulnerability = some f.cwe
  specific : f.cwe ≠ "CWE-20"
  risk : f.risk = .medium ∨ f.risk = .high ∨ f.risk = .critical
  steps : f.remediation ≠ []
  distinct : f.remediation.Nodup
  line : 1 ≤ f.start.line
  column : 1 ≤ f.start.column
  ordered : f.start.le f.stop
  short : f.snippet.length ≤ 200
  tidy : Tidy f.snippet.toList

theorem Emitter.finding_snippet (e : Emitter) (s : Source) (i : Nat) (p : SinkPattern)
    (risk : Risk) (message : String) (advice : Advice) :
    (e.finding s i p risk message advice).snippet = snippetOf (s.text i) := by
  simp only [finding]

theorem Emitter.finding_wellFormed (e : Emitter) {s : Source} {i : Nat} {p : SinkPattern}
    {risk : Risk} {advice : Advice} (hp : p.Classed) (hrisk : risk ≠ .low)
    (hsteps : ∀ steps ∈ advice.remediation, ProperSteps steps)
    (hspan : (s.tree.node i).start ≤ (s.tree.node i).stop) (message : String) :
    (e.finding s i p risk message advice).WellFormed e.check := by
  have hproper : ProperSteps (advice.remediation.getD p.steps) := by
    cases ha : advice.remediation with
    | none => exact p.properSteps
    | some steps => exact hsteps steps ha
  exact {
    check := rfl
    weakness := hp.lookup_eq
    specific := hp.cwe_ne
    risk := by cases risk <;> simp_all [finding]
    steps := hproper.ne_nil
    distinct := hproper.nodup
    line := Nat.le_add_left 1 _
    column := Nat.le_add_left 1 _
    ordered := Source.position_mono hspan
    short := by
      rw [finding_snippet]
      exact length_snippetOf (s.text i)
    tidy := by
      rw [finding_snippet]
      exact tidy_snippetOf (s.text i) }

namespace Check

/-- Every finding of every check is well formed, whatever the options, the text and the path. -/
theorem run_wellFormed (c : Check) {s : Source}
    (hs : ∀ i < s.tree.size, (s.tree.node i).start ≤ (s.tree.node i).stop) (path : Path)
    {m : Memory} (hm : m.emitter.check = c.kind.id) :
    Ends (Fails s.tree) (fun m' => ∀ f ∈ m'.emitter.findings, f.WellFormed c.kind.id)
      (run c s path m) := by
  refine (run_found c s path m).imp fun m' hfound f hf => ?_
  obtain ⟨i, _, hat⟩ := hfound f hf
  have hspan : (s.tree.node i).start ≤ (s.tree.node i).stop := by
    by_cases hi : i < s.tree.size
    · exact hs i hi
    · rw [Tree.node_of_size_le (Nat.le_of_not_lt hi)]
      exact Nat.le_refl 0
  obtain ⟨p, risk, message, advice, hp, hrisk, hsteps, rfl⟩ := hat.sound
  have hcheck : (m.emitter.reset path).check = c.kind.id := hm
  rw [← hcheck]
  exact (m.emitter.reset path).finding_wellFormed hp hrisk hsteps hspan message

/-- A call of `Function` over two lines, with a byte that is no text. -/
def brokenCall : Source where
  bytes := "Function(\n\t x".toUTF8.data ++ #[0xFF] ++ ")".toUTF8.data
  tree := ⟨#[
    { kind := .program, start := 0, stop := 15 },
    { kind := .callExpression, start := 0, stop := 15, parent := some 0 },
    { kind := .identifier, start := 0, stop := 8, parent := some 1, field := some .callee },
    { kind := .arguments, start := 8, stop := 15, parent := some 1, field := some .arguments },
    { kind := .identifier, start := 12, stop := 13, parent := some 3 }]⟩

theorem brokenCall_wellFormed :
    let c := Check.ofKind .code
    let path : Path := { parts := ["a.js"] }
    (∀ i < brokenCall.tree.size,
      (brokenCall.tree.node i).start ≤ (brokenCall.tree.node i).stop) ∧
      ∃ m, run c brokenCall path c.fresh = .ok m ∧
        m.emitter.findings.map (·.snippet) = ["Function( x)"] ∧
        ∀ f ∈ m.emitter.findings, f.WellFormed c.kind.id := by
  intro c path
  have hs : ∀ i < brokenCall.tree.size,
      (brokenCall.tree.node i).start ≤ (brokenCall.tree.node i).stop := by decide +kernel
  have hsnippets : (run c brokenCall path c.fresh).toOption.map
      (fun m => m.emitter.findings.map (·.snippet)) = some ["Function( x)"] := by decide +kernel
  have hends := run_wellFormed c hs path (m := c.fresh) rfl
  refine ⟨hs, ?_⟩
  generalize run c brokenCall path c.fresh = x at hends hsnippets
  cases hends with
  | error h => cases hsnippets
  | @ok m h => exact ⟨m, rfl, Option.some.inj hsnippets, h⟩

end Check

end SinkAudit
