import SinkAudit.Text.Case

/-! # Lower case

No character has a capital letter of ASCII in its lower case, so that an ASCII text in lower case is
its own lower case (`lower_lower`). Beyond ASCII this need not be so. -/
namespace SinkAudit.Text

def IsCapital (c : Char) : Prop := 65 ≤ c.toNat ∧ c.toNat ≤ 90

instance (c : Char) : Decidable (IsCapital c) :=
  inferInstanceAs (Decidable (65 ≤ c.toNat ∧ c.toNat ≤ 90))

theorem target_of_mem_readRuns {s : String} {l : List Char} (hs : s = String.ofList l)
    (h : ∀ entry ∈ (l.splitOnP fun c => c == ' ' || c == '\n').filter (!·.isEmpty),
      90 < (readRun entry).target) :
    ∀ r ∈ readRuns s, 90 < r.target := by
  rw [readRuns, tableEntries, hs, String.toList_ofList]
  exact List.forall_mem_map.mpr h

-- Line by line: the characters of a literal are at hand, those of a long text are not.
theorem target_of_mem_lowerRuns : ∀ r ∈ lowerRuns, 90 < r.target := by
  unfold lowerRuns
  rw [List.forall_mem_flatMap]
  repeat
    refine List.forall_mem_cons.mpr ⟨target_of_mem_readRuns rfl (by decide +kernel), ?_⟩
  exact List.forall_mem_nil _

/-- No character beyond ASCII has a capital letter of ASCII for its partner. -/
theorem partner_lowerRuns {n : Nat} (h : 128 ≤ n) : 90 < partner lowerRuns n := by
  unfold partner
  split
  · rename_i r hr
    have htarget := target_of_mem_lowerRuns r (List.mem_of_find?_eq_some hr)
    omega
  · omega

theorem not_isCapital_ofNat {n : Nat} (h : 90 < n) : ¬ IsCapital (Char.ofNat n) := by
  unfold IsCapital
  by_cases hn : n.isValidChar
  · have htoNat : (Char.ofNatAux n hn).toNat = n := rfl
    rw [Char.ofNat, dif_pos hn]
    omega
  · rw [Char.ofNat, dif_neg hn]
    decide

theorem toLower_ascii {c : Char} (h : c.toNat < 128) :
    ¬ IsCapital c.toLower ∧ (¬ IsCapital c → c.toLower = c) := by
  have hall : ∀ n < 128, ¬ IsCapital (Char.ofNat n).toLower ∧
      (¬ IsCapital (Char.ofNat n) → (Char.ofNat n).toLower = Char.ofNat n) := by decide
  have hc := hall c.toNat h
  rwa [Char.ofNat_toNat] at hc

theorem beq_of_ascii {c d : Char} (h : c.toNat < 128) (hd : 128 ≤ d.toNat) : (c == d) = false := by
  rw [beq_eq_false_iff_ne]
  rintro rfl
  omega

theorem not_isCapital_fold (c : Char) : ¬ IsCapital (fold c) := by
  unfold fold
  split
  · rename_i hc
    exact (toLower_ascii hc).1
  · rename_i hc
    split
    · decide
    · exact not_isCapital_ofNat (partner_lowerRuns (by omega))

theorem not_isCapital_of_mem_lowerChar {c d : Char} (h : d ∈ lowerChar c) : ¬ IsCapital d := by
  unfold lowerChar at h
  split at h
  · rcases List.mem_cons.mp h with rfl | h
    · decide
    · obtain rfl := List.mem_singleton.mp h
      decide
  · obtain rfl := List.mem_singleton.mp h
    exact not_isCapital_fold c

theorem not_isCapital_of_mem_lowerAfter {before cs : List Char} {d : Char}
    (h : d ∈ lowerAfter before cs) : ¬ IsCapital d := by
  induction cs generalizing before with
  | nil => simp [lowerAfter] at h
  | cons c cs ih =>
    rw [lowerAfter, List.mem_append] at h
    rcases h with h | h
    · split at h
      · obtain rfl := List.mem_singleton.mp h
        decide
      · exact not_isCapital_of_mem_lowerChar h
    · exact ih h

theorem lowerChar_of_ascii {c : Char} (h : c.toNat < 128) (hc : ¬ IsCapital c) :
    lowerChar c = [c] := by
  have hdotted : (c == 'İ') = false := beq_of_ascii h (by decide)
  have hlower := (toLower_ascii h).2 hc
  simp [lowerChar, hdotted, fold, h, hlower]

theorem lowerAfter_of_ascii {before cs : List Char}
    (h : ∀ c ∈ cs, c.toNat < 128 ∧ ¬ IsCapital c) : lowerAfter before cs = cs := by
  induction cs generalizing before with
  | nil => rfl
  | cons c cs ih =>
    obtain ⟨hascii, hc⟩ := h c List.mem_cons_self
    have hsigma : (c == 'Σ') = false := beq_of_ascii hascii (by decide)
    rw [lowerAfter, ih fun d hd => h d (List.mem_cons_of_mem _ hd), lowerChar_of_ascii hascii hc,
      hsigma]
    rfl

/-- What is in lower case and ASCII is its own lower case. -/
theorem lower_lower {s : String} (h : ∀ c ∈ (lower s).toList, c.toNat < 128) :
    lower (lower s) = lower s := by
  have hfixed : lowerAfter [] (lower s).toList = (lower s).toList := by
    refine lowerAfter_of_ascii fun c hc => ⟨h c hc, ?_⟩
    rw [lower, String.toList_ofList] at hc
    exact not_isCapital_of_mem_lowerAfter hc
  rw [lower, hfixed, String.ofList_toList]

end SinkAudit.Text
