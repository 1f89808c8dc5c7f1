import Mathlib.Algebra.Order.BigOperators.Group.List
import Mathlib.Algebra.Order.Ring.Nat
import Mathlib.Data.List.Forall2
import SinkAudit.Check.Command

/-! # Commands as argument lists

A template is made of characters and substitutions. Its words end at white space, but white space
inside of a substitution does not end a word. The advice on a command divides the text of the
template into words instead, without regard to substitutions. The two agree, and the list that is
proposed has one element for each word, exactly if no substitution holds white space, none that
stands by itself is empty and the first word does not look as if it held one
(`suggest_lists_words_iff`). -/
namespace SinkAudit

/-! ## Words -/

section
variable {α : Type} {p : α → Bool} {xs ys w : List α} {b : α}

/-- The maximal runs of entries that are no separators. -/
def wordsBy (p : α → Bool) (xs : List α) : List (List α) := (xs.splitOnP p).filter (!·.isEmpty)

/-- Words end at a separator. All else about words follows from this and from what has none. -/
theorem wordsBy_append_cons (hb : p b = true) (xs ys : List α) :
    wordsBy p (xs ++ b :: ys) = wordsBy p xs ++ wordsBy p ys := by
  rw [wordsBy, List.splitOnP_append_cons xs ys hb, List.filter_append]
  rfl

theorem wordsBy_of_solid (h : ∀ x ∈ xs, p x = false) :
    wordsBy p xs = [xs].filter (!·.isEmpty) := by
  rw [wordsBy, List.splitOnP_eq_singleton h]

/-- A list has no separators, or it is made of two that are parted by one. -/
theorem wordsBy_induction {motive : List α → Prop}
    (solid : ∀ xs, (∀ x ∈ xs, p x = false) → motive xs)
    (split : ∀ xs b ys, p b = true → motive xs → motive ys → motive (xs ++ b :: ys))
    (xs : List α) : motive xs := by
  suffices ∀ w, (∀ x ∈ w, p x = false) → motive (w ++ xs) from this [] (by simp)
  induction xs with
  | nil =>
    intro w hw
    rw [List.append_nil]
    exact solid w hw
  | cons x xs ih =>
    intro w hw
    cases hx : p x with
    | true => exact split w x xs hx (solid w hw) (ih [] (by simp))
    | false =>
      rw [← List.singleton_append, ← List.append_assoc]
      refine ih _ fun y hy => ?_
      rcases List.mem_append.mp hy with hy | hy
      · exact hw y hy
      · rw [List.mem_singleton.mp hy, hx]

theorem flatten_wordsBy (xs : List α) : (wordsBy p xs).flatten = xs.filter (!p ·) := by
  induction xs using wordsBy_induction (p := p) with
  | solid xs h =>
    have hall : xs.filter (!p ·) = xs := List.filter_eq_self.mpr fun x hx => by simp [h x hx]
    rw [wordsBy_of_solid h, hall]
    cases xs with
    | nil => rfl
    | cons x xs => simp
  | split xs b ys hb hxs hys =>
    rw [wordsBy_append_cons hb, List.flatten_append, hxs, hys, List.filter_append,
      List.filter_cons_of_neg (by simp [hb])]

/-- A word has no separators, and what stands before it is one. -/
theorem of_mem_wordsBy (h : w ∈ wordsBy p xs) : w ≠ [] ∧ (∀ x ∈ w, p x = false) ∧
    ∃ pre post, xs = pre ++ w ++ post ∧ ∀ b ∈ pre.getLast?, p b = true := by
  induction xs using wordsBy_induction (p := p) with
  | solid xs hxs =>
    rw [wordsBy_of_solid hxs, List.mem_filter, List.mem_singleton] at h
    obtain ⟨rfl, hne⟩ := h
    exact ⟨by simpa using hne, hxs, [], [], by simp, by simp⟩
  | split xs b ys hb hxs hys =>
    rw [wordsBy_append_cons hb, List.mem_append] at h
    rcases h with h | h
    · obtain ⟨hne, hsolid, pre, post, rfl, hpre⟩ := hxs h
      exact ⟨hne, hsolid, pre, post ++ b :: ys, by simp, hpre⟩
    · obtain ⟨hne, hsolid, pre, post, rfl, hpre⟩ := hys h
      refine ⟨hne, hsolid, xs ++ b :: pre, post, by simp, ?_⟩
      cases pre with
      | nil => simpa using hb
      | cons c pre =>
        rw [List.getLast?_append_of_ne_nil _ (by simp), List.getLast?_cons_cons]
        exact hpre

theorem wordsBy_ne_nil {x : α} (hx : x ∈ xs) (hp : p x = false) : wordsBy p xs ≠ [] := by
  intro hnil
  have hmem : x ∈ (wordsBy p xs).flatten := by simp [flatten_wordsBy, hx, hp]
  rw [hnil] at hmem
  cases hmem

end

namespace Check.Command

/-! ## Templates -/

/-- A piece of a template: a character as it is written, or a substitution. -/
inductive Piece where
  | char (c : Char)
  | slot (e : List Char)
  deriving DecidableEq, Repr

namespace Piece

def chars : Piece → List Char
  | .char c => [c]
  | .slot e => '$' :: '\x7b' :: (e ++ ['\x7d'])

def isSlot : Piece → Bool
  | .char _ => false
  | .slot _ => true

def isGap : Piece → Bool
  | .char c => Text.isBlank c
  | .slot _ => false

end Piece

variable {ps w : List Piece} {e : List Char}

def written (ps : List Piece) : List Char := ps.flatMap Piece.chars

def wordsIn (ps : List Piece) : List (List Piece) := wordsBy Piece.isGap ps

/-- No substitution holds braces. -/
def Flat (ps : List Piece) : Prop := ∀ e, .slot e ∈ ps → '\x7b' ∉ e ∧ '\x7d' ∉ e

/-- No substitution holds white space. -/
def Solid (ps : List Piece) : Prop := ∀ e, .slot e ∈ ps → ∀ c ∈ e, Text.isBlank c = false

/-- The pieces of a template whose substitutions are flat. Of the characters beside them, those that
would begin a substitution are escaped. -/
structure IsTemplate (ps : List Piece) : Prop where
  flat : Flat ps
  escaped : ∀ pre post, ps = pre ++ .char '$' :: .char '\x7b' :: post →
    pre.getLast? = some (.char '\\')

/-- How a word is to stand in an argument list: a substitution by itself as its expression without
white space around it, any other word between quotes. They are back quotes where there is a
substitution or what looks like one. -/
def element : List Piece → String
  | [.slot e] => String.ofList (Text.trimWith Text.isBlank e)
  | w =>
    let mark := if w.any Piece.isSlot || holdsSlot (written w) then "`" else "'"
    mark ++ String.ofList (written w) ++ mark

/-- What keeps the words of a template whole: no substitution holds white space, none that is a word
by itself is empty, and the first word does not look as if it held one. -/
structure Whole (ps : List Piece) : Prop where
  solid : Solid ps
  filled : [.slot []] ∉ wordsIn ps
  plain : ∀ first ∈ (wordsIn ps).head?, holdsSlot (written first) = false

/-! ## The words of the text -/

theorem written_append (ps qs : List Piece) : written (ps ++ qs) = written ps ++ written qs :=
  List.flatMap_append

/-- The words of the text are those of the words. -/
theorem wordsOf_written (ps : List Piece) :
    Text.wordsOf (written ps) = (wordsIn ps).flatMap fun w => Text.wordsOf (written w) := by
  rw [wordsIn]
  induction ps using wordsBy_induction (p := Piece.isGap) with
  | solid ps h =>
    rw [wordsBy_of_solid h]
    cases ps with
    | nil => rfl
    | cons q ps => simp
  | split ps g qs hg hps hqs =>
    rw [wordsBy_append_cons hg, List.flatMap_append, ← hps, ← hqs, written_append]
    cases g with
    | char c => exact wordsBy_append_cons (p := Text.isBlank) hg _ _
    | slot e => cases hg

theorem written_ne_nil (h : w ≠ []) : written w ≠ [] := by
  cases w with
  | nil => exact absurd rfl h
  | cons q w =>
    cases q with
    | char c => exact List.cons_ne_nil _ _
    | slot e => exact List.cons_ne_nil _ _

/-- The text of a word is one word if no substitution in it holds white space. -/
theorem wordsOf_word (hne : w ≠ []) (hgap : ∀ q ∈ w, q.isGap = false) (h : Solid w) :
    Text.wordsOf (written w) = [written w] := by
  have hsolid : ∀ c ∈ written w, Text.isBlank c = false := by
    intro c hc
    obtain ⟨q, hq, hc⟩ := List.mem_flatMap.mp hc
    cases q with
    | char c' =>
      cases List.mem_singleton.mp hc
      exact hgap _ hq
    | slot e =>
      simp only [Piece.chars, List.mem_cons, List.mem_append, List.not_mem_nil, or_false] at hc
      rcases hc with rfl | rfl | hc | rfl
      · decide
      · decide
      · exact h e hq c hc
      · decide
  exact (wordsBy_of_solid hsolid).trans (List.filter_eq_self.mpr (by simp [written_ne_nil hne]))

/-- A substitution that holds white space is cut apart. -/
theorem two_le_wordsOf {c : Char} (he : .slot e ∈ w) (hc : c ∈ e) (hb : Text.isBlank c = true) :
    2 ≤ (Text.wordsOf (written w)).length := by
  obtain ⟨pre, post, rfl⟩ := List.append_of_mem he
  obtain ⟨e₁, e₂, rfl⟩ := List.append_of_mem hc
  have hwritten : written (pre ++ .slot (e₁ ++ c :: e₂) :: post) =
      (written pre ++ '$' :: '\x7b' :: e₁) ++ c :: (e₂ ++ '\x7d' :: written post) := by
    simp [written, Piece.chars]
  have hopen : wordsBy Text.isBlank (written pre ++ '$' :: '\x7b' :: e₁) ≠ [] :=
    wordsBy_ne_nil (x := '$') (by simp) (by decide)
  have hclose : wordsBy Text.isBlank (e₂ ++ '\x7d' :: written post) ≠ [] :=
    wordsBy_ne_nil (x := '\x7d') (by simp) (by decide)
  rw [hwritten]
  refine (congrArg List.length (wordsBy_append_cons hb _ _)).trans_ge ?_
  rw [List.length_append]
  exact Nat.add_le_add (List.length_pos_iff.mpr hopen) (List.length_pos_iff.mpr hclose)

/-! ## The elements -/

theorem holdsSlot_append (pre rest : List Char) :
    holdsSlot (pre ++ '$' :: '\x7b' :: rest) = true := by
  induction pre with
  | nil => simp [holdsSlot, Text.containsChars, Text.startsWithChars]
  | cons c pre ih => exact Bool.or_eq_true_iff.mpr (.inr ih)

theorem holdsSlot_of_mem (h : .slot e ∈ w) : holdsSlot (written w) = true := by
  obtain ⟨pre, post, rfl⟩ := List.append_of_mem h
  have hwritten : written (pre ++ .slot e :: post) =
      written pre ++ '$' :: '\x7b' :: (e ++ '\x7d' :: written post) := by
    simp [written, Piece.chars]
  rw [hwritten]
  exact holdsSlot_append _ _

/-- What is taken for a substitution is one with a filled and flat expression. -/
theorem slot?_eq_some_iff {word : List Char} : slot? word = some e ↔
    word = (Piece.slot e).chars ∧ e ≠ [] ∧ '\x7b' ∉ e ∧ '\x7d' ∉ e := by
  constructor
  · intro h
    unfold slot? at h
    split at h
    · next rest =>
      dsimp only at h
      split at h
      · next hc =>
        cases h
        simp only [Bool.and_eq_true, beq_iff_eq, Bool.not_eq_true', List.isEmpty_eq_false_iff,
          List.contains_eq_mem, decide_eq_false_iff_not] at hc
        obtain ⟨⟨⟨hlast, hne⟩, hopen⟩, hclose⟩ := hc
        have hrest : rest.dropLast ++ ['\x7d'] = rest := List.dropLast_append_getLast? _ hlast
        exact ⟨by rw [Piece.chars, hrest], hne, hopen, hclose⟩
      · cases h
    · cases h
  · rintro ⟨rfl, hne, hopen, hclose⟩
    simp [Piece.chars, slot?, hne, hopen, hclose]

/-- Other words are not taken for substitutions. -/
theorem slot?_eq_none (hslot : ∀ e, w ≠ [.slot e])
    (hstart : ∀ post, w ≠ .char '$' :: .char '\x7b' :: post) : slot? (written w) = none := by
  cases hs : slot? (written w) with
  | none => rfl
  | some e =>
    obtain ⟨hwritten, -, -, hclose⟩ := slot?_eq_some_iff.mp hs
    exfalso
    cases w with
    | nil => cases hwritten
    | cons q w =>
      cases q with
      | slot e' =>
        have hne : w ≠ [] := fun hnil => hslot e' (hnil ▸ rfl)
        have hsame : e' ++ '\x7d' :: written w = e ++ ['\x7d'] := by
          simpa [written, Piece.chars] using hwritten
        have hinner := congrArg List.dropLast hsame
        rw [List.dropLast_append_of_ne_nil (by simp),
          List.dropLast_cons_of_ne_nil (written_ne_nil hne), List.dropLast_concat] at hinner
        exact hclose (hinner ▸ by simp)
      | char c =>
        cases w with
        | nil => cases hwritten
        | cons q w =>
          cases q with
          | slot e' => simp [written, Piece.chars] at hwritten
          | char c' =>
            obtain ⟨hc, hc', -⟩ : c = '$' ∧ c' = '\x7b' ∧ _ := by
              simpa [written, Piece.chars] using hwritten
            exact hstart w (by rw [hc, hc'])

theorem filter_dropWhile {α : Type} (p : α → Bool) (l : List α) :
    (l.dropWhile p).filter (!p ·) = l.filter (!p ·) := by
  induction l with
  | nil => rfl
  | cons x l ih =>
    by_cases hx : p x = true
    · rw [List.dropWhile_cons_of_pos hx, ih, List.filter_cons_of_neg (by simp [hx])]
    · rw [List.dropWhile_cons_of_neg hx]

/-- Trimming takes away white space only. -/
theorem filter_trimWith (p : Char → Bool) (e : List Char) :
    (Text.trimWith p e).filter (!p ·) = e.filter (!p ·) := by
  rw [Text.trimWith, List.filter_reverse, filter_dropWhile, List.filter_reverse,
    List.reverse_reverse, filter_dropWhile]

theorem trimWith_of_solid (h : ∀ c ∈ e, Text.isBlank c = false) :
    Text.trimWith Text.isBlank e = e := by
  have hdrop (l : List Char) (hl : ∀ c ∈ l, Text.isBlank c = false) :
      l.dropWhile Text.isBlank = l := by
    cases l with
    | nil => rfl
    | cons c l => exact List.dropWhile_cons_of_neg (by simp [hl c])
  rw [Text.trimWith, hdrop e h, hdrop e.reverse fun c hc => h c (List.mem_reverse.mp hc),
    List.reverse_reverse]

structure IsPart (w : List Piece) : Prop where
  ne_nil : w ≠ []
  unbroken : ∀ q ∈ w, q.isGap = false
  flat : Flat w
  start : ∀ post, w ≠ .char '$' :: .char '\x7b' :: post

theorem IsTemplate.isPart (h : IsTemplate ps) (hw : w ∈ wordsIn ps) : IsPart w := by
  obtain ⟨hne, hunbroken, pre, post, rfl, hpre⟩ := of_mem_wordsBy hw
  refine ⟨hne, hunbroken, fun e he => h.flat e (by simp [he]), ?_⟩
  rintro rest rfl
  -- before the word there is nothing or a gap, and so nothing that escapes
  have hlast := h.escaped pre (rest ++ post) (by simp)
  exact absurd (hpre _ hlast) (by decide)

/-- A word of the text that is a word of the template is rendered as it is to be. -/
theorem IsPart.argumentOf_written (h : IsPart w) (hfilled : w ≠ [.slot []]) (hsolid : Solid w) :
    argumentOf (written w) = element w := by
  by_cases hslot : ∃ e, w = [.slot e]
  · obtain ⟨e, rfl⟩ := hslot
    have hne : e ≠ [] := fun hnil => hfilled (hnil ▸ rfl)
    have hs : slot? (written [.slot e]) = some e :=
      slot?_eq_some_iff.mpr ⟨by simp [written], hne, h.flat e (by simp)⟩
    rw [argumentOf, hs, element, trimWith_of_solid (hsolid e (by simp))]
  · have hother : ∀ e, w ≠ [.slot e] := fun e he => hslot ⟨e, he⟩
    have hmark : (w.any Piece.isSlot || holdsSlot (written w)) = holdsSlot (written w) := by
      rw [Bool.or_eq_right_iff_imp, List.any_eq_true]
      rintro ⟨q, hq, hs⟩
      cases q with
      | char c => cases hs
      | slot e => exact holdsSlot_of_mem hq
    rw [argumentOf, slot?_eq_none hother h.start, element]
    · rw [hmark]
    · exact hother

/-! ## Counting -/

/-- How much a text counts in a list: the characters that `p` accepts in it and in what parts it
from the next. -/
def weight (p : Char → Bool) (s : String) : Nat := s.toList.countP p + ", ".toList.countP p

theorem countP_intercalate (p : Char → Bool) {xs : List String} (h : xs ≠ []) :
    (", ".intercalate xs).toList.countP p + ", ".toList.countP p = (xs.map (weight p)).sum := by
  induction xs with
  | nil => exact absurd rfl h
  | cons x xs ih =>
    cases xs with
    | nil => simp [weight]
    | cons y xs =>
      rw [String.intercalate_cons_cons, List.map_cons, List.sum_cons, ← ih (by simp), weight]
      simp only [String.toList_append, List.countP_append]
      omega

/-- Rendering a word of the text adds no commas and takes none away. -/
theorem weight_argumentOf (word : List Char) :
    weight (· == ',') (argumentOf word) = word.count ',' + 1 := by
  unfold argumentOf
  split
  · next e he =>
    obtain ⟨rfl, -⟩ := slot?_eq_some_iff.mp he
    simp [weight, Piece.chars, List.count]
  · dsimp only
    split
    · simp [weight, List.count]
    · simp [weight, List.count]

/-- White space is no comma. -/
theorem count_filter_blank (cs : List Char) :
    (cs.filter (!Text.isBlank ·)).count ',' = cs.count ',' :=
  List.count_filter (by decide)

theorem weight_element (w : List Piece) :
    weight (· == ',') (element w) = (written w).count ',' + 1 := by
  unfold element
  split
  · next e =>
    have htrim : (Text.trimWith Text.isBlank e).count ',' = e.count ',' := by
      rw [← count_filter_blank, filter_trimWith, count_filter_blank]
    have hwritten : (written [.slot e]).count ',' = e.count ',' := by
      simp [written, Piece.chars]
    rw [hwritten, ← htrim, weight, String.toList_ofList]
    rfl
  · dsimp only
    split
    · simp [weight, List.count]
    · simp [weight, List.count]

/-- A word that is cut apart has a comma more for each cut. -/
theorem sum_weight_wordsOf (w : List Piece) :
    ((Text.wordsOf (written w)).map fun word => weight (· == ',') (argumentOf word)).sum =
      (written w).count ',' + (Text.wordsOf (written w)).length := by
  have hflatten : (Text.wordsOf (written w)).flatten = (written w).filter (!Text.isBlank ·) :=
    flatten_wordsBy (written w)
  rw [← count_filter_blank, ← hflatten, List.count_flatten]
  simp only [weight_argumentOf]
  induction Text.wordsOf (written w) with
  | nil => rfl
  | cons word words ih =>
    simp only [List.map_cons, List.sum_cons, List.length_cons, ih]
    omega

theorem weights_of_joined {xs ys : List String} (hx : xs ≠ []) (hy : ys ≠ [])
    (h : ", ".intercalate xs = ", ".intercalate ys) (p : Char → Bool) :
    (xs.map (weight p)).sum = (ys.map (weight p)).sum := by
  rw [← countP_intercalate p hx, ← countP_intercalate p hy, h]

/-! ## The list -/

theorem IsPart.wordsOf_ne_nil (h : IsPart w) : Text.wordsOf (written w) ≠ [] := by
  obtain ⟨q, qs, rfl⟩ := List.exists_cons_of_ne_nil h.ne_nil
  cases q with
  | char c =>
    have hc : Text.isBlank c = false := h.unbroken (.char c) (by simp)
    exact wordsBy_ne_nil (x := c) (by simp [written, Piece.chars]) hc
  | slot e => exact wordsBy_ne_nil (x := '$') (by simp [written, Piece.chars]) (by decide)

def proposed (words : List (List Piece)) : List String :=
  (words.flatMap fun w => Text.wordsOf (written w)).map argumentOf

section
variable {words : List (List Piece)} (hparts : ∀ w ∈ words, IsPart w)

include hparts

theorem proposed_ne_nil (hne : words ≠ []) : proposed words ≠ [] := by
  obtain ⟨w, rest, rfl⟩ := List.exists_cons_of_ne_nil hne
  simp [proposed, (hparts w (by simp)).wordsOf_ne_nil]

theorem proposed_of_solid (h : ∀ w ∈ words, Solid w) :
    proposed words = words.map fun w => argumentOf (written w) := by
  induction words with
  | nil => rfl
  | cons w words ih =>
    have hw := hparts w (by simp)
    have hrest := ih (fun v hv => hparts v (by simp [hv])) fun v hv => h v (by simp [hv])
    rw [proposed] at hrest
    rw [proposed, List.flatMap_cons, wordsOf_word hw.ne_nil hw.unbroken (h w (by simp)),
      List.map_append, hrest]
    rfl

/-- A substitution that is cut apart shows by its commas. -/
theorem solid_of_proposed
    (h : ", ".intercalate (proposed words) = ", ".intercalate (words.map element)) :
    ∀ w ∈ words, Solid w := by
  intro w hw e he c hc
  cases hb : Text.isBlank c with
  | false => rfl
  | true =>
    exfalso
    have hne : words ≠ [] := List.ne_nil_of_mem hw
    have hsum := weights_of_joined (proposed_ne_nil hparts hne) (by simp [hne]) h (· == ',')
    have hcut : ((proposed words).map (weight (· == ','))).sum =
        (words.map fun w => (written w).count ',' + (Text.wordsOf (written w)).length).sum := by
      rw [proposed, List.map_map, List.map_flatMap, List.flatMap_def, List.sum_flatten,
        List.map_map]
      exact congrArg List.sum (List.map_congr_left fun w _ => sum_weight_wordsOf w)
    have hwhole : ((words.map element).map (weight (· == ','))).sum =
        (words.map fun w => (written w).count ',' + 1).sum := by
      rw [List.map_map]
      exact congrArg List.sum (List.map_congr_left fun w _ => weight_element w)
    rw [hcut, hwhole] at hsum
    refine absurd hsum (Nat.ne_of_gt (List.sum_lt_sum _ _ ?_ ⟨w, hw, ?_⟩))
    · intro v hv
      exact Nat.add_le_add_left (List.length_pos_iff.mpr (hparts v hv).wordsOf_ne_nil) _
    · exact Nat.add_lt_add_left (two_le_wordsOf he hc hb) _

/-- An empty substitution shows by the length of the list. -/
theorem filled_of_proposed (hsolid : ∀ w ∈ words, Solid w)
    (h : ", ".intercalate (proposed words) = ", ".intercalate (words.map element)) :
    [.slot []] ∉ words := by
  intro hw
  have hne : words ≠ [] := List.ne_nil_of_mem hw
  have hsum := weights_of_joined (proposed_ne_nil hparts hne) (by simp [hne]) h fun _ => true
  rw [proposed_of_solid hparts hsolid, List.map_map, List.map_map] at hsum
  refine absurd hsum (Nat.ne_of_gt (List.sum_lt_sum _ _ ?_ ⟨_, hw, by decide⟩))
  intro v hv
  by_cases hempty : v = [.slot []]
  · rw [hempty]
    decide
  · exact Nat.le_of_eq
      (congrArg (weight _) ((hparts v hv).argumentOf_written hempty (hsolid v hv)).symm)

/-- The proposed elements are those of the words exactly if the words are kept whole. -/
theorem joined_proposed_iff :
    ", ".intercalate (proposed words) = ", ".intercalate (words.map element) ↔
      (∀ w ∈ words, Solid w) ∧ [.slot []] ∉ words := by
  constructor
  · intro h
    have hsolid := solid_of_proposed hparts h
    exact ⟨hsolid, filled_of_proposed hparts hsolid h⟩
  · rintro ⟨hsolid, hfilled⟩
    rw [proposed_of_solid hparts hsolid]
    refine congrArg _ (List.map_congr_left fun w hw => ?_)
    exact (hparts w hw).argumentOf_written (fun he => hfilled (he ▸ hw)) (hsolid w hw)

end

/-! ## The advice -/

theorem callWith_inj {function command : String} {xs ys : List String} :
    callWith function command xs = callWith function command ys ↔
      ", ".intercalate xs = ", ".intercalate ys := by
  simp only [callWith, String.append_left_inj, String.append_right_inj]

/-- A command in quotes is no variable. -/
theorem callWith_variable_ne (function command : String) (xs ys : List String) :
    callWith function "command" xs ≠ callWith function ("'" ++ command) ys := by
  intro h
  have hchars := congrArg String.toList h
  simp [callWith] at hchars

def runners (p : SinkPattern) : List String :=
  if Text.endsWith p.matcher "Sync" then ["execFileSync", "spawnSync"] else ["execFile", "spawn"]

theorem suggest_runners (s : Source) (p : SinkPattern) (i j : Nat)
    (hj : (s.tree.callArguments i).head?.map s.tree.unwrap = some j)
    (hkind : s.tree.kind j = .templateString) :
    ((suggest s p i).take 2).map Fix.template =
      (runners p).map fun function => argvTemplate function (commandWords (s.text j)) := by
  have hstring : (some j).filter (fun j => (s.tree.kind j).isString) = some j := by
    simp [hkind, Kind.isString]
  cases hsync : Text.endsWith p.matcher "Sync" with
  | true => simp [suggest, hj, hstring, hsync, runners]
  | false => simp [suggest, hj, hstring, hsync, runners]

/-- Whether a template is kept whole can be said word by word, if the first word holds no
substitution. -/
theorem whole_iff {first : List Piece} {rest : List (List Piece)}
    (hwords : wordsIn ps = first :: rest) (hfirst : ∀ e, .slot e ∉ first) :
    Whole ps ↔ holdsSlot (written first) = false ∧ (∀ w ∈ rest, Solid w) ∧ [.slot []] ∉ rest := by
  have hslots : ∀ e, .slot e ∈ ps ↔ ∃ w ∈ rest, .slot e ∈ w := by
    intro e
    have hmem : .slot e ∈ (wordsIn ps).flatten ↔ .slot e ∈ ps := by
      rw [wordsIn, flatten_wordsBy, List.mem_filter]
      exact and_iff_left rfl
    rw [← hmem, hwords, List.flatten_cons, List.mem_append, List.mem_flatten]
    exact or_iff_right (hfirst e)
  have hempty : [.slot []] ∉ wordsIn ps ↔ [.slot []] ∉ rest := by
    rw [hwords, List.mem_cons, not_or]
    exact and_iff_right fun he => hfirst [] (by simp [← he])
  constructor
  · intro h
    refine ⟨h.plain first (by rw [hwords]; rfl), fun w hw e he => ?_, hempty.mp h.filled⟩
    exact h.solid e ((hslots e).mpr ⟨w, hw, he⟩)
  · rintro ⟨hplain, hsolid, hfilled⟩
    refine ⟨fun e he => ?_, hempty.mpr hfilled, ?_⟩
    · obtain ⟨w, hw, he⟩ := (hslots e).mp he
      exact hsolid w hw e he
    · rw [hwords]
      rintro _ ⟨⟩
      exact hplain

theorem argvTemplate_eq_iff (hps : IsTemplate ps) {first : List Piece} {rest : List (List Piece)}
    (hwords : wordsIn ps = first :: rest) (hfirst : ∀ e, .slot e ∉ first) (function : String) :
    argvTemplate function (Text.wordsOf (written ps)) =
        callWith function ("'" ++ String.ofList (written first) ++ "'") (rest.map element) ↔
      Whole ps := by
  have hpart : IsPart first := hps.isPart (by simp [hwords])
  have hparts : ∀ w ∈ rest, IsPart w := fun w hw => hps.isPart (by simp [hwords, hw])
  have hcut : Text.wordsOf (written ps) =
      written first :: rest.flatMap fun w => Text.wordsOf (written w) := by
    rw [wordsOf_written, hwords, List.flatMap_cons,
      wordsOf_word hpart.ne_nil hpart.unbroken fun e he => absurd he (hfirst e)]
    rfl
  rw [whole_iff hwords hfirst, ← joined_proposed_iff hparts, hcut, argvTemplate]
  cases holdsSlot (written first) with
  | true =>
    rw [if_pos rfl, String.append_assoc]
    simp only [Bool.true_eq_false, false_and, iff_false]
    exact callWith_variable_ne _ _ _ _
  | false =>
    rw [if_neg (by simp), callWith_inj, proposed]
    exact (and_iff_right rfl).symm

/-- Let a command be a template, in whichever way its text is read as pieces, with substitutions that
hold no braces and with none in the first word. Both functions that the advice proposes are called
with one element for each further word (for a substitution by itself its expression without white
space around it, for any other word the word between quotes) exactly if no substitution holds white
space, none that stands by itself is empty, and the first word does not look as if it held one. -/
theorem suggest_lists_words_iff {s : Source} {i j : Nat} {ps first : List Piece}
    {rest : List (List Piece)} (p : SinkPattern)
    (hj : (s.tree.callArguments i).head?.map s.tree.unwrap = some j)
    (hkind : s.tree.kind j = .templateString)
    (htext : (s.text j).toList = '\x60' :: (written ps ++ ['\x60'])) (hps : IsTemplate ps)
    (hwords : wordsIn ps = first :: rest) (hfirst : ∀ e, .slot e ∉ first) :
    List.Forall₂ (fun function fix =>
        fix.template = callWith function ("'" ++ String.ofList (written first) ++ "'")
          (rest.map element) ↔ Whole ps)
      (runners p) ((suggest s p i).take 2) := by
  have hcommand : commandWords (s.text j) = Text.wordsOf (written ps) := by
    rw [commandWords, htext]
    simp [Source.inner]
  suffices List.Forall₂ (fun function template =>
      template = callWith function ("'" ++ String.ofList (written first) ++ "'")
        (rest.map element) ↔ Whole ps) (runners p) (((suggest s p i).take 2).map Fix.template) from
    List.forall₂_map_right_iff.mp this
  rw [suggest_runners s p i j hj hkind, hcommand, List.forall₂_map_right_iff, List.forall₂_same]
  exact fun function _ => argvTemplate_eq_iff hps hwords hfirst function

/-- The file ``exec(`git log ${ref} --n=${n}`);exec(`ls ${ dir }`)``. -/
def twoCommands : Source where
  bytes := "exec(`git log $\x7bref\x7d --n=$\x7bn\x7d`);exec(`ls $\x7b dir \x7d`)".toUTF8.data
  tree := ⟨#[
    { kind := .program, start := 0, stop := 51 },
    { kind := .callExpression, start := 0, stop := 31, parent := some 0 },
    { kind := .identifier, start := 0, stop := 4, parent := some 1, field := some .callee },
    { kind := .arguments, start := 4, stop := 31, parent := some 1, field := some .arguments },
    { kind := .templateString, start := 5, stop := 30, parent := some 3 },
    { kind := .templateSubstitution, start := 14, stop := 20, parent := some 4 },
    { kind := .identifier, start := 16, stop := 19, parent := some 5 },
    { kind := .templateSubstitution, start := 25, stop := 29, parent := some 4 },
    { kind := .identifier, start := 27, stop := 28, parent := some 7 },
    { kind := .callExpression, start := 32, stop := 51, parent := some 0 },
    { kind := .identifier, start := 32, stop := 36, parent := some 9, field := some .callee },
    { kind := .arguments, start := 36, stop := 51, parent := some 9, field := some .arguments },
    { kind := .templateString, start := 37, stop := 50, parent := some 11 },
    { kind := .templateSubstitution, start := 41, stop := 49, parent := some 12 },
    { kind := .identifier, start := 44, stop := 47, parent := some 13 }]⟩

def plainly (text : String) : List Piece := text.toList.map .char

theorem isTemplate_of_no_brace (hflat : Flat ps) (h : .char '\x7b' ∉ ps) : IsTemplate ps := by
  refine ⟨hflat, ?_⟩
  rintro pre post rfl
  exact absurd (by simp) h

def logPieces : List Piece :=
  plainly "git log " ++ .slot "ref".toList :: plainly " --n=" ++ [.slot "n".toList]

theorem twoCommands_first_listed :
    (twoCommands.tree.callArguments 1).head?.map twoCommands.tree.unwrap = some 4 ∧
      twoCommands.tree.kind 4 = .templateString ∧
      (twoCommands.text 4).toList = '\x60' :: (written logPieces ++ ['\x60']) ∧
      IsTemplate logPieces ∧
      wordsIn logPieces = [plainly "git", plainly "log", [.slot "ref".toList],
        plainly "--n=" ++ [.slot "n".toList]] ∧
      (∀ e, .slot e ∉ plainly "git") ∧
      ((suggest twoCommands (.generic "command-injection" "exec") 1).take 2).map Fix.template =
        ["execFile('git', ['log', ref, `--n=$\x7bn\x7d`], \x7b shell: false \x7d)",
         "spawn('git', ['log', ref, `--n=$\x7bn\x7d`], \x7b shell: false \x7d)"] := by
  have hj : (twoCommands.tree.callArguments 1).head?.map twoCommands.tree.unwrap = some 4 := by
    decide +kernel
  have htext : (twoCommands.text 4).toList = '\x60' :: (written logPieces ++ ['\x60']) := by
    decide +kernel
  have hslots : ∀ e, .slot e ∈ logPieces → e = "ref".toList ∨ e = "n".toList := by
    simp [logPieces, plainly]
  have hps : IsTemplate logPieces := by
    refine isTemplate_of_no_brace (fun e he => ?_) (by decide +kernel)
    rcases hslots e he with rfl | rfl
    · decide
    · decide
  have hwords : wordsIn logPieces = [plainly "git", plainly "log", [.slot "ref".toList],
      plainly "--n=" ++ [.slot "n".toList]] := by decide +kernel
  have hfirst : ∀ e, .slot e ∉ plainly "git" := by simp [plainly]
  have hwhole : Whole logPieces := by
    refine ⟨fun e he => ?_, by decide +kernel, by decide +kernel⟩
    rcases hslots e he with rfl | rfl
    · simp [Text.isBlank]
    · simp [Text.isBlank]
  have hlisted := (suggest_lists_words_iff (.generic "command-injection" "exec") hj rfl htext hps
    hwords hfirst).imp fun function fix h => h.mpr hwhole
  refine ⟨hj, rfl, htext, hps, hwords, hfirst, ?_⟩
  have htemplates : (runners (.generic "command-injection" "exec")).map (fun function =>
      callWith function ("'" ++ String.ofList (written (plainly "git")) ++ "'")
        ([plainly "log", [.slot "ref".toList], plainly "--n=" ++ [.slot "n".toList]].map element)) =
      ["execFile('git', ['log', ref, `--n=$\x7bn\x7d`], \x7b shell: false \x7d)",
       "spawn('git', ['log', ref, `--n=$\x7bn\x7d`], \x7b shell: false \x7d)"] := by decide +kernel
  rw [← htemplates, ← List.forall₂_eq_eq_eq, List.forall₂_map_left_iff, List.forall₂_map_right_iff]
  exact hlisted.flip

def listPieces : List Piece := plainly "ls " ++ [.slot " dir ".toList]

/-- The only word that follows is a substitution by itself, but white space in it cuts it apart. -/
theorem twoCommands_second_cut_apart :
    (twoCommands.tree.callArguments 9).head?.map twoCommands.tree.unwrap = some 12 ∧
      twoCommands.tree.kind 12 = .templateString ∧
      (twoCommands.text 12).toList = '\x60' :: (written listPieces ++ ['\x60']) ∧
      IsTemplate listPieces ∧ wordsIn listPieces = [plainly "ls", [.slot " dir ".toList]] ∧
      (∀ e, .slot e ∉ plainly "ls") ∧ element [.slot " dir ".toList] = "dir" ∧
      ((suggest twoCommands (.generic "command-injection" "exec") 9).take 2).map Fix.template =
        ["execFile('ls', [`$\x7b`, 'dir', '\x7d'], \x7b shell: false \x7d)",
         "spawn('ls', [`$\x7b`, 'dir', '\x7d'], \x7b shell: false \x7d)"] := by
  have hslots : ∀ e, .slot e ∈ listPieces → e = " dir ".toList := by simp [listPieces, plainly]
  have hps : IsTemplate listPieces := by
    refine isTemplate_of_no_brace (fun e he => ?_) (by decide +kernel)
    rw [hslots e he]
    decide
  exact ⟨by decide +kernel, rfl, by decide +kernel, hps, by decide +kernel, by simp [plainly],
    by decide +kernel, by decide +kernel⟩

end Check.Command

end SinkAudit
