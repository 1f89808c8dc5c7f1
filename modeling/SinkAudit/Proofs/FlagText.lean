import Mathlib.Data.List.Forall2
import SinkAudit.Check.Cookie
import SinkAudit.Proofs.Language

/-! # Flags in the text of options

Whether the options of a cookie set a flag is told by their text alone: the flag is set if somewhere
in the text its key stands at the edge of a word, then a colon, then a value that sets it
(`SpeltIn`). Nothing is asked about what surrounds the place, and a quote mark after the key is no
colon. The flags that count as missing are exactly those that are not so spelt
(`mem_missingFlags`). -/
namespace SinkAudit

/-! ## Letters in any case -/

namespace Text

/-- The second character is the first, which is a letter, in any case. -/
def SameLetter (c d : Char) : Prop :=
  fold d = fold c ∨ (fold d).toNat ∈ variants (fold c).toNat

instance (c d : Char) : Decidable (SameLetter c d) := inferInstanceAs (Decidable (_ ∨ _))

theorem of_ascii {P : Char → Prop} (h : ∀ n < 128, P (Char.ofNat n)) {c : Char}
    (hc : c.toNat < 128) : P c := by
  have hn := h c.toNat hc
  rwa [Char.ofNat_toNat] at hn

theorem ascii_of_isAlpha {c : Char} (h : c.isAlpha = true) : c.toNat < 128 := by
  rcases Bool.or_eq_true_iff.mp (show (c.isUpper || c.isLower) = true from h) with h | h
  · have hupper : 'A'.val ≤ c.val ∧ c.val ≤ 'Z'.val := of_decide_eq_true h
    exact Nat.lt_of_le_of_lt hupper.2 (by decide)
  · have hlower : (decide ('a'.val ≤ c.val) && decide (c.val ≤ 'z'.val)) = true := h
    exact Nat.lt_of_le_of_lt (of_decide_eq_true (Bool.and_eq_true_iff.mp hlower).2) (by decide)

/-- Of the characters of ASCII only letters are letters in another case. -/
theorem SameLetter.isAlpha {c d : Char} (h : SameLetter c d) (hc : c.isAlpha = true)
    (hd : d.toNat < 128) : d.isAlpha = true := by
  have hfold : ∀ n < 128, (Char.ofNat n).isAlpha = true →
      (fold (Char.ofNat n)).isAlpha = true ∧
        ∀ v ∈ variants (fold (Char.ofNat n)).toNat, 128 ≤ v := by decide +kernel
  have hback : ∀ n < 128, (fold (Char.ofNat n)).toNat < 128 ∧
      ((fold (Char.ofNat n)).isAlpha = true → (Char.ofNat n).isAlpha = true) := by decide +kernel
  obtain ⟨hletter, hvariants⟩ := of_ascii
    (P := fun c => c.isAlpha = true → (fold c).isAlpha = true ∧
      ∀ v ∈ variants (fold c).toNat, 128 ≤ v)
    hfold (ascii_of_isAlpha hc) hc
  obtain ⟨hsmall, halpha⟩ := of_ascii
    (P := fun d => (fold d).toNat < 128 ∧ ((fold d).isAlpha = true → d.isAlpha = true)) hback hd
  rcases h with h | h
  · exact halpha (h ▸ hletter)
  · have := hvariants _ h
    omega

/-! What is said of the characters of a text is decided along the text, also where a decision over
all characters is at hand. -/

namespace Along
variable (P : Char → Prop) [DecidablePred P]

scoped instance (priority := 2000) decidableForall (t : List Char) : Decidable (∀ c ∈ t, P c) :=
  List.decidableBAll P t

scoped instance (priority := 2000) decidableExists (t : List Char) : Decidable (∃ c ∈ t, P c) :=
  List.decidableBEx P t

scoped instance (priority := 2000) decidableExistsAt (o : Option Char) :
    Decidable (∃ c ∈ o, P c) :=
  Option.decidableExistsMem o

end Along

end Text

namespace Pattern
open Text
variable {w : List Char}

/-- A letter without regard to case. -/
theorem matches_letter {c : Char} (hc : c.isAlpha = true) :
    (literal { ignoreCase := true } c.toNat).Matches w ↔ ∃ d, SameLetter c d ∧ w = [d] := by
  have hall : ∀ n < 128, (Char.ofNat n).isAlpha = true → isCasedCode (Char.ofNat n).toNat = true ∧
      foldCode (Char.ofNat n).toNat = (fold (Char.ofNat n)).toNat ∧
      foldCode (fold (Char.ofNat n)).toNat = (fold (Char.ofNat n)).toNat ∧
      (fold (Char.ofNat n)).toNat < 0x10000 := by decide +kernel
  obtain ⟨hcased, hfold, hagain, hsmall⟩ := of_ascii
    (P := fun c => c.isAlpha = true → isCasedCode c.toNat = true ∧
      foldCode c.toNat = (fold c).toNat ∧ foldCode (fold c).toNat = (fold c).toNat ∧
      (fold c).toNat < 0x10000) hall (ascii_of_isAlpha hc) hc
  have hliteral : literal { ignoreCase := true } c.toNat =
      .one { items := [.char (fold c).toNat], folding := .unicode } := by
    simp [literal, hcased, hfold]
  have haccepts (d : Char) :
      CharSet.accepts { items := [.char (fold c).toNat], folding := .unicode } d = true ↔
        SameLetter c d := by
    simp [CharSet.accepts, CharSet.hits, SetItem.acceptsFolded, hagain, Nat.not_le.mpr hsmall,
      SameLetter, Char.toNat_inj]
  rw [hliteral]
  simp only [Matches, haccepts]

theorem matches_anyCase {s : String} (hs : ∀ c ∈ s.toList, c.isAlpha = true) :
    (anyCase s).Matches w ↔ List.Forall₂ SameLetter s.toList w := by
  rw [anyCase]
  generalize s.toList = cs at hs
  induction cs generalizing w with
  | nil => exact matches_sequence_nil.trans List.forall₂_nil_left_iff.symm
  | cons c cs ih =>
    obtain ⟨hc, hcs⟩ := List.forall_mem_cons.mp hs
    rw [List.map_cons, matches_sequence_cons]
    simp only [matches_letter hc, ih hcs]
    constructor
    · rintro ⟨_, v, ⟨d, hd, rfl⟩, hv, rfl⟩
      exact .cons hd hv
    · intro h
      obtain ⟨d, v, hd, hv, rfl⟩ := List.forall₂_cons_left_iff.mp h
      exact ⟨[d], v, ⟨d, hd, rfl⟩, hv, rfl⟩

end Pattern

/-! ## Flags in a text -/

namespace Check.Cookie
open Text Text.Along Pattern

def isWordChar (c : Char) : Bool := Category.word.holds false c

def endsWord (t : List Char) : Bool := t.getLast?.any isWordChar

def startsWord (t : List Char) : Bool := t.head?.any isWordChar

def Blank (t : List Char) : Prop := ∀ c ∈ t, isBlank c = true

instance (t : List Char) : Decidable (Blank t) := inferInstanceAs (Decidable (∀ c ∈ t, _))

theorem atBoundary_pass (u v : List Char) :
    ((Cursor.atStart (u ++ v)).pass u v).atBoundary false = (endsWord u != startsWord v) := by
  have hword (t : List Char) : Cursor.isWord false t = t.head?.any isWordChar := by
    cases t with
    | nil => rfl
    | cons c t => rfl
  simp [Cursor.atBoundary, Cursor.pass, Cursor.atStart, hword, endsWord, startsWord]

/-- The beginning of what a flag looks like: at an edge a key, and after it a colon. -/
def keyed (key : Pattern) : List Pattern := [key, blanks, exactly ":", blanks]

theorem matches_keyed {key : Pattern} {w : List Char} : (sequence (keyed key)).Matches w ↔
    ∃ k gap space, key.Matches k ∧ Blank gap ∧ Blank space ∧ w = k ++ gap ++ ':' :: space := by
  simp only [keyed, matches_sequence_cons, matches_blanks, matches_exactly, matches_sequence_nil]
  constructor
  · rintro ⟨k, _, hk, ⟨gap, _, hgap, ⟨_, _, rfl, ⟨space, _, hspace, rfl, rfl⟩, rfl⟩, rfl⟩, rfl⟩
    exact ⟨k, gap, space, hk, hgap, hspace, by simp⟩
  · rintro ⟨k, gap, space, hk, hgap, hspace, rfl⟩
    exact ⟨k, _, hk, ⟨gap, _, hgap, ⟨_, _, rfl, ⟨space, [], hspace, rfl, rfl⟩, rfl⟩, rfl⟩, by simp⟩

theorem startsWord_append {u : List Char} (hu : u ≠ []) (v : List Char) :
    startsWord (u ++ v) = startsWord u := by
  rw [startsWord, startsWord, List.head?_append_of_ne_nil u hu]

theorem endsWord_append (u : List Char) {v : List Char} (hv : v ≠ []) :
    endsWord (u ++ v) = endsWord v := by
  rw [endsWord, endsWord, List.getLast?_append_of_ne_nil u hv]

def quotes : List Char := ['\'', '"', '`']

def Quoted (t : List Char) : Prop :=
  ∃ q ∈ quotes, ∃ q' ∈ quotes, t = q :: Source.inner t ++ [q']

instance (t : List Char) : Decidable (Quoted t) :=
  inferInstanceAs (Decidable (∃ q ∈ quotes, ∃ q' ∈ quotes, t = q :: Source.inner t ++ [q']))

theorem inner_quoted (q q' : Char) (w : List Char) : Source.inner (q :: w ++ [q']) = w := by
  simp [Source.inner]

/-- The key of a flag, that of `sameSite` in any case. -/
def IsKey (name : String) (key : List Char) : Prop :=
  if name = "sameSite" then List.Forall₂ SameLetter name.toList key else key = name.toList

instance (name : String) (key : List Char) : Decidable (IsKey name key) :=
  inferInstanceAs (Decidable
    (if name = "sameSite" then List.Forall₂ SameLetter name.toList key else key = name.toList))

/-- What sets a flag: for `sameSite` one of three words in any case between quote marks, for the
others `true`. -/
def IsValue (name : String) (value : List Char) : Prop :=
  if name = "sameSite" then Quoted value ∧ ∃ word ∈ ["strict", "lax", "none"],
    List.Forall₂ SameLetter word.toList (Source.inner value)
  else value = "true".toList

instance (name : String) (value : List Char) : Decidable (IsValue name value) :=
  inferInstanceAs (Decidable (if name = "sameSite" then Quoted value ∧
    ∃ word ∈ ["strict", "lax", "none"], List.Forall₂ SameLetter word.toList (Source.inner value)
    else value = "true".toList))

/-- How a flag stands in a text: its key, which begins at the edge of a word, a colon and its value.
A value without quote marks ends at the edge of a word. -/
structure SpeltAt (name : String) (text before key gap space value rest : List Char) : Prop where
  shape : text = before ++ (key ++ gap ++ ':' :: space ++ (value ++ rest))
  isKey : IsKey name key
  gapBlank : Blank gap
  spaceBlank : Blank space
  isValue : IsValue name value
  edge : endsWord before ≠ startsWord key
  closed : name ≠ "sameSite" → startsWord rest = false

def SpeltIn (text : List Char) (name : String) : Prop :=
  ∃ before key gap space value rest, SpeltAt name text before key gap space value rest

section
variable {name : String} {key : Pattern} {tail : List Pattern} {text : String}

/-- The patterns match where in the text a value that sets the flag comes next. -/
def Describes (tail : List Pattern) (name : String) (text : String) : Prop :=
  ∀ u v, text.toList = u ++ v →
    (((sequence tail).run ((Cursor.atStart text.toList).pass u v) some).isSome = true ↔
      ∃ value rest, v = value ++ rest ∧ IsValue name value ∧
        (name ≠ "sameSite" → startsWord rest = false))

theorem search_iff_speltIn (hplain : key.isPlain = true)
    (hkey : ∀ k, key.Matches k ↔ IsKey name k) (hne : ∀ k, IsKey name k → k ≠ [])
    (htail : Describes tail name text) :
    (sequence (edge :: keyed key ++ tail)).search text = true ↔ SpeltIn text.toList name := by
  have hkeyed : (sequence (keyed key)).isPlain = true := by
    refine isPlain_sequence fun p hp => ?_
    simp only [keyed, List.mem_cons, List.not_mem_nil, or_false] at hp
    rcases hp with rfl | rfl | rfl | rfl
    · exact hplain
    · rfl
    · exact isPlain_exactly ":"
    · rfl
  have hrun (u v : List Char) (huv : text.toList = u ++ v) :
      ((sequence (edge :: keyed key ++ tail)).run ((Cursor.atStart text.toList).pass u v)
        some).isSome = true ↔
      (endsWord u != startsWord v) = true ∧ ∃ k rest, v = k ++ rest ∧
        (sequence (keyed key)).Matches k ∧ ((sequence tail).run
          ((Cursor.atStart text.toList).pass (u ++ k) rest) some).isSome = true := by
    have hsplit : edge :: keyed key ++ tail = [edge] ++ (keyed key ++ tail) := rfl
    have hone : sequence [edge] = edge := rfl
    rw [hsplit, run_sequence_append, hone, run_edge, run_sequence_append,
      exact_of_isPlain hkeyed, huv, atBoundary_pass]
    simp only [Cursor.Continues, Cursor.pass_after, Cursor.pass_pass]
  rw [search_iff_run]
  constructor
  · rintro ⟨before, v, hbefore, h⟩
    obtain ⟨hedge, w, v, rfl, hw, h⟩ := (hrun before v hbefore).mp h
    obtain ⟨k, gap, space, hk, hgap, hspace, rfl⟩ := matches_keyed.mp hw
    obtain ⟨value, rest, rfl, hvalue, hclosed⟩ :=
      (htail _ _ (by simp [hbefore])).mp h
    have hname := (hkey k).mp hk
    refine ⟨before, k, gap, space, value, rest, hbefore, hname, hgap, hspace, hvalue, ?_, hclosed⟩
    simpa only [List.append_assoc, startsWord_append (hne k hname), bne_iff_ne] using hedge
  · rintro ⟨before, k, gap, space, value, rest, h⟩
    refine ⟨before, _, h.shape, (hrun before _ h.shape).mpr ⟨?_, _, _, rfl, ?_, ?_⟩⟩
    · simpa only [List.append_assoc, startsWord_append (hne k h.isKey), bne_iff_ne] using h.edge
    · exact matches_keyed.mpr
        ⟨k, gap, space, (hkey k).mpr h.isKey, h.gapBlank, h.spaceBlank, rfl⟩
    · exact (htail _ _ (by simp [h.shape])).mpr
        ⟨value, rest, rfl, h.isValue, h.closed⟩

theorem search_switch (hn : name ≠ "sameSite") (hne : name.toList ≠ []) :
    (Flag.switch name).pattern.search text = true ↔ SpeltIn text.toList name := by
  have hkey (k : List Char) : IsKey name k ↔ k = name.toList := by rw [IsKey, if_neg hn]
  refine search_iff_speltIn (isPlain_exactly name)
    (fun k => (matches_exactly name).trans (hkey k).symm) (fun k hk => (hkey k).mp hk ▸ hne)
    fun u v huv => ?_
  have hsplit : [exactly "true", edge] = [exactly "true"] ++ [edge] := rfl
  have hone (p : Pattern) : sequence [p] = p := rfl
  have htrue : endsWord "true".toList = true := by decide
  rw [hsplit, run_sequence_append, hone, hone, exact_of_isPlain (isPlain_exactly _), huv]
  simp only [Cursor.Continues, matches_exactly, Cursor.pass_after, Cursor.pass_pass, run_edge,
    Option.isSome_some, and_true, IsValue, if_neg hn]
  constructor
  · rintro ⟨_, rest, rfl, rfl, h⟩
    rw [← List.append_assoc, atBoundary_pass, endsWord_append u (by decide), htrue] at h
    exact ⟨_, rest, rfl, rfl, fun _ => by simpa using h⟩
  · rintro ⟨_, rest, rfl, rfl, h⟩
    refine ⟨_, rest, rfl, rfl, ?_⟩
    rw [← List.append_assoc, atBoundary_pass, endsWord_append u (by decide), htrue, h hn]
    rfl

def quotedWord : List Pattern :=
  [oneOf "'\"`", choice (["strict", "lax", "none"].map anyCase), oneOf "'\"`"]

theorem isAlpha_of_siteWord {word : String} (h : word ∈ ["strict", "lax", "none"]) :
    ∀ c ∈ word.toList, c.isAlpha = true := by
  revert word
  decide

theorem matches_quotedWord {w : List Char} :
    (sequence quotedWord).Matches w ↔ IsValue "sameSite" w := by
  have hquotes : "'\"`".toList = quotes := by decide
  simp only [quotedWord, matches_sequence_cons, matches_sequence_nil, matches_oneOf, hquotes,
    matches_choice (by decide : ["strict", "lax", "none"].map anyCase ≠ []), List.mem_map,
    exists_exists_and_eq_and, IsValue, if_true]
  constructor
  · rintro ⟨_, _, ⟨q, hq, rfl⟩, ⟨w, _, ⟨word, hword, hw⟩, hlast, rfl⟩, rfl⟩
    obtain ⟨_, _, ⟨q', hq', rfl⟩, rfl, rfl⟩ := hlast
    have hw := (matches_anyCase (isAlpha_of_siteWord hword)).mp hw
    rw [← inner_quoted q q' w] at hw
    exact ⟨⟨q, hq, q', hq', congrArg (q :: · ++ [q']) (inner_quoted q q' w).symm⟩, word, hword, hw⟩
  · rintro ⟨⟨q, hq, q', hq', hvalue⟩, word, hword, hw⟩
    exact ⟨[q], _, ⟨q, hq, rfl⟩,
      ⟨_, _, ⟨word, hword, (matches_anyCase (isAlpha_of_siteWord hword)).mpr hw⟩,
        ⟨[q'], [], ⟨q', hq', rfl⟩, rfl, rfl⟩, rfl⟩, hvalue⟩

theorem search_sameSite :
    (sequence (edge :: keyed (anyCase "sameSite") ++ quotedWord)).search text = true ↔
      SpeltIn text.toList "sameSite" := by
  have hletters : ∀ c ∈ "sameSite".toList, c.isAlpha = true := by decide
  have hkey (k : List Char) : IsKey "sameSite" k ↔ List.Forall₂ SameLetter "sameSite".toList k := by
    rw [IsKey, if_pos rfl]
  refine search_iff_speltIn (isPlain_anyCase _)
    (fun k => (matches_anyCase hletters).trans (hkey k).symm) (fun k hk => ?_) fun u v huv => ?_
  · rintro rfl
    have hlength := ((hkey _).mp hk).length_eq
    exact absurd hlength (by decide)
  · rw [exact_of_isPlain (by decide)]
    simp only [Cursor.Continues, matches_quotedWord, Cursor.pass_after, Option.isSome_some,
      and_true, ne_eq, not_true_eq_false, false_imp_iff]

theorem search_required {f : Flag} (hf : f ∈ requiredFlags) (text : String) :
    f.pattern.search text = true ↔ SpeltIn text.toList f.name := by
  simp only [requiredFlags, List.mem_cons, List.not_mem_nil, or_false] at hf
  rcases hf with rfl | rfl | rfl
  · exact search_switch (by decide) (by decide)
  · exact search_switch (by decide) (by decide)
  · exact search_sameSite

def flagNames : List String := requiredFlags.map (·.name)

theorem missingFlags_sublist (text : String) : (missingFlags text).Sublist flagNames :=
  List.filter_sublist.map _

theorem mem_missingFlags (text : String) {name : String} (hn : name ∈ flagNames) :
    name ∈ missingFlags text ↔ ¬ SpeltIn text.toList name := by
  simp only [missingFlags, List.mem_map, List.mem_filter, Bool.not_eq_true']
  constructor
  · rintro ⟨f, ⟨hf, hsearch⟩, rfl⟩
    rw [← search_required hf]
    simp [hsearch]
  · intro h
    obtain ⟨f, hf, rfl⟩ := List.mem_map.mp hn
    rw [← search_required hf] at h
    exact ⟨f, ⟨hf, by simpa using h⟩, rfl⟩

end

end Check.Cookie

end SinkAudit
