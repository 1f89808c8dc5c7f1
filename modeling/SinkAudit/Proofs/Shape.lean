import Mathlib.Data.List.Forall2
import Mathlib.Data.List.Nodup
import SinkAudit.Proofs.Language
import SinkAudit.Sink.Regex

/-! # Shapes of regular expressions as forms of text

The shapes that may backtrack without bound are written as search patterns. Each of them stands for
a form that the text of a regular expression may have in some place (`ShapeForm`): what is found is
the first shape whose form occurs (`Catalog.regexShape_first_form`). -/
namespace SinkAudit

/-! ## The forms -/

/-- The form of each shape, by the shape's place in the catalog. -/
inductive ShapeForm : Nat → List Char → Prop
  /-- A group that ends with a quantifier and is followed by it. -/
  | nestedQuantifier {x : List Char} {q : Char} (hx : ')' ∉ x) (hq : q ∈ ['+', '*', '?']) :
      ShapeForm 0 ('(' :: x ++ [q, ')', q])
  /-- A group with a repetition in it that is repeated in the same way. -/
  | nestedRepetition {x y : List Char} {q : Char} (hx : ')' ∉ x) (hy : ')' ∉ y)
      (hq : q ∈ ['+', '*']) : ShapeForm 1 ('(' :: x ++ q :: y ++ [')', q])
  /-- A repeated group of alternatives. -/
  | repeatedChoice {x y : List Char} {q : Char} (hx : ')' ∉ x) (hy : ')' ∉ y)
      (hq : q ∈ ['+', '*']) : ShapeForm 2 ('(' :: x ++ '|' :: y ++ [')', q])
  | wildcards : ShapeForm 3 ['.', '*', '.', '*']
  | eagerWildcards : ShapeForm 3 ['.', '+', '+', '.', '+']
  /-- Two groups that are repeated without an upper bound. -/
  | repeatedGroups {x y z ds es : List Char} (hx : ')' ∉ x) (hy : ')' ∉ y) (hz : ')' ∉ z)
      (hd : ds ≠ [] ∧ ∀ c ∈ ds, '0' ≤ c ∧ c ≤ '9') (he : es ≠ [] ∧ ∀ c ∈ es, '0' ≤ c ∧ c ≤ '9') :
      ShapeForm 4 ('(' :: x ++ [')', '\x7b'] ++ ds ++ [',', '\x7d'] ++ y ++
        '(' :: z ++ [')', '\x7b'] ++ es ++ [',', '\x7d'])
  /-- A repeated group, with no other in it, that holds a repetition. -/
  | repeatedGroup {u v w : List Char} {q r : Char} (hu : '(' ∉ u ∧ ')' ∉ u)
      (hv : '(' ∉ v ∧ ')' ∉ v) (hw : ∀ c ∈ w, Text.isBlank c = true) (hq : q ∈ ['+', '*'])
      (hr : r ∈ ['+', '*', '\x7b']) : ShapeForm 5 ('(' :: u ++ q :: v ++ ')' :: w ++ [r])

def ShapeForm.OccursIn (k : Nat) (text : String) : Prop := ∃ w, w <:+: text.toList ∧ ShapeForm k w

/-! ## The patterns

What the shapes of the catalog are compiled to. -/

namespace Pattern
variable {w : List Char}

def groupWith (inside follow : Char) : Pattern :=
  sequence [exactly "(", others ")", exactly (.singleton inside), others ")", exactly ")",
    exactly (.singleton follow)]

def unbounded : List Pattern :=
  [exactly "(", others ")", exactly ")", exactly "\x7b", digits, exactly ",", exactly "\x7d"]

def nestedQuantifier : Pattern :=
  choice (['+', '*', '?'].map fun q =>
    sequence [exactly "(", others ")", exactly (.ofList [q, ')', q])])

def nestedRepetition : Pattern := choice (['+', '*'].map fun q => groupWith q q)

def repeatedChoice : Pattern := choice (['+', '*'].map fun q => groupWith '|' q)

def wildcards : Pattern := choice [exactly ".*.*", exactly ".++.+"]

def repeatedGroups : Pattern := sequence (unbounded ++ others ")" :: unbounded)

def repeatedGroup : Pattern :=
  sequence [exactly "(", others "()", oneOf "+*", others "()", exactly ")", blanks,
    oneOf "+*\x7b"]

/-! ## The words of the patterns -/

theorem matches_others_close : (others ")").Matches w ↔ ')' ∉ w := by
  rw [matches_others]
  simp

theorem matches_others_brackets : (others "()").Matches w ↔ '(' ∉ w ∧ ')' ∉ w := by
  rw [matches_others]
  simp

theorem matches_each {qs : List Char} (hqs : qs ≠ []) (f : Char → Pattern) :
    (choice (qs.map f)).Matches w ↔ ∃ q ∈ qs, (f q).Matches w := by
  rw [matches_choice (by simpa using hqs)]
  simp

theorem matches_groupWith (inside follow : Char) :
    (groupWith inside follow).Matches w ↔
      ∃ x y, ')' ∉ x ∧ ')' ∉ y ∧ w = '(' :: x ++ inside :: y ++ [')', follow] := by
  simp only [groupWith, matches_exactly_cons, matches_sequence_cons (others _),
    matches_others_close, matches_sequence_nil]
  constructor
  · rintro ⟨_, ⟨x, _, hx, ⟨_, ⟨y, _, hy, ⟨_, ⟨_, rfl, rfl⟩, rfl⟩, rfl⟩, rfl⟩, rfl⟩, rfl⟩
    exact ⟨x, y, hx, hy, by simp⟩
  · rintro ⟨x, y, hx, hy, rfl⟩
    exact ⟨_, ⟨x, _, hx, ⟨_, ⟨y, _, hy, ⟨_, ⟨_, rfl, rfl⟩, rfl⟩, rfl⟩, rfl⟩, rfl⟩, by simp⟩

theorem matches_unbounded (ps : List Pattern) :
    (sequence (unbounded ++ ps)).Matches w ↔
      ∃ x ds v, ')' ∉ x ∧ (ds ≠ [] ∧ ∀ c ∈ ds, '0' ≤ c ∧ c ≤ '9') ∧ (sequence ps).Matches v ∧
        w = '(' :: x ++ [')', '\x7b'] ++ ds ++ [',', '\x7d'] ++ v := by
  simp only [unbounded, List.cons_append, List.nil_append, matches_exactly_cons,
    matches_sequence_cons (others _), matches_sequence_cons digits, matches_others_close,
    matches_digits]
  constructor
  · rintro ⟨_, ⟨x, _, hx, ⟨_, ⟨_, ⟨ds, _, hd, ⟨_, ⟨v, hv, rfl⟩, rfl⟩, rfl⟩, rfl⟩, rfl⟩, rfl⟩, rfl⟩
    exact ⟨x, ds, v, hx, hd, hv, by simp⟩
  · rintro ⟨x, ds, v, hx, hd, hv, rfl⟩
    exact ⟨_, ⟨x, _, hx, ⟨_, ⟨_, ⟨ds, _, hd, ⟨_, ⟨v, hv, rfl⟩, rfl⟩, rfl⟩, rfl⟩, rfl⟩, rfl⟩,
      by simp⟩

theorem matches_nestedQuantifier : nestedQuantifier.Matches w ↔ ShapeForm 0 w := by
  simp only [nestedQuantifier, matches_each (List.cons_ne_nil _ _), matches_exactly_cons,
    matches_sequence_cons (others _), matches_others_close, matches_sequence_nil,
    String.toList_ofList]
  constructor
  · rintro ⟨q, hq, _, ⟨x, _, hx, ⟨_, rfl, rfl⟩, rfl⟩, rfl⟩
    simpa using ShapeForm.nestedQuantifier hx hq
  · intro h
    cases h with
    | nestedQuantifier hx hq => exact ⟨_, hq, _, ⟨_, _, hx, ⟨_, rfl, rfl⟩, rfl⟩, by simp⟩

theorem matches_nestedRepetition : nestedRepetition.Matches w ↔ ShapeForm 1 w := by
  simp only [nestedRepetition, matches_each (List.cons_ne_nil _ _), matches_groupWith]
  constructor
  · rintro ⟨q, hq, x, y, hx, hy, rfl⟩
    exact .nestedRepetition hx hy hq
  · intro h
    cases h with
    | nestedRepetition hx hy hq => exact ⟨_, hq, _, _, hx, hy, rfl⟩

theorem matches_repeatedChoice : repeatedChoice.Matches w ↔ ShapeForm 2 w := by
  simp only [repeatedChoice, matches_each (List.cons_ne_nil _ _), matches_groupWith]
  constructor
  · rintro ⟨q, hq, x, y, hx, hy, rfl⟩
    exact .repeatedChoice hx hy hq
  · intro h
    cases h with
    | repeatedChoice hx hy hq => exact ⟨_, hq, _, _, hx, hy, rfl⟩

theorem matches_wildcards : wildcards.Matches w ↔ ShapeForm 3 w := by
  simp only [wildcards, choice, Matches, matches_exactly]
  constructor
  · rintro (rfl | rfl)
    · exact .wildcards
    · exact .eagerWildcards
  · intro h
    cases h with
    | wildcards => exact .inl rfl
    | eagerWildcards => exact .inr rfl

theorem matches_repeatedGroups : repeatedGroups.Matches w ↔ ShapeForm 4 w := by
  -- The second group ends the sequence, with nothing after it.
  have hlast : sequence (unbounded ++ others ")" :: unbounded) =
      sequence (unbounded ++ others ")" :: (unbounded ++ [])) := by
    rw [List.append_nil]
  simp only [repeatedGroups, hlast, matches_unbounded, matches_sequence_cons (others _),
    matches_others_close, matches_sequence_nil]
  constructor
  · rintro ⟨x, ds, _, hx, hd, ⟨y, _, hy, ⟨z, es, _, hz, he, rfl, rfl⟩, rfl⟩, rfl⟩
    simpa using ShapeForm.repeatedGroups hx hy hz hd he
  · intro h
    cases h with
    | repeatedGroups hx hy hz hd he =>
      exact ⟨_, _, _, hx, hd, ⟨_, _, hy, ⟨_, _, _, hz, he, rfl, rfl⟩, rfl⟩, by simp⟩

theorem matches_repeatedGroup : repeatedGroup.Matches w ↔ ShapeForm 5 w := by
  simp only [repeatedGroup, matches_exactly_cons, matches_sequence_cons (others _),
    matches_sequence_cons (oneOf _), matches_sequence_cons blanks, matches_others_brackets,
    matches_oneOf, matches_blanks, matches_sequence_nil]
  constructor
  · rintro ⟨_, ⟨u, _, hu, ⟨_, _, ⟨q, hq, rfl⟩, ⟨v, _, hv, ⟨_, ⟨b, _, hb, ⟨_, _, ⟨r, hr, rfl⟩, rfl,
      rfl⟩, rfl⟩, rfl⟩, rfl⟩, rfl⟩, rfl⟩, rfl⟩
    simpa using ShapeForm.repeatedGroup hu hv hb hq hr
  · intro h
    cases h with
    | repeatedGroup hu hv hb hq hr =>
      exact ⟨_, ⟨_, _, hu, ⟨_, _, ⟨_, hq, rfl⟩, ⟨_, _, hv, ⟨_, ⟨_, _, hb, ⟨_, _, ⟨_, hr, rfl⟩, rfl,
        rfl⟩, rfl⟩, rfl⟩, rfl⟩, rfl⟩, rfl⟩, by simp⟩

end Pattern

/-! ## The catalog -/

/-- A sink recognises the texts in which the form of a shape occurs, and no others. -/
def SinkPattern.Describes (k : Nat) (p : SinkPattern) : Prop :=
  ∀ text, p.recognises text = true ↔ ShapeForm.OccursIn k text

theorem describes_of_compiled {k : Nat} {p : SinkPattern} {q : Pattern}
    (hkind : p.matchKind = .search)
    (hcompiled : (Pattern.compileFolded p.matcher).toOption = some q)
    (hplain : q.isPlain = true) (hwords : ∀ w, q.Matches w ↔ ShapeForm k w) : p.Describes k := by
  intro text
  cases hc : Pattern.compileFolded p.matcher with
  | error e => simp [hc, Except.toOption] at hcompiled
  | ok q' =>
    obtain rfl : q' = q := by simpa [hc, Except.toOption] using hcompiled
    rw [SinkPattern.recognises, hkind]
    simp only [hc, Pattern.search_iff hplain, hwords, ShapeForm.OccursIn]

namespace Catalog

theorem regexShape_describes :
    List.Forall₂ (fun k p => SinkPattern.Describes k p) (List.range 6) regexShape := by
  refine .cons ?_ (.cons ?_ (.cons ?_ (.cons ?_ (.cons ?_ (.cons ?_ .nil)))))
  · exact describes_of_compiled (q := .nestedQuantifier) rfl (by decide +kernel) (by decide)
      fun _ => Pattern.matches_nestedQuantifier
  · exact describes_of_compiled (q := .nestedRepetition) rfl (by decide +kernel) (by decide)
      fun _ => Pattern.matches_nestedRepetition
  · exact describes_of_compiled (q := .repeatedChoice) rfl (by decide +kernel) (by decide)
      fun _ => Pattern.matches_repeatedChoice
  · exact describes_of_compiled (q := .wildcards) rfl (by decide +kernel) (by decide)
      fun _ => Pattern.matches_wildcards
  · exact describes_of_compiled (q := .repeatedGroups) rfl (by decide +kernel) (by decide)
      fun _ => Pattern.matches_repeatedGroups
  · exact describes_of_compiled (q := .repeatedGroup) rfl (by decide +kernel) (by decide)
      fun _ => Pattern.matches_repeatedGroup

theorem describes_getElem {k : Nat} (hk : k < regexShape.length) : regexShape[k].Describes k := by
  have h := regexShape_describes.get (List.length_range.symm ▸ hk) hk
  simpa using h

theorem regexShape_nodup : regexShape.Nodup :=
  List.Nodup.of_map SinkPattern.label (by decide)

variable {b : String}

theorem regexShape_eq_getElem?_iff {k : Nat} (hk : k < 6) :
    regexShape.sink? b = regexShape[k]? ↔
      ShapeForm.OccursIn k b ∧ ∀ j < k, ¬ ShapeForm.OccursIn j b := by
  have hlen {j : Nat} (hj : j < 6) : j < regexShape.length := hj
  have hmissed (j : Nat) (hj : j < regexShape.length) :
      (!regexShape[j].recognises b) = true ↔ ¬ ShapeForm.OccursIn j b := by
    rw [Bool.not_eq_true', Bool.eq_false_iff, ne_eq, describes_getElem hj b]
  rw [List.getElem?_eq_getElem (hlen hk), sink?, List.find?_eq_some_iff_getElem,
    describes_getElem (hlen hk) b]
  refine and_congr_right fun _ => ?_
  constructor
  · rintro ⟨i, hi, heq, hbefore⟩ j hj
    obtain rfl : i = k := regexShape_nodup.getElem_inj_iff.mp heq
    exact (hmissed j (hlen (by omega))).mp (hbefore j hj)
  · intro hbefore
    refine ⟨k, hlen hk, rfl, ?_⟩
    intro j hj
    exact (hmissed j (hlen (by omega))).mpr (hbefore j hj)

theorem regexShape_eq_none_iff :
    regexShape.sink? b = none ↔ ∀ k < 6, ¬ ShapeForm.OccursIn k b := by
  rw [sink?, List.find?_eq_none]
  constructor
  · intro h k hk hoccurs
    exact h _ (List.getElem_mem (l := regexShape) hk) ((describes_getElem hk b).mpr hoccurs)
  · intro h p hp hrecognised
    obtain ⟨k, hk, rfl⟩ := List.getElem_of_mem hp
    exact h k hk ((describes_getElem hk b).mp hrecognised)

end Catalog

/-- All forms but that of wildcards begin with a group. -/
theorem ShapeForm.opens {k : Nat} {w : List Char} (h : ShapeForm k w) (hk : k ≠ 3) : '(' ∈ w := by
  cases h <;> simp_all

theorem ShapeForm.not_occursIn_of_flat {k : Nat} {b : String} (hb : '(' ∉ b.toList) (hk : k ≠ 3) :
    ¬ ShapeForm.OccursIn k b := by
  rintro ⟨w, hw, hform⟩
  exact hb (hw.subset (hform.opens hk))

/-- The shape of a text is the first one whose form occurs in it. A group without further groups
that holds a repetition and is repeated always has a shape, and a text without groups has one only
by its wildcards. -/
theorem Catalog.regexShape_first_form (b : String) :
    (∀ k < 6, Catalog.regexShape.sink? b = Catalog.regexShape[k]? ↔
      ShapeForm.OccursIn k b ∧ ∀ j < k, ¬ ShapeForm.OccursIn j b) ∧
    (Catalog.regexShape.sink? b = none ↔ ∀ k < 6, ¬ ShapeForm.OccursIn k b) ∧
    (∀ u v : List Char, ∀ q ∈ ['+', '*'], ∀ r ∈ ['+', '*', '\x7b'],
      '(' ∉ u ++ v → ')' ∉ u ++ v → '(' :: u ++ q :: v ++ [')', r] <:+: b.toList →
        (Catalog.regexShape.sink? b).isSome = true) ∧
    ('(' ∉ b.toList → Catalog.regexShape.sink? b = none ∨
      Catalog.regexShape.sink? b = Catalog.regexShape[3]? ∧ ShapeForm.OccursIn 3 b) := by
  refine ⟨fun k hk => Catalog.regexShape_eq_getElem?_iff hk, Catalog.regexShape_eq_none_iff, ?_, ?_⟩
  · intro u v q hq r hr hopen hclose hgroup
    have hform : ShapeForm 5 ('(' :: u ++ q :: v ++ [')', r]) := by
      simp only [List.mem_append, not_or] at hopen hclose
      simpa using ShapeForm.repeatedGroup (w := []) ⟨hopen.1, hclose.1⟩ ⟨hopen.2, hclose.2⟩
        (by simp) hq hr
    rw [Option.isSome_iff_ne_none]
    intro hnone
    exact Catalog.regexShape_eq_none_iff.mp hnone 5 (by decide) ⟨_, hgroup, hform⟩
  · intro hflat
    by_cases hwild : ShapeForm.OccursIn 3 b
    · have hbefore : ∀ j < 3, ¬ ShapeForm.OccursIn j b := fun j hj =>
        ShapeForm.not_occursIn_of_flat hflat (by omega)
      exact .inr ⟨(Catalog.regexShape_eq_getElem?_iff (by decide)).mpr ⟨hwild, hbefore⟩, hwild⟩
    · refine .inl (Catalog.regexShape_eq_none_iff.mpr ?_)
      intro k _
      by_cases hk : k = 3
      · exact hk ▸ hwild
      · exact ShapeForm.not_occursIn_of_flat hflat hk

theorem Catalog.regexShape_first_form_group :
    ShapeForm.OccursIn 5 "x(a+b)*" ∧ (∀ j < 5, ¬ ShapeForm.OccursIn j "x(a+b)*") ∧
    (Catalog.regexShape.sink? "x(a+b)*").isSome = true ∧
    Catalog.regexShape.sink? "a.*.*" = Catalog.regexShape[3]? ∧ ShapeForm.OccursIn 3 "a.*.*" := by
  obtain ⟨hfirst, -, hgroup, -⟩ := Catalog.regexShape_first_form "x(a+b)*"
  obtain ⟨-, hnone, -, hflat⟩ := Catalog.regexShape_first_form "a.*.*"
  have hshape := (hfirst 5 (by decide)).mp (by decide +kernel)
  have hwild : ShapeForm.OccursIn 3 "a.*.*" := ⟨_, ⟨['a'], [], rfl⟩, .wildcards⟩
  have hsome := (hflat (by decide)).resolve_left fun h => hnone.mp h 3 (by decide) hwild
  exact ⟨hshape.1, hshape.2, hgroup ['a'] ['b'] '+' (by decide) '*' (by decide) (by decide)
    (by decide) ⟨['x'], [], by decide⟩, hsome⟩

end SinkAudit
