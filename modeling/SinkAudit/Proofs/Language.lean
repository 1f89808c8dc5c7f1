import SinkAudit.Pattern.Reader
import SinkAudit.Pattern.Matcher

/-! # The words of a pattern

Patterns that are made of sets, sequences, alternatives and greedy repetitions have a language: the
words that they describe (`Matches`). The matcher backtracks, so it misses none of them: it succeeds
exactly if some word of the language comes next and what follows succeeds after that word
(`Pattern.exact_of_isPlain`). A search finds such a pattern exactly if a word of it occurs in the
text (`Pattern.search_iff`). -/
namespace SinkAudit

namespace Cursor

def pass (s : Cursor) (w rest : List Char) : Cursor :=
  { s with before := w.reverse ++ s.before, after := rest, position := s.position + w.length }

@[simp] theorem pass_after (s : Cursor) (w rest : List Char) : (s.pass w rest).after = rest := rfl

@[simp] theorem pass_nil (s : Cursor) : s.pass [] s.after = s := rfl

@[simp] theorem pass_pass (s : Cursor) (v w rest rest' : List Char) :
    (s.pass v rest).pass w rest' = s.pass (v ++ w) rest' := by
  simp [pass, Nat.add_assoc]

theorem position_pass (s : Cursor) (w rest : List Char) :
    (s.pass w rest).position = s.position ↔ w = [] := by
  simp [pass]

/-- Some word of a language comes next, and what follows succeeds after it. -/
def Continues (s : Cursor) (L : List Char → Prop) (k : Cursor → Option Cursor) : Prop :=
  ∃ w rest, s.after = w ++ rest ∧ L w ∧ (k (s.pass w rest)).isSome = true

end Cursor

/-- A way to match tries the words of a language and no others. -/
def Run.Accepts (run : Run) (L : List Char → Prop) : Prop :=
  ∀ s k, (run s k).isSome = true ↔ s.Continues L k

/-! ## Repetition -/

/-- Words that a repetition may go through from a given round on. -/
structure Rounds (L : List Char → Prop) (least : Nat) (most : Option Nat) (count : Nat)
    (ws : List (List Char)) : Prop where
  enough : least ≤ count + ws.length
  within : ∀ n ∈ most, count + ws.length ≤ n
  words : ∀ u ∈ ws, L u

section
variable {L : List Char → Prop} {body : Run} {least count fuel : Nat} {most : Option Nat}
  {k : Cursor → Option Cursor} {s : Cursor} {u rest : List Char} {ws : List (List Char)}

theorem Rounds.cons (h : Rounds L least most (count + 1) ws) (hu : L u) :
    Rounds L least most count (u :: ws) := by
  obtain ⟨henough, hwithin, hwords⟩ := h
  have hlen : count + (u :: ws).length = count + 1 + ws.length := by
    rw [List.length_cons]
    omega
  refine ⟨hlen ▸ henough, hlen ▸ hwithin, ?_⟩
  intro v hv
  rcases List.mem_cons.mp hv with rfl | hv
  · exact hu
  · exact hwords v hv

theorem Rounds.tail (h : Rounds L least most count (u :: ws)) :
    Rounds L least most (count + 1) ws := by
  obtain ⟨henough, hwithin, hwords⟩ := h
  have hlen : count + (u :: ws).length = count + 1 + ws.length := by
    rw [List.length_cons]
    omega
  exact ⟨hlen ▸ henough, hlen ▸ hwithin, fun v hv => hwords v (List.mem_cons_of_mem u hv)⟩

/-- Once there are rounds enough, those that consume nothing can be left out. -/
theorem Rounds.filter (h : Rounds L least most count ws) (hl : least ≤ count) :
    Rounds L least most count (ws.filter fun u => !u.isEmpty) := by
  have hle := List.length_filter_le (fun u : List Char => !u.isEmpty) ws
  refine ⟨by omega, ?_, fun v hv => h.words v (List.mem_filter.mp hv).1⟩
  intro n hn
  have := h.within n hn
  omega

theorem mayRepeat_iff : Pattern.mayRepeat most count = true ↔ ∀ n ∈ most, count < n := by
  cases most with
  | none => simp [Pattern.mayRepeat]
  | some n => simp [Pattern.mayRepeat]

/-- What one round of a repetition does: it goes through a word, which is not empty unless a round
is due, or it goes on to what follows. -/
theorem repeatGreedy_step (hb : body.Accepts L) :
    (repeatGreedy body least most k (fuel + 1) count s).isSome = true ↔
      (∃ u rest, s.after = u ++ rest ∧ L u ∧
        (count < least ∨ u ≠ [] ∧ Pattern.mayRepeat most count = true) ∧
        (repeatGreedy body least most k fuel (count + 1) (s.pass u rest)).isSome = true) ∨
      least ≤ count ∧ (k s).isSome = true := by
  rw [repeatGreedy]
  by_cases hcount : count < least
  · rw [if_pos hcount, hb s]
    constructor
    · rintro ⟨u, rest, hs, hu, h⟩
      exact .inl ⟨u, rest, hs, hu, .inl hcount, h⟩
    · rintro (⟨u, rest, hs, hu, _, h⟩ | ⟨hle, _⟩)
      · exact ⟨u, rest, hs, hu, h⟩
      · omega
  · rw [if_neg hcount]
    by_cases hmay : Pattern.mayRepeat most count = true
    · rw [if_pos hmay]
      obtain ⟨next, hdef⟩ : ∃ next, next = fun t : Cursor =>
        if t.position == s.position then k t
        else repeatGreedy body least most k fuel (count + 1) t := ⟨_, rfl⟩
      have hnext (u rest : List Char) (hu : u ≠ []) : next (s.pass u rest) =
          repeatGreedy body least most k fuel (count + 1) (s.pass u rest) := by
        have hpos : ¬ ((s.pass u rest).position == s.position) = true := by
          simpa [Cursor.position_pass] using hu
        rw [hdef]
        exact if_neg hpos
      have hstay : next s = k s := by
        rw [hdef]
        exact if_pos (by simp)
      have hbody := hb s next
      rw [← hdef]
      generalize body s next = x at hbody
      constructor
      · intro h
        cases x with
        | none => exact .inr ⟨by omega, h⟩
        | some r =>
          obtain ⟨u, rest, hs, hu, h⟩ := hbody.mp rfl
          by_cases hne : u = []
          · subst hne
            obtain rfl : s.after = rest := hs
            rw [Cursor.pass_nil, hstay] at h
            exact .inr ⟨by omega, h⟩
          · rw [hnext u rest hne] at h
            exact .inl ⟨u, rest, hs, hu, .inr ⟨hne, hmay⟩, h⟩
      · intro h
        cases x with
        | some r => rfl
        | none =>
          rcases h with ⟨u, rest, hs, hu, hdue | ⟨hne, _⟩, h⟩ | ⟨_, h⟩
          · exact absurd hdue hcount
          · rw [← hnext u rest hne] at h
            exact absurd (hbody.mpr ⟨u, rest, hs, hu, h⟩) (by simp)
          · exact h
    · rw [if_neg hmay]
      constructor
      · intro h
        exact .inr ⟨by omega, h⟩
      · rintro (⟨_, _, _, _, hdue | ⟨_, h⟩, _⟩ | ⟨_, h⟩)
        · exact absurd hdue hcount
        · exact absurd h hmay
        · exact h

/-- What a repetition finds is made of words of its body. -/
theorem rounds_of_repeatGreedy (hb : body.Accepts L) (hl : ∀ n ∈ most, least ≤ n)
    (hc : ∀ n ∈ most, count ≤ n)
    (h : (repeatGreedy body least most k fuel count s).isSome = true) :
    ∃ ws rest, s.after = ws.flatten ++ rest ∧ Rounds L least most count ws ∧
      (k (s.pass ws.flatten rest)).isSome = true := by
  induction fuel generalizing count s with
  | zero => cases h
  | succ fuel ih =>
    rcases (repeatGreedy_step hb).mp h with ⟨u, rest, hs, hu, hdue, h⟩ | ⟨hle, h⟩
    · have hc' : ∀ n ∈ most, count + 1 ≤ n := by
        intro n hn
        rcases hdue with hlt | ⟨_, hmay⟩
        · have := hl n hn
          omega
        · exact mayRepeat_iff.mp hmay n hn
      obtain ⟨ws, rest', hrest, hws, hk⟩ := ih hc' h
      rw [Cursor.pass_after] at hrest
      rw [Cursor.pass_pass] at hk
      refine ⟨u :: ws, rest', ?_, hws.cons hu, hk⟩
      rw [hs, hrest, List.flatten_cons, List.append_assoc]
    · exact ⟨[], s.after, rfl, ⟨by simpa using hle, by simpa using hc, by simp⟩, h⟩

/-- A repetition finds whatever is made of words of its body, if it is given rounds enough. -/
theorem repeatGreedy_of_rounds (hb : body.Accepts L)
    (hfuel : (least - count) + s.after.length < fuel) (hws : Rounds L least most count ws)
    (hs : s.after = ws.flatten ++ rest) (hk : (k (s.pass ws.flatten rest)).isSome = true) :
    (repeatGreedy body least most k fuel count s).isSome = true := by
  induction fuel generalizing count s ws with
  | zero => omega
  | succ fuel ih =>
    have hround (u : List Char) (ws : List (List Char)) (hws : Rounds L least most count (u :: ws))
        (hs : s.after = (u :: ws).flatten ++ rest)
        (hk : (k (s.pass (u :: ws).flatten rest)).isSome = true)
        (hdue : count < least ∨ u ≠ [] ∧ Pattern.mayRepeat most count = true) :
        (repeatGreedy body least most k (fuel + 1) count s).isSome = true := by
      rw [List.flatten_cons, List.append_assoc] at hs
      have hlen : s.after.length = u.length + (ws.flatten ++ rest).length := by
        rw [hs, List.length_append]
      have hless : least - (count + 1) + (ws.flatten ++ rest).length < fuel := by
        rcases hdue with hlt | ⟨hne, _⟩
        · omega
        · have := List.length_pos_iff.mpr hne
          omega
      refine (repeatGreedy_step hb).mpr (.inl ⟨u, ws.flatten ++ rest, hs, ?_, hdue, ?_⟩)
      · exact hws.words u (by simp)
      · refine ih hless hws.tail rfl ?_
        rwa [Cursor.pass_pass]
    by_cases hcount : count < least
    · cases ws with
      | nil =>
        have := hws.enough
        rw [List.length_nil] at this
        omega
      | cons u ws => exact hround u ws hws hs hk (.inl hcount)
    · have hle : least ≤ count := by omega
      -- rounds that consume nothing are not made
      rw [← List.flatten_filter_not_isEmpty] at hs hk
      have hws' := hws.filter hle
      have hsolid : ∀ u ∈ ws.filter fun u => !u.isEmpty, u ≠ [] := by
        intro u hu
        simpa using (List.mem_filter.mp hu).2
      generalize (ws.filter fun u => !u.isEmpty) = ws' at hs hk hws' hsolid
      cases ws' with
      | nil =>
        obtain rfl : s.after = rest := hs
        exact (repeatGreedy_step hb).mpr (.inr ⟨hle, hk⟩)
      | cons u ws' =>
        have hmay : Pattern.mayRepeat most count = true := by
          refine mayRepeat_iff.mpr fun n hn => ?_
          have := hws'.within n hn
          rw [List.length_cons] at this
          omega
        exact hround u ws' hws' hs hk (.inr ⟨hsolid u (by simp), hmay⟩)

end

/-! ## Languages -/

namespace Pattern

def isPlain : Pattern → Bool
  | .empty => true
  | .one _ => true
  | .seq first second => first.isPlain && second.isPlain
  | .alt first second => first.isPlain && second.isPlain
  | .rep least most .greedy body => most.all (least ≤ ·) && body.isPlain
  | _ => false

/-- The words that a plain pattern describes. -/
def Matches : Pattern → List Char → Prop
  | .empty, w => w = []
  | .one set, w => ∃ c, set.accepts c = true ∧ w = [c]
  | .seq first second, w => ∃ u v, first.Matches u ∧ second.Matches v ∧ w = u ++ v
  | .alt first second, w => first.Matches w ∨ second.Matches w
  | .rep least most _ body, w =>
    ∃ ws : List (List Char), least ≤ ws.length ∧ (∀ n ∈ most, ws.length ≤ n) ∧
      (∀ u ∈ ws, body.Matches u) ∧ w = ws.flatten
  | _, _ => False

def Exact (p : Pattern) : Prop := Run.Accepts p.run p.Matches

variable {p q : Pattern}

theorem exact_empty : Exact .empty := by
  intro s k
  constructor
  · intro h
    exact ⟨[], s.after, rfl, rfl, h⟩
  · rintro ⟨w, rest, hs, rfl, h⟩
    obtain rfl : s.after = rest := hs
    exact h

theorem exact_one (set : CharSet) : Exact (.one set) := by
  intro s k
  rw [run]
  constructor
  · intro h
    split at h
    · rename_i c rest hs
      split at h
      · rename_i hc
        exact ⟨[c], rest, hs, ⟨c, hc, rfl⟩, h⟩
      · cases h
    · cases h
  · rintro ⟨w, rest, hs, ⟨c, hc, rfl⟩, h⟩
    simp only [hs, List.cons_append, List.nil_append, hc, if_true]
    exact h

theorem Exact.seq (hp : p.Exact) (hq : q.Exact) : Exact (.seq p q) := by
  intro s k
  show (p.run s fun t => q.run t k).isSome = true ↔ _
  rw [hp s]
  constructor
  · rintro ⟨u, rest, hs, hu, h⟩
    obtain ⟨v, rest', hrest, hv, h⟩ := (hq _ k).mp h
    rw [Cursor.pass_after] at hrest
    rw [Cursor.pass_pass] at h
    exact ⟨u ++ v, rest', by rw [hs, hrest, List.append_assoc], ⟨u, v, hu, hv, rfl⟩, h⟩
  · rintro ⟨_, rest, hs, ⟨u, v, hu, hv, rfl⟩, h⟩
    refine ⟨u, v ++ rest, by rw [hs, List.append_assoc], hu, ?_⟩
    exact (hq _ k).mpr ⟨v, rest, rfl, hv, by rwa [Cursor.pass_pass]⟩

theorem Exact.alt (hp : p.Exact) (hq : q.Exact) : Exact (.alt p q) := by
  intro s k
  have hcases : ((Pattern.alt p q).run s k).isSome = true ↔
      (p.run s k).isSome = true ∨ (q.run s k).isSome = true := by
    rw [run]
    cases p.run s k with
    | none => simp
    | some r => simp
  rw [hcases, hp s k, hq s k]
  constructor
  · rintro (⟨w, rest, hs, hw, h⟩ | ⟨w, rest, hs, hw, h⟩)
    · exact ⟨w, rest, hs, .inl hw, h⟩
    · exact ⟨w, rest, hs, .inr hw, h⟩
  · rintro ⟨w, rest, hs, hw | hw, h⟩
    · exact .inl ⟨w, rest, hs, hw, h⟩
    · exact .inr ⟨w, rest, hs, hw, h⟩

theorem Exact.rep {least : Nat} {most : Option Nat} (hp : p.Exact) (hl : ∀ n ∈ most, least ≤ n) :
    Exact (.rep least most .greedy p) := by
  intro s k
  show (repeatGreedy p.run least most k (repeatFuel least s) 0 s).isSome = true ↔ _
  constructor
  · intro h
    obtain ⟨ws, rest, hs, hws, hk⟩ := rounds_of_repeatGreedy hp hl (by simp) h
    have henough := hws.enough
    have hwithin := hws.within
    simp only [Nat.zero_add] at henough hwithin
    exact ⟨ws.flatten, rest, hs, ⟨ws, henough, hwithin, hws.words, rfl⟩, hk⟩
  · rintro ⟨_, rest, hs, ⟨ws, henough, hwithin, hwords, rfl⟩, hk⟩
    have hfuel : (least - 0) + s.after.length < repeatFuel least s := by
      unfold repeatFuel
      omega
    exact repeatGreedy_of_rounds hp hfuel ⟨by simpa using henough, by simpa using hwithin, hwords⟩
      hs hk

theorem exact_of_isPlain (hp : p.isPlain = true) : p.Exact := by
  induction p with
  | empty => exact exact_empty
  | one set => exact exact_one set
  | seq p q ihp ihq =>
    obtain ⟨hp, hq⟩ := Bool.and_eq_true_iff.mp hp
    exact (ihp hp).seq (ihq hq)
  | alt p q ihp ihq =>
    obtain ⟨hp, hq⟩ := Bool.and_eq_true_iff.mp hp
    exact (ihp hp).alt (ihq hq)
  | rep least most greed body ih =>
    cases greed with
    | greedy =>
      obtain ⟨hl, hp⟩ := Bool.and_eq_true_iff.mp hp
      exact (ih hp).rep (by simpa [Option.all_eq_true] using hl)
    | lazy => cases hp
    | possessive => cases hp
  | _ => cases hp

/-! ## Sequences -/

theorem run_sequence_append (ps qs : List Pattern) (s : Cursor) (k : Cursor → Option Cursor) :
    (sequence (ps ++ qs)).run s k = (sequence ps).run s fun t => (sequence qs).run t k := by
  induction ps generalizing s with
  | nil => rfl
  | cons p ps ih =>
    have hcons (rs : List Pattern) (k : Cursor → Option Cursor) :
        (sequence (p :: rs)).run s k = p.run s fun t => (sequence rs).run t k := by
      cases rs with
      | nil => rfl
      | cons r rs => rfl
    rw [List.cons_append, hcons, hcons]
    congr 1
    funext t
    exact ih t

theorem isPlain_sequence {ps : List Pattern} (h : ∀ p ∈ ps, p.isPlain = true) :
    (sequence ps).isPlain = true := by
  induction ps with
  | nil => rfl
  | cons p ps ih =>
    have hrest := ih fun q hq => h q (List.mem_cons_of_mem p hq)
    cases ps with
    | nil => exact h p (by simp)
    | cons q qs => exact Bool.and_eq_true_iff.mpr ⟨h p (by simp), hrest⟩

theorem isPlain_literal (flags : Flags) (code : Nat) : (literal flags code).isPlain = true := by
  unfold literal
  repeat' split
  all_goals rfl

theorem isPlain_exactly (s : String) : (exactly s).isPlain = true := by
  refine isPlain_sequence fun p hp => ?_
  obtain ⟨c, _, rfl⟩ := List.mem_map.mp hp
  exact isPlain_literal {} c.toNat

theorem isPlain_anyCase (s : String) : (anyCase s).isPlain = true := by
  refine isPlain_sequence fun p hp => ?_
  obtain ⟨c, _, rfl⟩ := List.mem_map.mp hp
  exact isPlain_literal _ c.toNat

/-- An edge is where a word begins or ends, and nothing is consumed. -/
theorem run_edge (s : Cursor) (k : Cursor → Option Cursor) :
    (edge.run s k).isSome = true ↔ s.atBoundary false = true ∧ (k s).isSome = true := by
  have hempty : s.isEmptyText = true → s.atBoundary false = false := by
    intro h
    obtain ⟨hb, ha⟩ := Bool.and_eq_true_iff.mp h
    rw [List.isEmpty_iff] at hb ha
    rw [Cursor.atBoundary, hb, ha]
    rfl
  rw [edge, run, Anchor.holds]
  cases he : s.isEmptyText with
  | true => simp [hempty he]
  | false => cases s.atBoundary false <;> simp

/-! ## Searching -/

theorem run_some_isSome_iff (hp : p.isPlain = true) (s : Cursor) :
    (p.run s some).isSome = true ↔ ∃ w, w <+: s.after ∧ p.Matches w := by
  rw [exact_of_isPlain hp s]
  constructor
  · rintro ⟨w, rest, hs, hw, _⟩
    exact ⟨w, ⟨rest, hs.symm⟩, hw⟩
  · rintro ⟨w, ⟨rest, hs⟩, hw⟩
    exact ⟨w, rest, hs.symm, hw, rfl⟩

/-- A search finds a pattern exactly if it matches at some place of the text. -/
theorem searchFrom_isSome_iff_run {text : List Char} {s : Cursor} (hs : s.after = text) :
    (p.searchFrom text s).isSome = true ↔
      ∃ u v, text = u ++ v ∧ (p.run (s.pass u v) some).isSome = true := by
  have hhere : s.pass [] text = s := by rw [← hs, Cursor.pass_nil]
  induction text generalizing s with
  | nil =>
    rw [searchFrom]
    constructor
    · intro h
      exact ⟨[], [], rfl, by rwa [hhere]⟩
    · rintro ⟨u, v, huv, h⟩
      obtain ⟨rfl, rfl⟩ := List.append_eq_nil_iff.mp huv.symm
      rwa [hhere] at h
  | cons c rest ih =>
    have hthere (u v : List Char) : (s.advance c rest).pass u v = s.pass (c :: u) v := by
      simp [Cursor.pass, Cursor.advance, Nat.add_comm, Nat.add_left_comm]
    have hrest := ih (s := s.advance c rest) rfl rfl
    rw [searchFrom]
    constructor
    · intro h
      cases hrun : p.run s some with
      | some t => exact ⟨[], c :: rest, rfl, by rw [hhere, hrun]; rfl⟩
      | none =>
        rw [hrun] at h
        obtain ⟨u, v, rfl, h⟩ := hrest.mp h
        exact ⟨c :: u, v, rfl, by rwa [← hthere]⟩
    · rintro ⟨u, v, huv, h⟩
      cases hrun : p.run s some with
      | some t => rfl
      | none =>
        cases u with
        | nil =>
          obtain rfl : c :: rest = v := huv
          rw [hhere, hrun] at h
          cases h
        | cons d u =>
          obtain ⟨rfl, rfl⟩ := List.cons.inj huv
          exact hrest.mpr ⟨u, v, rfl, by rwa [hthere]⟩

/-- Behind the cursor a word of the pattern occurs. -/
theorem searchFrom_isSome_iff (hp : p.isPlain = true) {text : List Char} {s : Cursor}
    (hs : s.after = text) :
    (p.searchFrom text s).isSome = true ↔ ∃ w, w <:+: text ∧ p.Matches w := by
  rw [searchFrom_isSome_iff_run hs]
  constructor
  · rintro ⟨u, v, rfl, h⟩
    obtain ⟨w, ⟨rest, hrest⟩, hw⟩ := (run_some_isSome_iff hp _).mp h
    rw [Cursor.pass_after] at hrest
    exact ⟨w, ⟨u, rest, by rw [List.append_assoc, hrest]⟩, hw⟩
  · rintro ⟨w, ⟨u, rest, rfl⟩, hw⟩
    refine ⟨u, w ++ rest, List.append_assoc u w rest, ?_⟩
    exact (run_some_isSome_iff hp _).mpr ⟨w, ⟨rest, rfl⟩, hw⟩

theorem search_iff_run (text : String) : p.search text = true ↔ ∃ u v, text.toList = u ++ v ∧
    (p.run ((Cursor.atStart text.toList).pass u v) some).isSome = true :=
  searchFrom_isSome_iff_run (s := .atStart text.toList) rfl

/-- A search finds a plain pattern exactly if the text holds one of its words. -/
theorem search_iff (hp : p.isPlain = true) (text : String) :
    p.search text = true ↔ ∃ w, w <:+: text.toList ∧ p.Matches w :=
  searchFrom_isSome_iff hp (s := .atStart text.toList) rfl

/-! ## The words of what patterns are built from -/

variable {w : List Char}

theorem matches_sequence_nil : (sequence []).Matches w ↔ w = [] := Iff.rfl

theorem matches_sequence_cons (p : Pattern) (ps : List Pattern) :
    (sequence (p :: ps)).Matches w ↔
      ∃ u v, p.Matches u ∧ (sequence ps).Matches v ∧ w = u ++ v := by
  cases ps with
  | nil =>
    constructor
    · intro h
      exact ⟨w, [], h, rfl, (List.append_nil w).symm⟩
    · rintro ⟨u, v, hu, rfl, rfl⟩
      rwa [List.append_nil]
  | cons q qs => rfl

theorem matches_choice {ps : List Pattern} (hps : ps ≠ []) :
    (choice ps).Matches w ↔ ∃ p ∈ ps, p.Matches w := by
  induction ps with
  | nil => exact absurd rfl hps
  | cons p ps ih =>
    cases ps with
    | nil => simp [choice]
    | cons q qs =>
      show p.Matches w ∨ (choice (q :: qs)).Matches w ↔ _
      rw [ih (List.cons_ne_nil q qs)]
      simp only [List.mem_cons, exists_eq_or_imp]

/-- The set of the characters of a text, or of all others. -/
theorem accepts_chars (s : List Char) (c : Char) (negated : Bool) :
    CharSet.accepts { items := s.map fun d => .char d.toNat, negated } c =
      (s.contains c != negated) := by
  have hits : (s.map fun d => SetItem.char d.toNat).any (·.accepts c) = s.contains c := by
    rw [List.any_map, List.contains_eq_any_beq]
    congr 1
    funext d
    rw [Bool.eq_iff_iff, Function.comp_apply, SetItem.accepts, beq_iff_eq, beq_iff_eq,
      Char.toNat_inj]
  rw [CharSet.accepts, CharSet.hits]
  exact congrArg (· != negated) hits

theorem setOf_chars (s : List Char) (negated : Bool) :
    setOf {} (s.map fun c => .char c.toNat) negated =
      .one { items := s.map fun c => .char c.toNat, negated } := by
  unfold setOf
  split
  · rename_i code h
    rw [h]
    rfl
  · rfl

theorem matches_one_chars (s : List Char) :
    (one { items := s.map fun c => .char c.toNat }).Matches w ↔ ∃ c ∈ s, w = [c] := by
  show (∃ c, CharSet.accepts { items := s.map fun c => .char c.toNat } c = true ∧ w = [c]) ↔ _
  simp only [accepts_chars, Bool.bne_false, List.contains_iff_mem]

theorem matches_exactly (s : String) : (exactly s).Matches w ↔ w = s.toList := by
  rw [exactly]
  induction s.toList generalizing w with
  | nil => exact Iff.rfl
  | cons c cs ih =>
    have hliteral (u : List Char) : (literal {} c.toNat).Matches u ↔ u = [c] := by
      refine (matches_one_chars [c]).trans ?_
      simp
    rw [List.map_cons, matches_sequence_cons]
    simp only [hliteral, ih]
    constructor
    · rintro ⟨_, _, rfl, rfl, rfl⟩
      rfl
    · rintro rfl
      exact ⟨[c], cs, rfl, rfl, rfl⟩

/-- A text, and then the rest of a sequence. -/
theorem matches_exactly_cons (s : String) (ps : List Pattern) :
    (sequence (exactly s :: ps)).Matches w ↔
      ∃ v, (sequence ps).Matches v ∧ w = s.toList ++ v := by
  simp only [matches_sequence_cons, matches_exactly]
  constructor
  · rintro ⟨_, v, rfl, hv, rfl⟩
    exact ⟨v, hv, rfl⟩
  · rintro ⟨v, hv, rfl⟩
    exact ⟨_, v, rfl, hv, rfl⟩

theorem matches_oneOf (s : String) : (oneOf s).Matches w ↔ ∃ c ∈ s.toList, w = [c] := by
  rw [oneOf, setOf_chars]
  exact matches_one_chars s.toList

def others (s : String) : Pattern :=
  .rep 0 none .greedy (setOf {} (s.toList.map fun c => .char c.toNat) true)

/-- The words of a repeated set are those of enough of its characters. -/
theorem matches_rep_one (least : Nat) (set : CharSet) :
    (rep least none .greedy (.one set)).Matches w ↔
      least ≤ w.length ∧ ∀ c ∈ w, set.accepts c = true := by
  constructor
  · rintro ⟨ws, hlen, -, hws, rfl⟩
    have hsingle : ∀ u ∈ ws, u.length = 1 := by
      intro u hu
      obtain ⟨c, _, rfl⟩ := hws u hu
      rfl
    have hlength : ws.flatten.length = ws.length := by
      clear hlen hws
      induction ws with
      | nil => rfl
      | cons u ws ih =>
        rw [List.flatten_cons, List.length_append, List.length_cons, hsingle u (by simp),
          ih fun v hv => hsingle v (by simp [hv]), Nat.add_comm]
    refine ⟨hlength ▸ hlen, ?_⟩
    intro c hc
    obtain ⟨u, hu, hcu⟩ := List.mem_flatten.mp hc
    obtain ⟨d, hd, rfl⟩ := hws u hu
    rw [List.mem_singleton.mp hcu]
    exact hd
  · rintro ⟨hlen, hset⟩
    refine ⟨w.map fun c => [c], by simpa using hlen, by simp, ?_, ?_⟩
    · intro u hu
      obtain ⟨c, hc, rfl⟩ := List.mem_map.mp hu
      exact ⟨c, hset c hc, rfl⟩
    · rw [← List.flatMap_def, List.flatMap_singleton']

theorem matches_others (s : String) : (others s).Matches w ↔ ∀ c ∈ s.toList, c ∉ w := by
  rw [others, setOf_chars, matches_rep_one]
  simp only [Nat.zero_le, true_and, accepts_chars, Bool.bne_true, Bool.not_eq_true',
    List.contains_eq_mem, decide_eq_false_iff_not]
  constructor
  · intro h c hc hw
    exact h c hw hc
  · intro h c hw hc
    exact h c hc hw

theorem matches_blanks : blanks.Matches w ↔ ∀ c ∈ w, Text.isBlank c = true := by
  rw [blanks, matches_rep_one]
  simp [CharSet.accepts, CharSet.hits, SetItem.accepts, Category.holds]

def digits : Pattern := .rep 1 none .greedy (.one { items := [.range 48 57] })

theorem matches_digits : digits.Matches w ↔ w ≠ [] ∧ ∀ c ∈ w, '0' ≤ c ∧ c ≤ '9' := by
  have hdigit (c : Char) : CharSet.accepts { items := [.range 48 57] } c = true ↔
      '0' ≤ c ∧ c ≤ '9' := by
    have hrange : (48 ≤ c.toNat ∧ c.toNat ≤ 57) ↔ '0' ≤ c ∧ c ≤ '9' := Iff.rfl
    simp [CharSet.accepts, CharSet.hits, SetItem.accepts, ← hrange]
  rw [digits, matches_rep_one]
  simp only [hdigit, Nat.one_le_iff_ne_zero, ne_eq, List.length_eq_zero_iff]

end Pattern

end SinkAudit
