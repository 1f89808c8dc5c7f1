import Mathlib.Tactic.MkIffOfInductiveProp
import SinkAudit.Proofs.FlagText

/-! # Options that are written plainly

A search for a flag and a look at the members come to the same if only members have colons, their
keys are words, white space at most stands around the colons, and no value goes on after what would
set a flag (`LaidOut`). Then every colon is that of a member, what stands before it is the key and
what stands behind it the value, and a flag stands in the text exactly if a member sets it
(`LaidOut.speltIn_iff`). -/
namespace SinkAudit.Check.Cookie
open Text Text.Along

def IsStop (c : Char) : Prop := c.toNat < 128 ∧ isWordChar c = false

instance (c : Char) : Decidable (IsStop c) := inferInstanceAs (Decidable (_ ∧ _))

theorem stop_of_mem_quotes {q : Char} (h : q ∈ quotes) : IsStop q ∧ isBlank q = false := by
  revert q
  decide

/-- A member of an object as it is written, with what follows up to the next one. -/
structure Entry where
  key : List Char
  gap : List Char
  space : List Char
  value : List Char
  after : List Char
  deriving DecidableEq, Repr

/-- What stands before the key of a member: a text without colons that does not end in a word. -/
@[mk_iff] structure Divides (t : List Char) : Prop where
  noColon : ':' ∉ t
  ends : ∃ c ∈ t.getLast?, IsStop c

instance (t : List Char) : Decidable (Divides t) := decidable_of_iff _ (divides_iff t).symm

/-- The member is written plainly. Around its colon all is of ASCII, where the characters of words,
white space and stops exclude each other. -/
@[mk_iff] structure Entry.Plain (e : Entry) : Prop where
  key_ne : e.key ≠ []
  key_word : ∀ c ∈ e.key, c.toNat < 128 ∧ isWordChar c = true
  /-- The key in which case does not count is written in its own. -/
  key_case : IsKey "sameSite" e.key → e.key = "sameSite".toList
  gap : ∀ c ∈ e.gap, isBlank c = true ∧ c.toNat < 128
  space : ∀ c ∈ e.space, isBlank c = true ∧ c.toNat < 128
  value_head : ∃ c ∈ e.value.head?, isBlank c = false
  value_noColon : ':' ∉ e.value
  /-- A value that begins with the word `true` is this word. -/
  value_true : e.value.takeWhile isWordChar = "true".toList → e.value = "true".toList
  /-- A value that begins with a quote mark is one text between such marks. -/
  value_quoted : ∀ q ∈ quotes, e.value.head? = some q →
    e.value = q :: Source.inner e.value ++ [q] ∧ ∀ q' ∈ quotes, q' ∉ Source.inner e.value
  after : Divides e.after
  after_head : ∃ c ∈ e.after.head?, IsStop c

instance (e : Entry) : Decidable e.Plain := decidable_of_iff _ e.plain_iff.symm

def Entry.chars (e : Entry) : List Char :=
  e.key ++ e.gap ++ ':' :: e.space ++ e.value ++ e.after

/-- A text consists of members that are written plainly, and of what stands before them. -/
@[mk_iff] structure LaidOut (text head : List Char) (entries : List Entry) : Prop where
  shape : text = head ++ entries.flatMap Entry.chars
  head : Divides head
  plain : ∀ e ∈ entries, e.Plain

instance (text head : List Char) (entries : List Entry) : Decidable (LaidOut text head entries) :=
  decidable_of_iff _ (laidOut_iff text head entries).symm

section
variable {text head : List Char} {entries : List Entry} {e : Entry} {name : String}

theorem Entry.Plain.noColon_key (h : e.Plain) : ':' ∉ e.key ++ e.gap := by
  intro hc
  rcases List.mem_append.mp hc with hc | hc
  · exact absurd (h.key_word _ hc).2 (by decide)
  · exact absurd (h.gap _ hc).1 (by decide)

theorem Entry.Plain.noColon_value (h : e.Plain) : ':' ∉ e.space ++ e.value ++ e.after := by
  intro hc
  rcases List.mem_append.mp hc with hc | hc
  · rcases List.mem_append.mp hc with hc | hc
    · exact absurd (h.space _ hc).1 (by decide)
    · exact h.value_noColon hc
  · exact h.after.noColon hc

/-- Every colon is that of a member. -/
theorem exists_entry_of_colon {before rest : List Char} (hhead : ':' ∉ head)
    (hplain : ∀ e ∈ entries, e.Plain)
    (h : head ++ entries.flatMap Entry.chars = before ++ ':' :: rest) :
    ∃ done e more, entries = done ++ e :: more ∧
      before = head ++ done.flatMap Entry.chars ++ e.key ++ e.gap ∧
      rest = e.space ++ e.value ++ e.after ++ more.flatMap Entry.chars := by
  induction entries generalizing head before with
  | nil =>
    refine absurd ?_ hhead
    have hmem : ':' ∈ before ++ ':' :: rest := by simp
    rw [← h] at hmem
    simpa using hmem
  | cons e entries ih =>
    obtain ⟨he, hentries⟩ := List.forall_mem_cons.mp hplain
    have hfront : ':' ∉ head ++ (e.key ++ e.gap) := by
      simpa using ⟨hhead, by simpa using he.noColon_key⟩
    have hsplit : head ++ (e.key ++ e.gap) ++ ':' ::
        ((e.space ++ e.value ++ e.after) ++ entries.flatMap Entry.chars) =
          before ++ ':' :: rest := by
      rw [← h]
      simp [Entry.chars]
    rcases List.append_eq_append_iff.mp hsplit with ⟨mid, hbefore, hmid⟩ | ⟨mid, hbefore, hmid⟩
    · cases mid with
      | nil =>
        obtain ⟨_, hrest⟩ := List.cons.inj hmid
        exact ⟨[], e, entries, rfl, by simpa using hbefore, hrest.symm⟩
      | cons c mid =>
        obtain ⟨rfl, hrest⟩ := List.cons.inj hmid
        obtain ⟨done, e', more, rfl, rfl, rfl⟩ := ih he.noColon_value hentries hrest
        exact ⟨e :: done, e', more, rfl, by simp [hbefore, Entry.chars], rfl⟩
    · cases mid with
      | nil =>
        obtain ⟨_, hrest⟩ := List.cons.inj hmid
        exact ⟨[], e, entries, rfl, by simpa using hbefore.symm, hrest⟩
      | cons c mid =>
        obtain ⟨rfl, _⟩ := List.cons.inj hmid
        exact absurd (by simp [hbefore]) hfront

/-- Before a key stands no part of a word. -/
theorem stop_before (done : List Entry) (hhead : ∃ c ∈ head.getLast?, IsStop c)
    (hplain : ∀ e ∈ done, e.Plain) :
    ∃ c ∈ (head ++ done.flatMap Entry.chars).getLast?, IsStop c := by
  induction done generalizing head with
  | nil => simpa using hhead
  | cons e done ih =>
    obtain ⟨he, hdone⟩ := List.forall_mem_cons.mp hplain
    rw [List.flatMap_cons, ← List.append_assoc]
    refine ih ?_ hdone
    obtain ⟨c, hc, hstop⟩ := he.after.ends
    refine ⟨c, ?_, hstop⟩
    rw [Entry.chars, ← List.append_assoc, List.getLast?_append, Option.mem_def.mp hc]
    rfl

/-- Two texts with something after them are the same if neither can end in what is after the
other. -/
theorem append_inj_of_last {u v x y : List Char} (h : u ++ x = v ++ y)
    (hu : ∃ c ∈ u.getLast?, c ∉ y) (hv : ∃ c ∈ v.getLast?, c ∉ x) : u = v ∧ x = y := by
  rcases List.append_eq_append_iff.mp h with ⟨mid, rfl, rfl⟩ | ⟨mid, rfl, rfl⟩
  · cases hmid : mid.getLast? with
    | none => simp [List.getLast?_eq_none_iff.mp hmid]
    | some d =>
      obtain ⟨c, hc, hnot⟩ := hv
      rw [List.getLast?_append, hmid] at hc
      cases hc
      exact absurd (List.mem_append_left _ (List.mem_of_getLast? hmid)) hnot
  · cases hmid : mid.getLast? with
    | none => simp [List.getLast?_eq_none_iff.mp hmid]
    | some d =>
      obtain ⟨c, hc, hnot⟩ := hu
      rw [List.getLast?_append, hmid] at hc
      cases hc
      exact absurd (List.mem_append_left _ (List.mem_of_getLast? hmid)) hnot

/-- Two texts with something before them are the same if neither can begin in what is before the
other. -/
theorem append_inj_of_head {u v x y : List Char} (h : x ++ u = y ++ v)
    (hu : ∃ c ∈ u.head?, c ∉ y) (hv : ∃ c ∈ v.head?, c ∉ x) : x = y ∧ u = v := by
  have hreverse : u.reverse ++ x.reverse = v.reverse ++ y.reverse := by
    simpa using congrArg List.reverse h
  have hsame := append_inj_of_last hreverse (by simpa using hu) (by simpa using hv)
  simpa [and_comm] using hsame

theorem isWordChar_of_isAlpha {c : Char} (h : c.isAlpha = true) : isWordChar c = true :=
  of_ascii (P := fun c => c.isAlpha = true → isWordChar c = true) (by decide) (ascii_of_isAlpha h) h

theorem not_isBlank_of_isWordChar {c : Char} (hc : c.toNat < 128) (h : isWordChar c = true) :
    isBlank c = false :=
  of_ascii (P := fun c => isWordChar c = true → isBlank c = false) (by decide) hc h

theorem word_of_letters {letters w : List Char} (h : List.Forall₂ SameLetter letters w)
    (hl : ∀ c ∈ letters, c.isAlpha = true) : ∀ c ∈ w, c.toNat < 128 → isWordChar c = true := by
  induction h with
  | nil => simp
  | @cons c d letters w hcd _ ih =>
    obtain ⟨hc, hl⟩ := List.forall_mem_cons.mp hl
    refine List.forall_mem_cons.mpr ⟨fun hd => ?_, ih hl⟩
    exact isWordChar_of_isAlpha (hcd.isAlpha hc hd)

theorem word_of_isKey (hn : name ∈ flagNames) {key : List Char} (h : IsKey name key) :
    key ≠ [] ∧ ∀ c ∈ key, c.toNat < 128 → isWordChar c = true := by
  have hnames : ∀ name ∈ flagNames, name.toList ≠ [] ∧ ∀ c ∈ name.toList, c.isAlpha = true := by
    decide
  obtain ⟨hne, hletters⟩ := hnames name hn
  unfold IsKey at h
  split at h
  · refine ⟨?_, word_of_letters h hletters⟩
    rintro rfl
    exact hne (List.forall₂_nil_right_iff.mp h)
  · subst h
    exact ⟨hne, fun c hc _ => isWordChar_of_isAlpha (hletters c hc)⟩

theorem endsWord_eq_false {t : List Char} (h : ∃ c ∈ t.getLast?, IsStop c) :
    endsWord t = false := by
  obtain ⟨c, hc, hstop⟩ := h
  rw [endsWord, Option.mem_def.mp hc]
  exact hstop.2

theorem Entry.Plain.startsWord_after (he : e.Plain) (tail : List Char) :
    startsWord (e.after ++ tail) = false := by
  obtain ⟨c, hc, hstop⟩ := he.after_head
  rw [startsWord, List.head?_append, Option.mem_def.mp hc]
  exact hstop.2

/-- A key that ends before the colon of a plain member and begins at an edge is the key of the
member. -/
theorem Entry.Plain.key_eq (he : e.Plain) {front before key gap : List Char}
    (h : front ++ e.key ++ e.gap = before ++ key ++ gap) (hfront : ∃ c ∈ front.getLast?, IsStop c)
    (hne : key ≠ []) (hword : ∀ c ∈ key, c.toNat < 128 → isWordChar c = true) (hgap : Blank gap)
    (hedge : endsWord before ≠ startsWord key) : key = e.key := by
  have hlast : front ++ e.key = before ++ key := by
    refine (append_inj_of_last h ?_ ?_).1
    · refine ⟨e.key.getLast he.key_ne, ?_, fun hmem => ?_⟩
      · rw [List.getLast?_append, List.getLast?_eq_some_getLast he.key_ne]
        rfl
      · obtain ⟨hascii, hw⟩ := he.key_word _ (List.getLast_mem he.key_ne)
        have hblank := hgap _ hmem
        rw [not_isBlank_of_isWordChar hascii hw] at hblank
        cases hblank
    · refine ⟨key.getLast hne, ?_, fun hmem => ?_⟩
      · rw [List.getLast?_append, List.getLast?_eq_some_getLast hne]
        rfl
      · obtain ⟨hblank, hascii⟩ := he.gap _ hmem
        rw [not_isBlank_of_isWordChar hascii (hword _ (List.getLast_mem hne) hascii)] at hblank
        cases hblank
  rcases List.append_eq_append_iff.mp hlast with ⟨mid, rfl, hkey⟩ | ⟨mid, rfl, rfl⟩
  · by_cases hmid : mid = []
    · simpa [hmid] using hkey.symm
    · -- the key would begin within the word
      refine absurd ?_ hedge
      have hwords : ∀ c ∈ mid ++ key, isWordChar c = true := by
        rw [← hkey]
        exact fun c hc => (he.key_word c hc).2
      have hends : endsWord (front ++ mid) = true := by
        rw [endsWord_append front hmid, endsWord, List.getLast?_eq_some_getLast hmid]
        exact hwords _ (List.mem_append_left _ (List.getLast_mem hmid))
      have hstarts : startsWord key = true := by
        rw [startsWord, List.head?_eq_some_head hne]
        exact hwords _ (List.mem_append_right _ (List.head_mem hne))
      rw [hends, hstarts]
  · by_cases hmid : mid = []
    · simp [hmid]
    · -- the key would begin before the stop
      obtain ⟨c, hc, hascii, hstop⟩ := hfront
      rw [List.getLast?_append, List.getLast?_eq_some_getLast hmid] at hc
      cases hc
      have := hword _ (List.mem_append_left _ (List.getLast_mem hmid)) hascii
      rw [hstop] at this
      cases this

theorem takeWhile_append_of_stop (u : List Char) {v : List Char} (hv : startsWord v = false) :
    (u ++ v).takeWhile isWordChar = u.takeWhile isWordChar := by
  induction u with
  | nil =>
    cases v with
    | nil => rfl
    | cons c v => exact List.takeWhile_cons_of_neg (Bool.not_eq_true _ ▸ hv)
  | cons c u ih => simp only [List.cons_append, List.takeWhile_cons, ih]

/-- What begins after the colon of a plain member and sets a flag is the value of the member. -/
theorem Entry.Plain.isValue_of_prefix (he : e.Plain) (tail : List Char) {value rest : List Char}
    (h : e.value ++ (e.after ++ tail) = value ++ rest) (hvalue : IsValue name value)
    (hclosed : name ≠ "sameSite" → startsWord rest = false) : IsValue name e.value := by
  unfold IsValue at hvalue ⊢
  split at hvalue
  · rename_i hn
    obtain ⟨⟨q, hq, q', hq', hshape⟩, word, hword, hw⟩ := hvalue
    generalize Source.inner value = w at hshape hw
    subst hshape
    obtain ⟨c, hc, _⟩ := he.value_head
    obtain ⟨more, hmore⟩ := List.head?_eq_some_iff.mp hc
    have hhead : e.value.head? = some q := by
      rw [hmore] at h ⊢
      exact congrArg some (List.cons.inj h).1
    obtain ⟨hbody, hnone⟩ := he.value_quoted q hq hhead
    have hnot : q ∉ w := by
      intro hmem
      obtain ⟨⟨hascii, hstop⟩, _⟩ := stop_of_mem_quotes hq
      have hwordChar := word_of_letters hw (isAlpha_of_siteWord hword) q hmem hascii
      rw [hstop] at hwordChar
      cases hwordChar
    have hsame : Source.inner e.value ++ q :: (e.after ++ tail) = w ++ q' :: rest := by
      rw [hbody] at h
      simpa using h
    obtain ⟨hinner, _⟩ := append_inj_of_head hsame ⟨q, rfl, hnot⟩ ⟨q', rfl, hnone q' hq'⟩
    rw [if_pos hn]
    exact ⟨⟨q, hq, q, hq, hbody⟩, word, hword, hinner ▸ hw⟩
  · rename_i hn
    subst hvalue
    rw [if_neg hn]
    have hwhile := congrArg (List.takeWhile isWordChar) h
    rw [takeWhile_append_of_stop _ (he.startsWord_after tail),
      takeWhile_append_of_stop _ (hclosed hn)] at hwhile
    exact he.value_true (hwhile.trans (by decide))

theorem isKey_self {key : List Char} (h : key = name.toList) : IsKey name key := by
  subst h
  unfold IsKey
  split
  · exact List.forall₂_same.mpr fun c _ => .inl rfl
  · rfl

theorem head_of_isValue {value : List Char} (h : IsValue name value) :
    ∃ c ∈ value.head?, isBlank c = false := by
  unfold IsValue at h
  split at h
  · obtain ⟨⟨q, hq, _, _, hshape⟩, _⟩ := h
    exact ⟨q, by rw [hshape]; rfl, (stop_of_mem_quotes hq).2⟩
  · subst h
    exact ⟨'t', rfl, by decide⟩

/-- In a text that is laid out plainly a flag stands exactly if one of the members sets it. -/
theorem LaidOut.speltIn_iff (h : LaidOut text head entries) (hn : name ∈ flagNames) :
    SpeltIn text name ↔ ∃ e ∈ entries, e.key = name.toList ∧ IsValue name e.value := by
  constructor
  · rintro ⟨before, key, gap, space, value, rest, hat⟩
    have hshape : head ++ entries.flatMap Entry.chars =
        (before ++ key ++ gap) ++ ':' :: (space ++ (value ++ rest)) := by
      rw [← h.shape, hat.shape]
      simp
    obtain ⟨done, e, more, rfl, hbefore, hrest⟩ :=
      exists_entry_of_colon h.head.noColon h.plain hshape
    have he : e.Plain := h.plain e (by simp)
    have hfront := stop_before done h.head.ends fun e he => h.plain e (by simp [he])
    obtain ⟨hne, hword⟩ := word_of_isKey hn hat.isKey
    have hkey : key = e.key :=
      he.key_eq hbefore.symm hfront hne hword hat.gapBlank hat.edge
    have hvalue : IsValue name e.value := by
      refine he.isValue_of_prefix (more.flatMap Entry.chars) ?_ hat.isValue hat.closed
      refine (append_inj_of_head (x := e.space) (y := space) ?_ ?_ ?_).2
      · rw [hrest]
        simp
      · obtain ⟨c, hc, hblank⟩ := he.value_head
        refine ⟨c, by rw [List.head?_append, Option.mem_def.mp hc]; rfl, fun hmem => ?_⟩
        rw [hat.spaceBlank c hmem] at hblank
        cases hblank
      · obtain ⟨c, hc, hblank⟩ := head_of_isValue hat.isValue
        refine ⟨c, by rw [List.head?_append, Option.mem_def.mp hc]; rfl, fun hmem => ?_⟩
        rw [(he.space c hmem).1] at hblank
        cases hblank
    refine ⟨e, by simp, ?_, hvalue⟩
    have hisKey := hat.isKey
    rw [hkey] at hisKey
    by_cases hsame : name = "sameSite"
    · subst hsame
      exact he.key_case hisKey
    · rwa [IsKey, if_neg hsame] at hisKey
  · rintro ⟨e, hmem, hkey, hvalue⟩
    obtain ⟨done, more, rfl⟩ := List.append_of_mem hmem
    have he := h.plain e hmem
    have hfront := stop_before done h.head.ends fun e he => h.plain e (by simp [he])
    refine ⟨head ++ done.flatMap Entry.chars, e.key, e.gap, e.space, e.value,
      e.after ++ more.flatMap Entry.chars, ?_, isKey_self hkey, fun c hc => (he.gap c hc).1,
      fun c hc => (he.space c hc).1, hvalue, ?_, fun _ => he.startsWord_after _⟩
    · rw [h.shape]
      simp [Entry.chars]
    · have hstarts : startsWord e.key = true := by
        rw [startsWord, List.head?_eq_some_head he.key_ne]
        exact (he.key_word _ (List.head_mem he.key_ne)).2
      rw [endsWord_eq_false hfront, hstarts]
      simp

end

end SinkAudit.Check.Cookie
