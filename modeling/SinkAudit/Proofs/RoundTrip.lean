import SinkAudit.Json.Reader
import SinkAudit.Report.Format

/-! # Reading what was written

A value without floating-point numbers and without double keys is read back from its text as it
was, with its members in the same order, and its text is ASCII. The reader is followed from left to
right: each lemma says what is read from the text of a part with more text after it. -/
namespace SinkAudit.Json

/-- Values without floating-point numbers, in whose objects no key occurs twice. -/
inductive Plain : Json → Prop
  | null : Plain .null
  | bool (b : Bool) : Plain (.bool b)
  | int (i : Int) : Plain (.int i)
  | str (s : String) : Plain (.str s)
  | arr {items : List Json} (h : ∀ v ∈ items, Plain v) : Plain (.arr items)
  | obj {ms : List (String × Json)} (hd : (ms.map (·.1)).Nodup) (h : ∀ m ∈ ms, Plain m.2) :
      Plain (.obj ms)

attribute [simp] Plain.null Plain.bool Plain.int Plain.str

@[simp] theorem plain_arr {items : List Json} : Plain (.arr items) ↔ ∀ v ∈ items, v.Plain := by
  constructor
  · rintro ⟨⟩
    assumption
  · exact .arr

@[simp] theorem plain_obj {ms : List (String × Json)} :
    Plain (.obj ms) ↔ (ms.map (·.1)).Nodup ∧ ∀ m ∈ ms, m.2.Plain := by
  constructor
  · rintro ⟨⟩
    exact ⟨‹_›, ‹_›⟩
  · rintro ⟨hd, h⟩
    exact .obj hd h

/-! ## Strings -/

theorem hexDigit?_hexChar {n : Nat} (h : n < 16) : Text.hexDigit? (Text.hexChar n) = some n := by
  have hall : ∀ n < 16, Text.hexDigit? (Text.hexChar n) = some n := by decide
  exact hall n h

theorem readHex4_hexDigits {n : Nat} (h : n < 0x10000) (rest : List Char) :
    readHex4 (Text.hexDigits 4 n ++ rest) = some (n, rest) := by
  have hdigit (k : Nat) : Text.hexDigit? (Text.hexChar (k % 16)) = some (k % 16) :=
    hexDigit?_hexChar (Nat.mod_lt k (by omega))
  have hvalue : ((n / 16 / 16 / 16 % 16 * 16 + n / 16 / 16 % 16) * 16 + n / 16 % 16) * 16 + n % 16 =
      n := by
    omega
  simp only [Text.hexDigits, List.nil_append, List.cons_append, readHex4, hdigit,
    Option.bind_eq_bind, Option.bind_some, hvalue]

theorem readChar_unitEscape {n : Nat} (h : n < 0x10000) (rest : List Char) :
    readChar (unitEscape n ++ rest) = surrogatePair n rest := by
  simp only [unitEscape, List.cons_append, readChar, readHex4_hexDigits h, Option.bind_some]

theorem surrogatePair_of_scalar (c : Char) (rest : List Char) :
    surrogatePair c.toNat rest = some (c, rest) := by
  have hvalid : c.toNat < 0xD800 ∨ (0xDFFF < c.toNat ∧ c.toNat < 0x110000) := c.valid
  have hhigh : isHighSurrogate c.toNat = false := by
    simp only [isHighSurrogate, Bool.and_eq_false_iff, decide_eq_false_iff_not]
    omega
  have hlow : isLowSurrogate c.toNat = false := by
    simp only [isLowSurrogate, Bool.and_eq_false_iff, decide_eq_false_iff_not]
    omega
  simp [surrogatePair, hhigh, hlow, Char.ofNat_toNat]

theorem surrogatePair_of_joinPair {high low : Nat} {c : Char}
    (hhigh : isHighSurrogate high = true) (hlow : low < 0x10000) (h : joinPair high low = some c)
    (rest : List Char) : surrogatePair high (unitEscape low ++ rest) = some (c, rest) := by
  simp only [surrogatePair, hhigh, if_true, unitEscape, List.cons_append, readHex4_hexDigits hlow,
    h, Option.bind_some, Option.map_some]

/-- Two units beyond the basic plane are read as the character that they stand for. -/
theorem surrogatePair_unitEscape {c : Char} (h : 0x10000 ≤ c.toNat) (rest : List Char) :
    surrogatePair (0xD800 + (c.toNat - 0x10000) / 0x400)
      (unitEscape (0xDC00 + (c.toNat - 0x10000) % 0x400) ++ rest) = some (c, rest) := by
  have hvalid : c.toNat < 0xD800 ∨ (0xDFFF < c.toNat ∧ c.toNat < 0x110000) := c.valid
  have hhigh : isHighSurrogate (0xD800 + (c.toNat - 0x10000) / 0x400) = true := by
    simp only [isHighSurrogate, Bool.and_eq_true, decide_eq_true_eq]
    omega
  have hlow : isLowSurrogate (0xDC00 + (c.toNat - 0x10000) % 0x400) = true := by
    simp only [isLowSurrogate, Bool.and_eq_true, decide_eq_true_eq]
    omega
  have hsum : 0x10000 + (0xD800 + (c.toNat - 0x10000) / 0x400 - 0xD800) * 0x400 +
      (0xDC00 + (c.toNat - 0x10000) % 0x400 - 0xDC00) = c.toNat := by
    omega
  refine surrogatePair_of_joinPair hhigh (by omega) ?_ rest
  rw [joinPair, if_pos hlow, hsum, Char.ofNat_toNat]

theorem readChar_plain {c : Char} (hc : c ≠ '\\') (h : 32 ≤ c.toNat) (rest : List Char) :
    readChar (c :: rest) = some (c, rest) := by
  have hlow : ¬ c.toNat < 32 := by omega
  simp [readChar, hc, hlow]

theorem readChar_simpleEscape {c e : Char} (h : simpleEscape? e = some c) (rest : List Char) :
    readChar ('\\' :: e :: rest) = some (c, rest) := by
  have he : e ≠ 'u' := by
    rintro rfl
    simp [simpleEscape?] at h
  simp [readChar, h]

/-- How a character may be written inside of a string. -/
inductive Escaped (c : Char) : List Char → Prop
  | simple {e : Char} (h : simpleEscape? e = some c) (ha : e.toNat < 128) : Escaped c ['\\', e]
  | plain (hq : c ≠ '"') (hs : c ≠ '\\') (h : 32 ≤ c.toNat) (h' : c.toNat < 127) : Escaped c [c]
  | unit (h : c.toNat < 0x10000) : Escaped c (unitEscape c.toNat)
  | pair (h : 0x10000 ≤ c.toNat) :
      Escaped c (unitEscape (0xD800 + (c.toNat - 0x10000) / 0x400) ++
        unitEscape (0xDC00 + (c.toNat - 0x10000) % 0x400))

theorem escaped_escapeChar (c : Char) : Escaped c (escapeChar c) := by
  unfold escapeChar
  split
  · exact .simple (by simp_all [simpleEscape?]) (by decide)
  split
  · exact .simple (by simp_all [simpleEscape?]) (by decide)
  split
  · exact .simple (by simp_all [simpleEscape?]) (by decide)
  split
  · exact .simple (by simp_all [simpleEscape?]) (by decide)
  split
  · exact .simple (by simp_all [simpleEscape?]) (by decide)
  split
  · exact .simple (by simp_all [simpleEscape?]) (by decide)
  split
  · exact .simple (by simp_all [simpleEscape?]) (by decide)
  split
  · rename_i hquote hslash _ _ _ _ _ hprint
    obtain ⟨hlow, hhigh⟩ := Bool.and_eq_true_iff.mp hprint
    exact .plain (by simpa using hquote) (by simpa using hslash) (of_decide_eq_true hlow)
      (of_decide_eq_true hhigh)
  split
  · exact .unit ‹_›
  · exact .pair (by omega)

theorem readChar_escapeChar (c : Char) (rest : List Char) :
    readChar (escapeChar c ++ rest) = some (c, rest) := by
  have hvalid : c.toNat < 0xD800 ∨ (0xDFFF < c.toNat ∧ c.toNat < 0x110000) := c.valid
  have he := escaped_escapeChar c
  generalize escapeChar c = cs at he
  cases he with
  | simple h => exact readChar_simpleEscape h rest
  | plain _ hs h => exact readChar_plain hs h rest
  | unit h => rw [readChar_unitEscape h, surrogatePair_of_scalar]
  | pair h => rw [List.append_assoc, readChar_unitEscape (by omega), surrogatePair_unitEscape h]

/-- No character is written with a quote mark at its start. -/
theorem exists_escapeChar (c : Char) : ∃ d ds, escapeChar c = d :: ds ∧ d ≠ '"' := by
  have he := escaped_escapeChar c
  generalize escapeChar c = cs at he
  cases he with
  | simple => exact ⟨'\\', _, rfl, by decide⟩
  | plain hq => exact ⟨c, _, rfl, hq⟩
  | unit => exact ⟨'\\', _, rfl, by decide⟩
  | pair => exact ⟨'\\', _, rfl, by decide⟩

theorem readStringBody_escaped (cs rest : List Char) {fuel : Nat}
    (h : (cs.flatMap escapeChar).length < fuel) :
    readStringBody fuel (cs.flatMap escapeChar ++ '"' :: rest) = some (cs, rest) := by
  induction cs generalizing fuel with
  | nil =>
    obtain ⟨fuel, rfl⟩ := Nat.exists_eq_add_of_lt h
    simp [readStringBody]
  | cons c cs ih =>
    obtain ⟨d, ds, he, hd⟩ := exists_escapeChar c
    have hchar := readChar_escapeChar c (cs.flatMap escapeChar ++ '"' :: rest)
    rw [List.flatMap_cons, List.length_append, he, List.length_cons] at h
    rw [List.flatMap_cons, List.append_assoc]
    rw [he, List.cons_append] at hchar ⊢
    obtain ⟨fuel, rfl⟩ : ∃ n, fuel = n + 1 := ⟨fuel - 1, by omega⟩
    have hrest : readStringBody fuel (cs.flatMap escapeChar ++ '"' :: rest) = some (cs, rest) :=
      ih (by omega)
    simp [readStringBody, hd, hchar, hrest]

theorem readString_stringChars (s : String) (rest : List Char) :
    readString (stringChars s ++ rest) = some (s, rest) := by
  have hbody : readStringBody ((s.toList.flatMap escapeChar ++ '"' :: rest).length + 1)
      (s.toList.flatMap escapeChar ++ '"' :: rest) = some (s.toList, rest) :=
    readStringBody_escaped s.toList rest (by rw [List.length_append]; omega)
  simp only [stringChars, List.cons_append, List.append_assoc, List.nil_append, readString, hbody,
    Option.map_some, String.ofList_toList]

/-! ## Numbers -/

/-- Nothing that could belong to a number follows: no text, a comma or a line break. -/
def Stops (rest : List Char) : Prop := ∀ c ∈ rest.head?, c = ',' ∨ c = '\n'

theorem stops_nil : Stops [] := by simp [Stops]

theorem stops_comma (rest : List Char) : Stops (',' :: rest) := by simp [Stops]

theorem stops_newLine (level : Nat) (rest : List Char) : Stops (newLine level ++ rest) := by
  simp [Stops, newLine]

theorem Stops.takeWhile_isDigit {rest : List Char} (h : Stops rest) :
    rest.takeWhile Char.isDigit = [] := by
  cases rest with
  | nil => rfl
  | cons c rest =>
    rcases h c rfl with rfl | rfl
    · rfl
    · rfl

theorem Stops.dropWhile_isDigit {rest : List Char} (h : Stops rest) :
    rest.dropWhile Char.isDigit = rest := by
  cases rest with
  | nil => rfl
  | cons c rest =>
    rcases h c rfl with rfl | rfl
    · rfl
    · rfl

theorem Stops.readFraction {rest : List Char} (h : Stops rest) : readFraction rest = ([], rest) := by
  cases rest with
  | nil => rfl
  | cons c rest =>
    rcases h c rfl with rfl | rfl
    · rfl
    · rfl

theorem Stops.readExponent {rest : List Char} (h : Stops rest) :
    readExponent rest = (none, rest) := by
  cases rest with
  | nil => rfl
  | cons c rest =>
    rcases h c rfl with rfl | rfl
    · rfl
    · rfl

/-- Only the number zero is written with a zero at its start. -/
theorem head?_toDigits {n : Nat} (h : 0 < n) : (Nat.toDigits 10 n).head? ≠ some '0' := by
  induction n using Nat.strongRecOn with
  | ind n ih =>
    by_cases hn : n < 10
    · have hdigit : ∀ k < 10, 0 < k → k.digitChar ≠ '0' := by decide
      simpa [Nat.toDigits_of_lt_base hn] using hdigit n hn h
    · have hhead := ih (n / 10) (by omega) (by omega)
      obtain ⟨c, cs, hcs⟩ := List.exists_cons_of_ne_nil (Nat.toDigits_ne_nil (n := n / 10) (b := 10))
      rw [Nat.toDigits_of_base_le (by omega) (by omega), hcs, List.cons_append]
      rwa [hcs] at hhead

theorem readWhole_toDigits (n : Nat) {rest : List Char} (h : Stops rest) :
    readWhole (Nat.toDigits 10 n ++ rest) = some (Nat.toDigits 10 n, rest) := by
  have hdigits : ∀ c ∈ Nat.toDigits 10 n, c.isDigit = true := fun c hc =>
    Nat.isDigit_of_mem_toDigits (by omega) (by omega) hc
  have htake : (Nat.toDigits 10 n ++ rest).takeWhile Char.isDigit = Nat.toDigits 10 n := by
    rw [List.takeWhile_append_of_pos hdigits, h.takeWhile_isDigit, List.append_nil]
  have hdrop : (Nat.toDigits 10 n ++ rest).dropWhile Char.isDigit = rest := by
    rw [List.dropWhile_append_of_pos hdigits, h.dropWhile_isDigit]
  by_cases hn : n = 0
  · subst hn
    rfl
  · have hhead := head?_toDigits (Nat.pos_of_ne_zero hn)
    obtain ⟨c, cs, hcs⟩ := List.exists_cons_of_ne_nil (Nat.toDigits_ne_nil (n := n) (b := 10))
    rw [hcs] at htake hdrop hhead ⊢
    unfold readWhole
    split
    · simp_all
    · dsimp only
      rw [htake, hdrop]
      rfl

theorem digitsValue_toDigits (n : Nat) : digitsValue (Nat.toDigits 10 n) = n :=
  Nat.ofDigitChars_eq_foldl.symm.trans Nat.ofDigitChars_ten_toDigits

theorem readUnsigned_toDigits (negative : Bool) (n : Nat) {rest : List Char} (h : Stops rest) :
    readUnsigned negative (Nat.toDigits 10 n ++ rest) =
      some (.int (if negative then -(n : Int) else n), rest) := by
  simp [readUnsigned, readWhole_toDigits n h, h.readFraction, h.readExponent, digitsValue_toDigits]

/-! ## Words -/

theorem readWord_append (word : String) (rest : List Char) :
    readWord word (word.toList ++ rest) = some rest := by
  simp [readWord, ← String.length_toList]

/-- A text that starts with another character does not start with the word. -/
theorem readWord_of_head {word : String} {c d : Char} {ds rest : List Char}
    (hword : word.toList = d :: ds) (hc : c ≠ d) : readWord word (c :: rest) = none := by
  have hlength : word.length = ds.length + 1 := by
    rw [← String.length_toList, hword, List.length_cons]
  simp [readWord, hword, hlength, hc]

/-! ## Values -/

theorem skipSpace_newLine (level : Nat) (cs : List Char) :
    skipSpace (newLine level ++ cs) = skipSpace cs := by
  have hspaces : ∀ n, (List.replicate n ' ' ++ cs).dropWhile isSpace = cs.dropWhile isSpace := by
    intro n
    exact List.dropWhile_append_of_pos fun c hc => by rw [List.eq_of_mem_replicate hc]; rfl
  simp only [skipSpace, newLine, List.cons_append]
  rw [List.dropWhile_cons_of_pos (by rfl)]
  exact hspaces _

theorem skipSpace_cons {c : Char} (h : isSpace c = false) (cs : List Char) :
    skipSpace (c :: cs) = c :: cs := by
  simp [skipSpace, h]

/-- What a value, a key or a member starts with: no white space, and nothing that closes a list or
an object. -/
def Opens (cs : List Char) : Prop :=
  ∃ c rest, cs = c :: rest ∧ isSpace c = false ∧ c ≠ ']' ∧ c ≠ '\x7d'

theorem opens_stringChars (s : String) : Opens (stringChars s) :=
  ⟨'"', _, rfl, rfl, by decide, by decide⟩

theorem isDigit_of_toDigits {n : Nat} {c : Char} {cs : List Char} (h : Nat.toDigits 10 n = c :: cs) :
    c.isDigit = true :=
  Nat.isDigit_of_mem_toDigits (b := 10) (n := n) (by omega) (by omega) (by simp [h])

theorem exists_intChars (i : Int) :
    ∃ c cs, intChars i = c :: cs ∧ (c = '-' ∨ c.isDigit = true) := by
  unfold intChars
  split
  · exact ⟨'-', _, rfl, .inl rfl⟩
  · obtain ⟨c, cs, hcs⟩ :=
      List.exists_cons_of_ne_nil (Nat.toDigits_ne_nil (n := i.natAbs) (b := 10))
    exact ⟨c, cs, hcs, .inr (isDigit_of_toDigits hcs)⟩

theorem opens_intChars (i : Int) : Opens (intChars i) := by
  obtain ⟨c, cs, hcs, hc⟩ := exists_intChars i
  refine ⟨c, cs, hcs, ?_, ?_, ?_⟩
  · rcases hc with rfl | hc
    · rfl
    · refine Bool.eq_false_iff.mpr fun hs => ?_
      simp only [isSpace, Bool.or_eq_true, beq_iff_eq] at hs
      rcases hs with ((rfl | rfl) | rfl) | rfl <;> cases hc
  · rintro rfl
    simp at hc
  · rintro rfl
    simp at hc

theorem opens_renderAt {v : Json} (h : v.Plain) (level : Nat) : Opens (renderAt level v) := by
  cases h with
  | null =>
    rw [renderAt]
    exact ⟨'n', _, rfl, rfl, by decide, by decide⟩
  | bool b =>
    cases b with
    | true =>
      rw [renderAt]
      exact ⟨'t', _, rfl, rfl, by decide, by decide⟩
    | false =>
      rw [renderAt]
      exact ⟨'f', _, rfl, rfl, by decide, by decide⟩
  | int i =>
    rw [renderAt]
    exact opens_intChars i
  | str s =>
    rw [renderAt]
    exact opens_stringChars s
  | @arr items _ =>
    cases items with
    | nil =>
      rw [renderAt]
      exact ⟨'[', _, rfl, rfl, by decide, by decide⟩
    | cons item items =>
      rw [renderAt]
      exact ⟨'[', _, rfl, rfl, by decide, by decide⟩
  | @obj ms _ _ =>
    cases ms with
    | nil =>
      rw [renderAt]
      exact ⟨'\x7b', _, rfl, rfl, by decide, by decide⟩
    | cons m ms =>
      rw [renderAt]
      exact ⟨'\x7b', _, rfl, rfl, by decide, by decide⟩

theorem Opens.skipSpace {cs : List Char} (h : Opens cs) (rest : List Char) :
    skipSpace (cs ++ rest) = cs ++ rest := by
  obtain ⟨c, cs, rfl, hc, -, -⟩ := h
  exact skipSpace_cons hc _

theorem Opens.skipSpace_newLine {cs : List Char} (h : Opens cs) (level : Nat) (rest : List Char) :
    Json.skipSpace (newLine level ++ (cs ++ rest)) = cs ++ rest := by
  rw [Json.skipSpace_newLine, h.skipSpace]

theorem skipSpace_newLine_cons {c : Char} (h : isSpace c = false) (level : Nat) (cs : List Char) :
    skipSpace (newLine level ++ c :: cs) = c :: cs := by
  rw [skipSpace_newLine, skipSpace_cons h]

/-- A value is read back from its text, whatever follows that does not belong to a number. -/
def Reads (v : Json) : Prop :=
  ∀ (level fuel : Nat) (rest : List Char), (renderAt level v).length < fuel → Stops rest →
    readValue fuel (renderAt level v ++ rest) = some (v, rest)

theorem readLiteral_null (rest : List Char) :
    readLiteral ("null".toList ++ rest) = some (.null, rest) := by
  rw [readLiteral, readWord_append]

theorem readLiteral_true (rest : List Char) :
    readLiteral ("true".toList ++ rest) = some (.bool true, rest) := by
  have hnull : readWord "null" ("true".toList ++ rest) = none :=
    readWord_of_head rfl (by decide)
  rw [readLiteral, hnull, readWord_append]

theorem readLiteral_false (rest : List Char) :
    readLiteral ("false".toList ++ rest) = some (.bool false, rest) := by
  have hnull : readWord "null" ("false".toList ++ rest) = none :=
    readWord_of_head rfl (by decide)
  have htrue : readWord "true" ("false".toList ++ rest) = none :=
    readWord_of_head rfl (by decide)
  rw [readLiteral, hnull, htrue, readWord_append]

/-- What starts with no letter of a word is a number. -/
theorem readLiteral_of_head {c : Char} {cs : List Char} (h : c ∉ ['n', 't', 'f', 'N', 'I']) :
    readLiteral (c :: cs) = readNumber (c :: cs) := by
  have hword (word : String) {d : Char} {ds : List Char} (hw : word.toList = d :: ds)
      (hd : d ∈ ['n', 't', 'f', 'N', 'I']) : readWord word (c :: cs) = none := by
    refine readWord_of_head hw ?_
    rintro rfl
    exact h hd
  rw [readLiteral, hword "null" rfl (by decide), hword "true" rfl (by decide),
    hword "false" rfl (by decide), hword "NaN" rfl (by decide),
    hword "Infinity" rfl (by decide)]

theorem readNumber_toDigits (n : Nat) {rest : List Char} (h : Stops rest) :
    readNumber (Nat.toDigits 10 n ++ rest) = some (.int n, rest) := by
  have hread := readUnsigned_toDigits false n h
  obtain ⟨c, cs, hcs⟩ := List.exists_cons_of_ne_nil (Nat.toDigits_ne_nil (n := n) (b := 10))
  have hc : c ≠ '-' := by
    rintro rfl
    cases isDigit_of_toDigits hcs
  rw [hcs, List.cons_append] at hread ⊢
  simpa [readNumber, hc] using hread

theorem readNumber_minus (n : Nat) {rest : List Char} (h : Stops rest) :
    readNumber ('-' :: (Nat.toDigits 10 n ++ rest)) = some (.int (-n), rest) := by
  have hread := readUnsigned_toDigits true n h
  obtain ⟨c, cs, hcs⟩ := List.exists_cons_of_ne_nil (Nat.toDigits_ne_nil (n := n) (b := 10))
  have hword : readWord "Infinity" (Nat.toDigits 10 n ++ rest) = none := by
    rw [hcs]
    refine readWord_of_head rfl ?_
    rintro rfl
    cases isDigit_of_toDigits hcs
  simpa [readNumber, hword] using hread

theorem readLiteral_intChars (i : Int) {rest : List Char} (h : Stops rest) :
    readLiteral (intChars i ++ rest) = some (.int i, rest) := by
  unfold intChars
  split
  · have hi : -(i.natAbs : Int) = i := by omega
    rw [List.cons_append, readLiteral_of_head (by simp), readNumber_minus _ h, hi]
  · have hi : (i.natAbs : Int) = i := by omega
    obtain ⟨c, cs, hcs⟩ :=
      List.exists_cons_of_ne_nil (Nat.toDigits_ne_nil (n := i.natAbs) (b := 10))
    have hc : c ∉ ['n', 't', 'f', 'N', 'I'] := by
      have hdigit := isDigit_of_toDigits hcs
      intro hmem
      simp only [List.mem_cons, List.not_mem_nil, or_false] at hmem
      rcases hmem with rfl | rfl | rfl | rfl | rfl <;> cases hdigit
    have hread := readNumber_toDigits i.natAbs h
    rw [hcs, List.cons_append] at hread ⊢
    rw [readLiteral_of_head hc, hread, hi]

theorem readValue_literal {c : Char} {cs : List Char} (hs : c ≠ '"') (ha : c ≠ '[')
    (ho : c ≠ '\x7b') (fuel : Nat) : readValue (fuel + 1) (c :: cs) = readLiteral (c :: cs) := by
  simp [readValue, hs, ha, ho]

theorem readValue_intChars (i : Int) (fuel : Nat) {rest : List Char} (h : Stops rest) :
    readValue (fuel + 1) (intChars i ++ rest) = some (.int i, rest) := by
  have hread := readLiteral_intChars i h
  obtain ⟨c, cs, hcs, hc⟩ := exists_intChars i
  rw [hcs, List.cons_append] at hread ⊢
  rw [readValue_literal ?_ ?_ ?_, hread]
  · rintro rfl
    simp at hc
  · rintro rfl
    simp at hc
  · rintro rfl
    simp at hc

theorem readValue_stringChars (s : String) (fuel : Nat) (rest : List Char) :
    readValue (fuel + 1) (stringChars s ++ rest) = some (.str s, rest) := by
  have hread := readString_stringChars s rest
  rw [stringChars, List.cons_append] at hread ⊢
  simp only [readValue, hread, Option.map_some]

/-! ## Lists and objects -/

theorem readValue_items {cs : List Char} (h : Opens cs) (fuel level : Nat) (rest : List Char) :
    readValue (fuel + 1) ('[' :: (newLine level ++ (cs ++ rest))) =
      (readItems fuel (cs ++ rest)).map fun x => (.arr x.1, x.2) := by
  have hskip := h.skipSpace_newLine level rest
  obtain ⟨c, cs, rfl, -, hc, -⟩ := h
  rw [List.cons_append] at hskip ⊢
  simp [readValue, hskip, hc]

theorem readValue_members {cs : List Char} (h : Opens cs) (fuel level : Nat) (rest : List Char) :
    readValue (fuel + 1) ('\x7b' :: (newLine level ++ (cs ++ rest))) =
      (readMembers fuel (cs ++ rest)).map fun x => (.obj (Members.ofPairs x.1), x.2) := by
  have hskip := h.skipSpace_newLine level rest
  obtain ⟨c, cs, rfl, -, -, hc⟩ := h
  rw [List.cons_append] at hskip ⊢
  simp [readValue, hskip, hc]

section
variable {fuel : Nat} {cs rest more rest' : List Char} {v : Json} {key : String}

theorem readItems_last (hv : readValue fuel cs = some (v, rest))
    (hs : skipSpace rest = ']' :: rest') : readItems (fuel + 1) cs = some ([v], rest') := by
  simp [readItems, hv, hs]

theorem readItems_more {items : List Json} (hv : readValue fuel cs = some (v, rest))
    (hs : skipSpace rest = ',' :: more) (hm : readItems fuel (skipSpace more) = some (items, rest')) :
    readItems (fuel + 1) cs = some (v :: items, rest') := by
  simp [readItems, hv, hs, hm]

theorem readMembers_last (hv : readValue fuel (skipSpace cs) = some (v, rest))
    (hs : skipSpace rest = '\x7d' :: rest') :
    readMembers (fuel + 1) (stringChars key ++ ':' :: cs) = some ([(key, v)], rest') := by
  simp [readMembers, readString_stringChars, skipSpace_cons (c := ':') rfl, hv, hs]

theorem readMembers_more {ms : List (String × Json)}
    (hv : readValue fuel (skipSpace cs) = some (v, rest)) (hs : skipSpace rest = ',' :: more)
    (hm : readMembers fuel (skipSpace more) = some (ms, rest')) :
    readMembers (fuel + 1) (stringChars key ++ ':' :: cs) = some ((key, v) :: ms, rest') := by
  simp [readMembers, readString_stringChars, skipSpace_cons (c := ':') rfl, hv, hs, hm]

theorem Reads.after_blank (hr : Reads v) (hp : v.Plain) {level : Nat}
    (hf : (renderAt level v).length < fuel) (hs : Stops rest) :
    readValue fuel (skipSpace (' ' :: (renderAt level v ++ rest))) = some (v, rest) := by
  have hskip : skipSpace (' ' :: (renderAt level v ++ rest)) = renderAt level v ++ rest :=
    (opens_renderAt hp level).skipSpace rest
  rw [hskip]
  exact hr level fuel rest hf hs

end

/-- The items of a list are read up to the bracket that closes it. -/
theorem readItems_render {items : List Json} {item : Json} (hp : ∀ v ∈ item :: items, v.Plain)
    (hr : ∀ v ∈ item :: items, Reads v) (level outer : Nat) {fuel : Nat} (rest : List Char)
    (hf : (renderAt level item).length + (renderItems level items).length + 1 < fuel) :
    readItems fuel
        (renderAt level item ++ (renderItems level items ++ (newLine outer ++ ']' :: rest))) =
      some (item :: items, rest) := by
  induction items generalizing item fuel with
  | nil =>
    obtain ⟨fuel, rfl⟩ : ∃ n, fuel = n + 1 := ⟨fuel - 1, by omega⟩
    exact readItems_last (hr item (by simp) level fuel _ (by omega) (stops_newLine outer _))
      (skipSpace_newLine_cons rfl outer rest)
  | cons next items ih =>
    rw [renderItems] at hf ⊢
    simp only [List.length_cons, List.length_append] at hf
    simp only [List.cons_append, List.append_assoc]
    obtain ⟨fuel, rfl⟩ : ∃ n, fuel = n + 1 := ⟨fuel - 1, by omega⟩
    refine readItems_more (hr item (by simp) level fuel _ (by omega) (stops_comma _))
      (skipSpace_cons rfl _) ?_
    rw [(opens_renderAt (hp next (by simp)) level).skipSpace_newLine]
    exact ih (fun v hv => hp v (by simp_all)) (fun v hv => hr v (by simp_all)) (by omega)

/-- The members of an object are read up to the brace that closes it. -/
theorem readMembers_render {ms : List (String × Json)} {m : String × Json}
    (hp : ∀ m' ∈ m :: ms, m'.2.Plain) (hr : ∀ m' ∈ m :: ms, Reads m'.2) (level outer : Nat)
    {fuel : Nat} (rest : List Char)
    (hf : (renderAt level m.2).length + (renderMembers level ms).length + 1 < fuel) :
    readMembers fuel (stringChars m.1 ++ (':' :: ' ' :: (renderAt level m.2 ++
        (renderMembers level ms ++ (newLine outer ++ '\x7d' :: rest))))) =
      some (m :: ms, rest) := by
  induction ms generalizing m fuel with
  | nil =>
    obtain ⟨fuel, rfl⟩ : ∃ n, fuel = n + 1 := ⟨fuel - 1, by omega⟩
    exact readMembers_last
      ((hr m (by simp)).after_blank (hp m (by simp)) (by omega) (stops_newLine outer _))
      (skipSpace_newLine_cons rfl outer rest)
  | cons next ms ih =>
    rw [renderMembers] at hf ⊢
    simp only [List.length_cons, List.length_append] at hf
    simp only [List.cons_append, List.append_assoc]
    obtain ⟨fuel, rfl⟩ : ∃ n, fuel = n + 1 := ⟨fuel - 1, by omega⟩
    refine readMembers_more
      ((hr m (by simp)).after_blank (hp m (by simp)) (by omega) (stops_comma _))
      (skipSpace_cons rfl _) ?_
    rw [(opens_stringChars next.1).skipSpace_newLine]
    exact ih (fun v hv => hp v (by simp_all)) (fun v hv => hr v (by simp_all)) (by omega)

/-! ## Distinct keys -/

theorem set_of_not_mem {ms : Members} {key : String} (h : key ∉ ms.map (·.1)) (value : Json) :
    ms.set key value = ms ++ [(key, value)] := by
  induction ms with
  | nil => rfl
  | cons m ms ih =>
    have hne : m.1 ≠ key := fun he => h (by simp [he])
    have hrest : Members.set ms key value = ms ++ [(key, value)] := ih fun hm => h (by simp_all)
    simp [Members.set, hne, hrest]

theorem ofPairs_of_nodup {ms : List (String × Json)} (hd : (ms.map (·.1)).Nodup) :
    Members.ofPairs ms = ms := by
  suffices ∀ done : Members, ((done ++ ms).map (·.1)).Nodup →
      ms.foldl (fun ms p => ms.set p.1 p.2) done = done ++ ms from this [] hd
  clear hd
  induction ms with
  | nil => simp
  | cons m ms ih =>
    intro done hd
    have hnew : m.1 ∉ done.map (·.1) := by
      intro hm
      rw [List.map_append, List.map_cons] at hd
      exact (List.nodup_append.mp hd).2.2 m.1 hm m.1 (by simp) rfl
    rw [List.foldl_cons, set_of_not_mem hnew, ih _ (by simpa using hd), List.append_assoc]
    rfl

/-! ## Whole texts -/

theorem reads_of_succ {v : Json}
    (h : ∀ (level fuel : Nat) (rest : List Char), (renderAt level v).length ≤ fuel → Stops rest →
      readValue (fuel + 1) (renderAt level v ++ rest) = some (v, rest)) : Reads v := by
  intro level fuel rest hf hs
  obtain ⟨fuel, rfl⟩ : ∃ n, fuel = n + 1 := ⟨fuel - 1, by omega⟩
  exact h level fuel rest (by omega) hs

theorem Plain.reads {v : Json} (h : v.Plain) : Reads v := by
  induction h with
  | null =>
    refine reads_of_succ fun level fuel rest _ _ => ?_
    rw [renderAt]
    exact (readValue_literal (by decide) (by decide) (by decide) fuel).trans (readLiteral_null rest)
  | bool b =>
    refine reads_of_succ fun level fuel rest _ _ => ?_
    cases b with
    | true =>
      rw [renderAt]
      exact (readValue_literal (by decide) (by decide) (by decide) fuel).trans
        (readLiteral_true rest)
    | false =>
      rw [renderAt]
      exact (readValue_literal (by decide) (by decide) (by decide) fuel).trans
        (readLiteral_false rest)
  | int i =>
    refine reads_of_succ fun level fuel rest _ hs => ?_
    rw [renderAt, readValue_intChars i fuel hs]
  | str s =>
    refine reads_of_succ fun level fuel rest _ _ => ?_
    rw [renderAt, readValue_stringChars]
  | @arr items hp ih =>
    refine reads_of_succ fun level fuel rest hf _ => ?_
    cases items with
    | nil => simp [renderAt, readValue, skipSpace_cons (c := ']') rfl]
    | cons item items =>
      rw [renderAt] at hf ⊢
      simp only [List.length_cons, List.length_append, List.length_nil] at hf
      simp only [List.cons_append, List.append_assoc, List.nil_append]
      rw [readValue_items (opens_renderAt (hp item (by simp)) _),
        readItems_render hp ih (level + 1) level rest (by omega)]
      rfl
  | @obj ms hd hp ih =>
    refine reads_of_succ fun level fuel rest hf _ => ?_
    cases ms with
    | nil => simp [renderAt, readValue, skipSpace_cons (c := '\x7d') rfl]
    | cons m ms =>
      rw [renderAt] at hf ⊢
      simp only [List.length_cons, List.length_append, List.length_nil] at hf
      simp only [List.cons_append, List.append_assoc, List.nil_append]
      rw [readValue_members (opens_stringChars m.1),
        readMembers_render hp ih (level + 1) level rest (by omega), Option.map_some,
        ofPairs_of_nodup hd]

theorem parse_of_reads {v : Json} (hp : v.Plain) (hr : Reads v) : parse v.render = some v := by
  have hopen := (opens_renderAt hp 0).skipSpace []
  have hread := hr 0 (2 * (renderAt 0 v).length + 2) [] (by omega) stops_nil
  rw [List.append_nil] at hopen hread
  have hend : skipSpace [] = [] := rfl
  simp [parse, render, hopen, hread, hend]

/-! ## ASCII -/

def Ascii (cs : List Char) : Prop := ∀ c ∈ cs, c.toNat < 128

@[simp] theorem ascii_nil : Ascii [] := by simp [Ascii]

@[simp] theorem ascii_cons {c : Char} {cs : List Char} :
    Ascii (c :: cs) ↔ c.toNat < 128 ∧ Ascii cs := by
  simp [Ascii]

@[simp] theorem ascii_append {cs ds : List Char} : Ascii (cs ++ ds) ↔ Ascii cs ∧ Ascii ds := by
  simp only [Ascii, List.mem_append, or_imp, forall_and]

theorem ascii_hexDigits (width n : Nat) : Ascii (Text.hexDigits width n) := by
  have hdigit : ∀ k < 16, (Text.hexChar k).toNat < 128 := by decide
  induction width generalizing n with
  | zero => simp [Text.hexDigits]
  | succ width ih => simp [Text.hexDigits, ih, hdigit (n % 16) (by omega)]

theorem ascii_unitEscape (n : Nat) : Ascii (unitEscape n) := by
  simp [unitEscape, ascii_hexDigits]

theorem ascii_escapeChar (c : Char) : Ascii (escapeChar c) := by
  have he := escaped_escapeChar c
  generalize escapeChar c = cs at he
  cases he with
  | simple _ ha => simp [ha]
  | plain _ _ _ h => simpa using Nat.lt_succ_of_lt h
  | unit => exact ascii_unitEscape _
  | pair => simp [ascii_unitEscape]

theorem ascii_stringChars (s : String) : Ascii (stringChars s) := by
  have hbody : Ascii (s.toList.flatMap escapeChar) := by
    intro d hd
    obtain ⟨c, -, hd⟩ := List.mem_flatMap.mp hd
    exact ascii_escapeChar c d hd
  simp [stringChars, hbody]

theorem ascii_intChars (i : Int) : Ascii (intChars i) := by
  have hdigits : Ascii (Nat.toDigits 10 i.natAbs) := by
    intro c hc
    have hdigit : c.isDigit = true := Nat.isDigit_of_mem_toDigits (by omega) (by omega) hc
    simp only [Char.isDigit, ge_iff_le, Bool.and_eq_true, decide_eq_true_eq,
      UInt32.le_iff_toNat_le] at hdigit
    exact Nat.lt_of_le_of_lt hdigit.2 (by decide)
  unfold intChars
  split
  · simp [hdigits]
  · exact hdigits

theorem ascii_newLine (level : Nat) : Ascii (newLine level) := by
  have hblanks : Ascii (List.replicate (2 * level) ' ') := by
    intro c hc
    rw [List.eq_of_mem_replicate hc]
    decide
  simp [newLine, hblanks]

theorem ascii_renderItems {level : Nat} {items : List Json}
    (h : ∀ v ∈ items, Ascii (renderAt level v)) : Ascii (renderItems level items) := by
  induction items with
  | nil => simp [renderItems]
  | cons item items ih =>
    simp [renderItems, ascii_newLine, h item (by simp), ih fun v hv => h v (by simp [hv])]

theorem ascii_renderMembers {level : Nat} {ms : List (String × Json)}
    (h : ∀ m ∈ ms, Ascii (renderAt level m.2)) : Ascii (renderMembers level ms) := by
  induction ms with
  | nil => simp [renderMembers]
  | cons m ms ih =>
    simp [renderMembers, ascii_newLine, ascii_stringChars, h m (by simp),
      ih fun v hv => h v (by simp [hv])]

theorem Plain.ascii {v : Json} (h : v.Plain) (level : Nat) : Ascii (renderAt level v) := by
  induction h generalizing level with
  | null => simp [renderAt]
  | bool b => cases b <;> simp [renderAt]
  | int i => simp [renderAt, ascii_intChars]
  | str s => simp [renderAt, ascii_stringChars]
  | @arr items _ ih =>
    cases items with
    | nil => simp [renderAt]
    | cons item items =>
      have hitems : Ascii (renderItems (level + 1) items) :=
        ascii_renderItems fun v hv => ih v (by simp [hv]) _
      simp [renderAt, ascii_newLine, ih item (by simp), hitems]
  | @obj ms _ _ ih =>
    cases ms with
    | nil => simp [renderAt]
    | cons m ms =>
      have hmembers : Ascii (renderMembers (level + 1) ms) :=
        ascii_renderMembers fun m' hm => ih m' (by simp [hm]) _
      simp [renderAt, ascii_newLine, ascii_stringChars, ih m (by simp), hmembers]

/-- A value without floating-point numbers and without double keys is what its text is read as. -/
theorem parse_render {v : Json} (h : v.Plain) : parse v.render = some v := parse_of_reads h h.reads

theorem ascii_render {v : Json} (h : v.Plain) : Ascii v.render.toList := by
  rw [render, String.toList_ofList]
  exact h.ascii 0

/-- A report in JSON is ASCII text that is read as the report, members in their order. -/
theorem render_json_read_back {v : Json} (h : v.Plain) :
    ∃ text, Report.Format.render v .json = .ok text ∧ parse text = some v ∧
      ∀ c ∈ text.toList, c.toNat < 128 :=
  ⟨v.render, rfl, parse_render h, ascii_render h⟩

/-- A value with members out of order, empty parts, a negative number, and a key with a quote mark,
a line break, a control character and a character beyond the basic plane. -/
def mixedValue : Json :=
  .obj [("b\"\n\u0001𝄞", .arr [.int (-120), .arr [], .obj [], .bool true]),
    ("a", .obj [("", .null), ("a", .str "\\é")])]

theorem mixedValue_read_back : mixedValue.Plain ∧
    ∃ text, Report.Format.render mixedValue .json = .ok text ∧ parse text = some mixedValue ∧
      ∀ c ∈ text.toList, c.toNat < 128 := by
  have hp : mixedValue.Plain := by simp [mixedValue]
  exact ⟨hp, render_json_read_back hp⟩

end SinkAudit.Json
