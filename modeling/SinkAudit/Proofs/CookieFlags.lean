import Mathlib.Data.List.Sublists
import SinkAudit.Check.Run
import SinkAudit.Proofs.Completion
import SinkAudit.Proofs.Finds
import SinkAudit.Proofs.PlainOptions

/-! # Cookies that a server sets

A call that sets a cookie with an object of options is reported if the text of the object lacks a
flag, and the message lists the flags that it lacks. That need not be the flags that no pair of the
object sets: a key between quote marks is not seen, and a comment or a string may name a flag. Of
options that are written plainly it is (`run_reports_unspelt_flags`). -/
namespace SinkAudit.Check.Cookie
open Text.Along

section
variable {c : Check} {s : Source} {m : Memory} {i o : Nat} {name : String}

def pairTexts (s : Source) (o : Nat) : List (List Char × List Char) :=
  ((s.tree.children o).filter fun j => s.tree.kind j == .pair).map fun j =>
    ((s.textOf (s.tree.child? j .key)).toList, (s.textOf (s.tree.child? j .value)).toList)

/-- A pair of the object has the key of the flag, plain or between quote marks, and sets it. -/
def SetByPair (s : Source) (o : Nat) (name : String) : Prop :=
  ∃ pair ∈ pairTexts s o, IsValue name pair.2 ∧
    (pair.1 = name.toList ∨ ∃ q ∈ quotes, pair.1 = q :: name.toList ++ [q])

instance (s : Source) (o : Nat) (name : String) : Decidable (SetByPair s o name) :=
  inferInstanceAs (Decidable (∃ pair ∈ pairTexts s o, IsValue name pair.2 ∧
    (pair.1 = name.toList ∨ ∃ q ∈ quotes, pair.1 = q :: name.toList ++ [q])))

/-- The text of the object is laid out plainly, and its pairs are the members. -/
def PlainObject (s : Source) (o : Nat) : Prop :=
  ∃ head entries, LaidOut (s.text o).toList head entries ∧
    pairTexts s o = entries.map fun e => (e.key, e.value)

theorem PlainObject.speltIn_iff (h : PlainObject s o) (hn : name ∈ flagNames) :
    SpeltIn (s.text o).toList name ↔ SetByPair s o name := by
  obtain ⟨head, entries, hlaid, hpairs⟩ := h
  rw [hlaid.speltIn_iff hn, SetByPair, hpairs]
  simp only [List.mem_map, exists_exists_and_eq_and]
  constructor
  · rintro ⟨e, he, hkey, hvalue⟩
    exact ⟨e, he, hvalue, .inl hkey⟩
  · rintro ⟨e, he, hvalue, hkey | ⟨q, hq, hkey⟩⟩
    · exact ⟨e, he, hkey, hvalue⟩
    · have hword := ((hlaid.plain e he).key_word q (by simp [hkey])).2
      rw [(stop_of_mem_quotes hq).1.2] at hword
      cases hword

/-- A call sets a cookie through a response, with an object of options, and is not to be ignored. -/
structure SetsCookie (c : Check) (s : Source) (i o : Nat) : Prop where
  call : s.tree.kind i = .callExpression
  method : (s.callTarget i).method = some "cookie"
  response : isResponse (s.callTarget i).object = true
  options : ∃ name value third more, s.tree.callArguments i = name :: value :: third :: more ∧
    s.tree.unwrap third = o
  object : s.tree.kind o = .object
  kept : c.ignores [some (s.text i)] = false

theorem SetsCookie.flagsLeftOut_eq (h : SetsCookie c s i o) :
    flagsLeftOut s (s.tree.callArguments i) = missingFlags (s.text o) := by
  obtain ⟨name, value, third, more, hargs, hthird⟩ := h.options
  simp [hargs, flagsLeftOut, hthird, h.object]

def missingMessage (missing : List String) : String :=
  "Cookie set without " ++ ", ".intercalate missing

theorem SetsCookie.finds_eq (h : SetsCookie c s i o) (hk : c.kind = .cookie) :
    ∃ p risk advice, finds c s m i = .ok (if missingFlags (s.text o) = [] then none else
      some (m.emitter.finding s i p risk (missingMessage (missingFlags (s.text o))) advice)) := by
  have hsink : (Catalog.cookie.sink? "cookie").isSome = true := by decide
  obtain ⟨p, hp⟩ := Option.isSome_iff_exists.mp hsink
  have hp : c.catalog.sink? "cookie" = some p := by
    rw [catalog_of_kind (by simp [hk]), hk]
    exact hp
  refine ⟨p, .classify p .static false, { suggestions := suggest s p i }, ?_⟩
  have hhandle : handle c s m i = handleCall c s m i := by
    simp [handle, hk, h.call, Kind.isCall]
  rw [finds, hhandle, handleCall, h.flagsLeftOut_eq, hp]
  generalize missingFlags (s.text o) = missing
  simp only [h.call, h.method, h.response, h.kept]
  cases missing with
  | nil => rfl
  | cons first more =>
    have hverdict : verdictOn? c s i
        { sink := some p, reportStatic := true, message := some (missingMessage (first :: more)) } =
          some .static := rfl
    have hreply := reply_of_some (m := m) hverdict
    have hfinding : findingFor c s m i
        { sink := some p, reportStatic := true, message := some (missingMessage (first :: more)) }
          .static = .ok (m.emitter.finding s i p (.classify p .static false)
            (missingMessage (first :: more)) { suggestions := suggest s p i }) := by
      have hne : (missingMessage (first :: more)).isEmpty = false :=
        isEmpty_append_of_ne (by decide) _
      simp [findingFor, Option.filter, hne, Check.suggest, hk, bind, Except.bind, pure, Except.pure]
    rw [hfinding] at hreply
    exact hreply

/-- What is found at a call that sets a cookie: the flags that do not stand in the text of the
options, in order, and nothing if there are none. If the options are written plainly they are the
flags that no pair sets. -/
structure Flagged (c : Check) (s : Source) (e : Emitter) (i : Nat) (f : Option Finding) : Prop where
  located : ∀ g ∈ f, About s e i g
  flags : ∀ o, SetsCookie c s i o → ∃ missing, missing.Sublist flagNames ∧
    (∀ name ∈ flagNames, name ∈ missing ↔ ¬ SpeltIn (s.text o).toList name) ∧
    (PlainObject s o → ∀ name ∈ flagNames, name ∈ missing ↔ ¬ SetByPair s o name) ∧
    (f = none ↔ missing = []) ∧ ∀ g ∈ f, g.message = missingMessage missing

theorem ends_flagged (hk : c.kind = .cookie) :
    Ends (Fails s.tree) (Flagged c s m.emitter i) (finds c s m i) := by
  refine (finds_ends c s m i).imp fun f hf => ⟨hf.2, fun o h => ?_⟩
  obtain ⟨p, risk, advice, hfinds⟩ := h.finds_eq (m := m) hk
  have hf := Except.ok.inj (hf.1.symm.trans hfinds)
  refine ⟨missingFlags (s.text o), missingFlags_sublist _, ?_, ?_, ?_, ?_⟩
  · exact fun name hn => mem_missingFlags _ hn
  · intro hplain name hn
    rw [mem_missingFlags _ hn, hplain.speltIn_iff hn]
  · rw [hf]
    split <;> simp_all
  · intro g hg
    rw [hf] at hg
    split at hg
    · cases hg
    · cases hg
      rfl

end

/-- At every call that sets a cookie with an object of options the run reports the flags that do not
stand in the text of the object, and nothing if all do. -/
theorem run_reports_unspelt_flags (c : Check) (hk : c.kind = .cookie) (s : Source) (path : Path)
    (hs : c.skips path = false) (m : Memory) :
    Ends (Fails s.tree) (fun m' => ∃ fs, m'.emitter.findings = fs.reduceOption ∧
      List.Forall₂ (Flagged c s (m.emitter.reset path)) s.tree.all fs) (run c s path m) := by
  refine run_each (by simp [hk]) hs fun i _ => ?_
  rw [← begun_emitter c s path m]
  exact ends_flagged hk

/-- The file `res.cookie(a,b,{ httpOnly : true, sameSite:'Lax'})`. -/
def plainOptions : Source where
  bytes := "res.cookie(a,b,\x7b httpOnly : true, sameSite:'Lax'\x7d)".toUTF8.data
  tree := ⟨#[
    { kind := .program, start := 0, stop := 50 },
    { kind := .callExpression, start := 0, stop := 50, parent := some 0 },
    { kind := .memberExpression, start := 0, stop := 10, parent := some 1, field := some .callee },
    { kind := .identifier, start := 0, stop := 3, parent := some 2, field := some .object },
    { kind := .propertyIdentifier, start := 4, stop := 10, parent := some 2
      field := some .property },
    { kind := .arguments, start := 10, stop := 50, parent := some 1, field := some .arguments },
    { kind := .identifier, start := 11, stop := 12, parent := some 5 },
    { kind := .identifier, start := 13, stop := 14, parent := some 5 },
    { kind := .object, start := 15, stop := 49, parent := some 5 },
    { kind := .pair, start := 17, stop := 32, parent := some 8 },
    { kind := .propertyIdentifier, start := 17, stop := 25, parent := some 9, field := some .key },
    { kind := .trueLiteral, start := 28, stop := 32, parent := some 9, field := some .value },
    { kind := .pair, start := 34, stop := 48, parent := some 8 },
    { kind := .propertyIdentifier, start := 34, stop := 42, parent := some 12, field := some .key },
    { kind := .stringLiteral, start := 43, stop := 48, parent := some 12, field := some .value }]⟩

theorem plainOptions_plain : PlainObject plainOptions 8 :=
  ⟨"\x7b ".toList, [⟨"httpOnly".toList, [' '], [' '], "true".toList, ", ".toList⟩,
    ⟨"sameSite".toList, [], [], "'Lax'".toList, "\x7d".toList⟩], by decide +kernel,
    by decide +kernel⟩

/-- Two pairs of the options, which are written plainly, set two flags; the third is reported. -/
theorem plainOptions_flagged :
    let c := Check.ofKind .cookie
    let path : Path := { parts := ["a.js"] }
    SetsCookie c plainOptions 1 8 ∧ PlainObject plainOptions 8 ∧
      ∃ m, run c plainOptions path c.fresh = .ok m ∧
        ∃ fs : List (Option Finding), m.emitter.findings = fs.reduceOption ∧
          ∃ f, (1, some f) ∈ plainOptions.tree.all.zip fs ∧
            f.message = "Cookie set without secure" := by
  intro c path
  have hcall : SetsCookie c plainOptions 1 8 :=
    ⟨rfl, by decide +kernel, by decide +kernel, ⟨6, 7, 8, [], by decide +kernel, by decide +kernel⟩,
      rfl, by decide +kernel⟩
  obtain ⟨m, hrun, fs, hfindings, hfs⟩ := Targeted.exists_ok (by decide +kernel)
    (run_reports_unspelt_flags c rfl plainOptions path (by decide) c.fresh)
  obtain ⟨f, hzip, hf⟩ := exists_zip_of_each (i := 1) hfs (by decide +kernel)
  obtain ⟨missing, hsub, _, hmem, hnone, hmessage⟩ := hf.flags 8 hcall
  have hset : ∀ name ∈ flagNames, SetByPair plainOptions 8 name ↔ name ≠ "secure" := by
    decide +kernel
  have hsecure : ∀ name ∈ flagNames, name ∈ missing ↔ name = "secure" := by
    intro name hn
    rw [hmem plainOptions_plain name hn, hset name hn, not_not]
  have hall : ∀ missing ∈ flagNames.sublists,
      (∀ name ∈ flagNames, name ∈ missing ↔ name = "secure") → missing = ["secure"] := by decide
  obtain rfl := hall missing (List.mem_sublists.mpr hsub) hsecure
  cases f with
  | none => simp at hnone
  | some f => exact ⟨hcall, plainOptions_plain, m, hrun, fs, hfindings, f, hzip, hmessage f rfl⟩

/-- The file `res.cookie(a,b,{'httpOnly':true/*secure:true*/})`. -/
def quotedOptions : Source where
  bytes := "res.cookie(a,b,\x7b'httpOnly':true/*secure:true*/\x7d)".toUTF8.data
  tree := ⟨#[
    { kind := .program, start := 0, stop := 48 },
    { kind := .callExpression, start := 0, stop := 48, parent := some 0 },
    { kind := .memberExpression, start := 0, stop := 10, parent := some 1, field := some .callee },
    { kind := .identifier, start := 0, stop := 3, parent := some 2, field := some .object },
    { kind := .propertyIdentifier, start := 4, stop := 10, parent := some 2
      field := some .property },
    { kind := .arguments, start := 10, stop := 48, parent := some 1, field := some .arguments },
    { kind := .identifier, start := 11, stop := 12, parent := some 5 },
    { kind := .identifier, start := 13, stop := 14, parent := some 5 },
    { kind := .object, start := 15, stop := 47, parent := some 5 },
    { kind := .pair, start := 16, stop := 31, parent := some 8 },
    { kind := .stringLiteral, start := 16, stop := 26, parent := some 9, field := some .key },
    { kind := .trueLiteral, start := 27, stop := 31, parent := some 9, field := some .value },
    { kind := .comment, start := 31, stop := 46, parent := some 8 }]⟩

/-- A pair with a quoted key sets one flag, and a comment names another: the first is reported, the
second is not. -/
theorem quotedOptions_misjudged :
    let c := Check.ofKind .cookie
    let path : Path := { parts := ["a.js"] }
    SetsCookie c quotedOptions 1 8 ∧ SetByPair quotedOptions 8 "httpOnly" ∧
      ¬ SetByPair quotedOptions 8 "secure" ∧
      (run c quotedOptions path c.fresh).map (fun m => m.emitter.findings.map (·.message)) =
        .ok ["Cookie set without httpOnly, sameSite"] := by
  intro c path
  have hcall : SetsCookie c quotedOptions 1 8 :=
    ⟨rfl, by decide +kernel, by decide +kernel, ⟨6, 7, 8, [], by decide +kernel, by decide +kernel⟩,
      rfl, by decide +kernel⟩
  exact ⟨hcall, by decide +kernel, by decide +kernel, by decide +kernel⟩

end SinkAudit.Check.Cookie
