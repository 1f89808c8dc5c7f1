import SinkAudit.Proofs.Evaluation
import SinkAudit.Proofs.Shape

/-! # The risk of regular expressions

A regular expression is written out or made by a call, and what is found there is told by a table:
it is critical if what it is made from is tainted and its text has a shape, high if it is tainted
without one, and of medium risk if it is fixed and has a shape or is too long; otherwise it is not
reported. No such table is written down. It comes about from what is asked for at the two kinds of
nodes, from how inquiries are evaluated, and from how sinks are classified; a run holds to it at
every node of a file (`run_grades_expressions`). -/
namespace SinkAudit.Check.Regex

section
variable {c : Check} {s : Source} {m : Memory} {i : Nat} {p : SinkPattern}
  {shape : Option SinkPattern} {v : Verdict} {arguments : List Nat} {long : Bool}

/-! ## The table -/

/-- The risk with which a regular expression is reported, if it is: whether what it is made from is
tainted or fixed, whether its text has a shape, and whether it is too long. -/
structure Graded (tainted fixed shaped long : Prop) (risk : Option Risk) : Prop where
  critical : risk = some .critical ↔ tainted ∧ shaped
  high : risk = some .high ↔ tainted ∧ ¬ shaped
  medium : risk = some .medium ↔ fixed ∧ (shaped ∨ long)
  unreported : risk = none ↔ ¬ tainted ∧ ¬ (fixed ∧ (shaped ∨ long))

theorem Graded.of_due {tainted fixed dangerous shaped long : Prop} {risk : Risk}
    (h : RiskBy tainted dangerous shaped risk) (hd : ¬ dangerous) (hapart : tainted → ¬ fixed)
    (hdue : tainted ∨ fixed ∧ (long ∨ shaped)) : Graded tainted fixed shaped long (some risk) := by
  obtain ⟨hcritical, hhigh, hmedium⟩ := h
  refine ⟨?_, ?_, ?_, ?_⟩
  · rw [Option.some_inj, hcritical]
    grind
  · rw [Option.some_inj, hhigh]
    grind
  · rw [Option.some_inj, hmedium]
    grind
  · simp only [reduceCtorEq, false_iff]
    grind

theorem Graded.of_not_due {tainted fixed shaped long : Prop}
    (hdue : ¬ (tainted ∨ fixed ∧ (long ∨ shaped))) : Graded tainted fixed shaped long none := by
  refine ⟨?_, ?_, ?_, ?_⟩
  all_goals
    simp only [reduceCtorEq, false_iff, true_iff]
    grind

theorem graded_verdictOn? (hp : p.dangerous = false) :
    Graded (Tainted c s i arguments) (Fixed c s i arguments) (shape.isSome = true) (long = true)
      ((verdictOn? c s i (inquiry p arguments shape long)).map
        fun v => .classify p v shape.isSome) := by
  by_cases hdue : Due c s i (inquiry p arguments shape long)
  · obtain ⟨v, hv, ht⟩ := verdictOn?_of_due hdue
    rw [hv]
    exact .of_due (riskBy_classify ht p shape.isSome) (by simp [hp]) Tainted.not_fixed hdue
  · rw [verdictOn?_of_not_due hdue]
    exact .of_not_due hdue

/-! ## What a finding says -/

/-- A finding names a shape, and the fix for the shape is the first that it advises. -/
structure Names (shape : SinkPattern) (f : Finding) : Prop where
  message : shape.name.toList <:+: f.message.toList
  fix : ∃ step, shape.remediation = [step] ∧ f.remediation.head? = some step

theorem infix_describe {k : SinkPattern} (hm : m.shape = some k) (v : Verdict) :
    k.name.toList <:+: (describe c m p v).toList := by
  unfold describe
  rw [hm]
  cases v.isTainted with
  | true => exact ⟨(p.name ++ " combines a user-influenced pattern with ").toList, [], by simp⟩
  | false =>
    exact ⟨(p.name ++ " contains ").toList, " and may backtrack catastrophically".toList, by simp⟩

/-- What is found where an inquiry about a regular expression is made. -/
theorem reply_inquiry (hk : c.kind = .regex) :
    reply c s m i (some (.evaluate (inquiry p arguments shape long))) =
      .ok ((verdictOn? c s i (inquiry p arguments shape long)).map fun v =>
        m.emitter.finding s i p (.classify p v shape.isSome) (describe c m p v)
          { suggestions
            remediation := shape.map (shapeSteps p)
            alternatives := shape.map (·.safeAlternatives)
            effort := shape.map (·.effort) }) := by
  cases hv : verdictOn? c s i (inquiry p arguments shape long) with
  | none => exact reply_of_none hv
  | some v =>
    rw [reply_of_some hv]
    simp only [findingFor, inquiry, Option.filter_none, Check.describe, Check.suggest, hk]
    rfl

/-! ## Regular expressions in a file -/

/-- A regular expression that comes about at a node and is not ignored: the verdict on what it is
made from, the text in which shapes are looked for, and its value, if that is written out. -/
inductive Compiled (c : Check) (s : Source) (i : Nat) : Verdict → String → Option String → Prop
  /-- A call makes it from the first argument. -/
  | call {first : Nat} {rest : List Nat} (hcall : (s.tree.kind i).isCall = true)
      (hmethod : (s.callTarget i).method = some "RegExp")
      (hobject : ∀ object ∈ (s.callTarget i).object, object ∈ globalObjects)
      (harguments : s.tree.callArguments i = first :: rest)
      (hignored : c.ignores [some (s.text (s.tree.unwrap first))] = false) :
      Compiled c s i (verdictAt c s i (s.tree.unwrap first))
        ((s.stringValue? (s.tree.unwrap first)).getD (s.text (s.tree.unwrap first)))
        (s.stringValue? (s.tree.unwrap first))
  /-- It is written between slashes. -/
  | literal (hkind : s.tree.kind i = .regex)
      (hignored : c.ignores [some (s.textOf (s.tree.child? i .pattern))] = false) :
      Compiled c s i .static (s.textOf (s.tree.child? i .pattern))
        (some (s.textOf (s.tree.child? i .pattern)))

def TooLong (c : Check) (value : Option String) : Prop :=
  ∃ w ∈ value, c.options.maxPatternLength < w.length

theorem any_isLong_iff {value : Option String} :
    value.any (isLong c) = true ↔ TooLong c value := by
  simp [Option.any_eq_true, isLong, TooLong]

/-- What is found at a node follows from the regular expression there. -/
structure Judged (c : Check) (s : Source) (e : Emitter) (i : Nat) (f : Option Finding) : Prop where
  graded : ∀ v text value, Compiled c s i v text value →
    Graded (v.isTainted = true) (v.isDynamic = false)
      ((Catalog.regexShape.sink? text).isSome = true) (TooLong c value) (f.map (·.risk))
  named : ∀ v text value, Compiled c s i v text value →
    ∀ shape ∈ Catalog.regexShape.sink? text, ∀ g ∈ f, Names shape g
  located : ∀ g ∈ f, About s e i g
  unreported : (∀ v text value, ¬ Compiled c s i v text value) → f = none

/-- At a regular expression an inquiry is made about a sink that is not dangerous by itself, into
the value from which it is made. -/
theorem finds_of_compiled {text : String} {value : Option String} (hk : c.kind = .regex)
    (h : Compiled c s i v text value) :
    ∃ p arguments, p.dangerous = false ∧ (v.isTainted = true ↔ Tainted c s i arguments) ∧
      (v.isDynamic = false ↔ Fixed c s i arguments) ∧
      finds c s m i = reply c s { m with shape := Catalog.regexShape.sink? text } i
        (some (.evaluate (inquiry p arguments (Catalog.regexShape.sink? text)
          (value.any (isLong c))))) := by
  have hsinks : ∀ p ∈ Catalog.regexCall, p.dangerous = false := by decide
  cases h with
  | @call first rest hcall hmethod hobject harguments hignored =>
    refine ⟨(callSink? c s i).getD (.generic c.kind.vulnerability "RegExp"), [s.tree.unwrap first],
      ?_, by simp [Tainted], by simp [Fixed], ?_⟩
    · cases hp : callSink? c s i with
      | none => rfl
      | some p =>
        have hmem := List.mem_of_find?_eq_some hp
        rw [catalog_of_kind (by simp [hk]), hk] at hmem
        exact hsinks p hmem
    · have hglobal : (s.callTarget i).isGlobal = true := by
        simpa [CallTarget.isGlobal, Option.all_eq_true] using hobject
      refine finds_of_ok (x := (_, some _)) ?_
      simp only [handle, hk, hcall, if_true, handleCall, harguments, List.head?_cons,
        Option.map_some, hmethod, hglobal, hignored]
      rfl
  | literal hkind hignored =>
    refine ⟨Catalog.regexLiteral, [], rfl, ?_, ?_, ?_⟩
    · simp [Tainted, Verdict.static, Verdict.isTainted]
    · simp [Fixed, Verdict.static]
    · have hhandle : handle c s m i = handleLiteral c s m i := by
        simp only [handle, hk, hkind]
        rfl
      have hfixed : Fixed c s i [] := by simp [Fixed]
      unfold handleLiteral at hhandle
      dsimp only at hhandle
      generalize s.textOf (s.tree.child? i .pattern) = body at hhandle hignored
      generalize Catalog.regexShape.sink? body = shape at hhandle
      simp only [hignored, Bool.false_or] at hhandle
      cases hquiet : shape.isNone && !isLong c body with
      | true =>
        -- nothing is asked for, and asking would bring nothing to light
        simp only [hquiet, if_true] at hhandle
        simp only [Bool.and_eq_true, Option.isNone_iff_eq_none, Bool.not_eq_true'] at hquiet
        rw [finds_of_ok hhandle, reply_inquiry hk, verdictOn?_of_fixed hfixed]
        simp [inquiry, hquiet, reply]
      | false =>
        simp only [hquiet, Bool.false_eq_true, if_false] at hhandle
        exact finds_of_ok hhandle

theorem finds_of_not_compiled (hk : c.kind = .regex)
    (h : ∀ v text value, ¬ Compiled c s i v text value) : finds c s m i = .ok none := by
  suffices hsilent : handle c s m i = m.silent by
    rw [finds_of_ok hsilent]
    rfl
  unfold handle
  simp only [hk]
  split
  · rename_i hcall
    unfold handleCall
    dsimp only
    split
    · rfl
    · rename_i first hfirst
      obtain ⟨a, ha, rfl⟩ := Option.map_eq_some_iff.mp hfirst
      obtain ⟨rest, hrest⟩ := List.head?_eq_some_iff.mp ha
      split
      · rfl
      · rename_i hguard
        simp only [Bool.or_eq_true, not_or, bne_iff_ne, ne_eq, Decidable.not_not,
          Bool.not_eq_true', Bool.not_eq_false, Bool.not_eq_true] at hguard
        obtain ⟨⟨hmethod, hglobal⟩, hignored⟩ := hguard
        refine absurd (.call hcall hmethod ?_ hrest hignored) (h _ _ _)
        simpa [CallTarget.isGlobal, Option.all_eq_true] using hglobal
  · split
    · rename_i hkind
      unfold handleLiteral
      dsimp only
      split
      · rfl
      · rename_i hguard
        simp only [Bool.or_eq_true, not_or, Bool.not_eq_true] at hguard
        exact absurd (.literal (by simpa using hkind) hguard.1) (h _ _ _)
    · rfl

theorem named_finding {k : SinkPattern} (hm : m.shape = some k)
    (hk : k.remediation.length = 1) (e : Emitter) (risk : Risk) (advice : Advice)
    (ha : advice.remediation = some (shapeSteps p k)) :
    Names k (e.finding s i p risk (describe c m p v) advice) := by
  obtain ⟨step, hstep⟩ := List.length_eq_one_iff.mp hk
  refine ⟨infix_describe hm v, step, hstep, ?_⟩
  simp only [Emitter.finding, ha, Option.getD_some, shapeSteps, hstep]
  exact head?_addSteps step [] p.steps

theorem exists_finds {text : String} {value : Option String} (hk : c.kind = .regex)
    (h : Compiled c s i v text value) (hshape : Catalog.regexShape.sink? text = shape) :
    ∃ f, finds c s m i = .ok f ∧
      Graded (v.isTainted = true) (v.isDynamic = false) (shape.isSome = true) (TooLong c value)
        (f.map (·.risk)) ∧
      (∀ k ∈ shape, ∀ g ∈ f, Names k g) ∧ ∀ g ∈ f, About s m.emitter i g := by
  have hfixes : ∀ k ∈ Catalog.regexShape, k.remediation.length = 1 := by decide
  obtain ⟨p, arguments, hp, htainted, hfixed, hfinds⟩ := finds_of_compiled (m := m) hk h
  rw [hshape, reply_inquiry hk] at hfinds
  refine ⟨_, hfinds, ?_, ?_, ?_⟩
  · rw [Option.map_map, htainted, hfixed, ← any_isLong_iff]
    exact graded_verdictOn? hp
  · intro k hkshape g hg
    obtain ⟨v', _, rfl⟩ := Option.map_eq_some_iff.mp hg
    have hmem : k ∈ Catalog.regexShape := List.mem_of_find?_eq_some (hshape.trans hkshape)
    exact named_finding hkshape (hfixes k hmem) _ _ _ (by rw [Option.mem_def.mp hkshape]; rfl)
  · intro g hg
    obtain ⟨v', _, rfl⟩ := Option.map_eq_some_iff.mp hg
    exact ⟨_, _, _, _, rfl⟩

theorem finds_judged (hk : c.kind = .regex) :
    ∃ f, finds c s m i = .ok f ∧ Judged c s m.emitter i f := by
  by_cases h : ∃ v text value, Compiled c s i v text value
  · obtain ⟨v, text, value, hcompiled⟩ := h
    obtain ⟨f, hf, _, _, habout⟩ := exists_finds (m := m) hk hcompiled rfl
    refine ⟨f, hf, ?_, ?_, habout, fun hnot => absurd hcompiled (hnot _ _ _)⟩
    · intro v text value h
      obtain ⟨f', hf', hgraded, _⟩ := exists_finds (m := m) hk h rfl
      rwa [Except.ok.inj (hf.symm.trans hf')]
    · intro v text value h
      obtain ⟨f', hf', _, hnamed, _⟩ := exists_finds (m := m) hk h rfl
      rwa [Except.ok.inj (hf.symm.trans hf')]
  · have hnot : ∀ v text value, ¬ Compiled c s i v text value :=
      fun v text value hc => h ⟨v, text, value, hc⟩
    refine ⟨none, finds_of_not_compiled hk hnot, ?_, ?_, by simp, fun _ => rfl⟩
    · exact fun v text value hc => absurd hc (hnot _ _ _)
    · exact fun v text value hc => absurd hc (hnot _ _ _)

end

/-- A run comes to an end, and at every node it finds what the table says of the regular expression
there: calls that make one from a value that is not ignored, bare or on a global object, and
literals that are not ignored. A finding about one that has a shape names the shape and advises the
fix for it before all else. Nothing is found at other nodes. -/
theorem run_grades_expressions (c : Check) (hk : c.kind = .regex) (s : Source) (path : Path)
    (hs : c.skips path = false) (m : Memory) :
    ∃ m' fs, run c s path m = .ok m' ∧ m'.emitter.findings = fs.reduceOption ∧
      List.Forall₂ (Judged c s (m.emitter.reset path)) s.tree.all fs := by
  have heach : ∀ i ∈ s.tree.all, Ends (fun _ => False) (Judged c s (m.emitter.reset path) i)
      (finds c s (begun c s path m) i) := by
    intro i _
    obtain ⟨f, hf, hjudged⟩ := finds_judged (s := s) (m := begun c s path m) (i := i) hk
    rw [begun_emitter] at hjudged
    rw [hf]
    exact .ok hjudged
  obtain ⟨m', hrun, fs, hfindings, hfs⟩ := (run_each (by simp [hk]) hs heach).exists_ok
  exact ⟨m', fs, hrun, hfindings, hfs⟩

def twoExpressions : Source where
  bytes := "RegExp('(a+)+'+b);/(c|d)*/".toUTF8.data
  tree := ⟨#[
    { kind := .program, start := 0, stop := 26 },
    { kind := .callExpression, start := 0, stop := 17, parent := some 0 },
    { kind := .identifier, start := 0, stop := 6, parent := some 1, field := some .callee },
    { kind := .arguments, start := 6, stop := 17, parent := some 1, field := some .arguments },
    { kind := .binaryExpression, start := 7, stop := 16, parent := some 3 },
    { kind := .stringLiteral, start := 7, stop := 14, parent := some 4, field := some .left },
    { kind := .plus, start := 14, stop := 15, parent := some 4, named := false
      field := some .operator },
    { kind := .identifier, start := 15, stop := 16, parent := some 4, field := some .right },
    { kind := .regex, start := 18, stop := 26, parent := some 0 },
    { kind := .other "regex_pattern", start := 19, stop := 25, parent := some 8
      field := some .pattern }]⟩

theorem isSome_of_occursIn {k : Nat} {text : String} (hk : k < 6)
    (h : ShapeForm.OccursIn k text) : (Catalog.regexShape.sink? text).isSome = true := by
  rw [Option.isSome_iff_ne_none]
  exact fun hnone => Catalog.regexShape_eq_none_iff.mp hnone k hk h

/-- The call is critical, since its argument is computed and has a shape; the literal, which has a
shape as well, is not. -/
theorem twoExpressions_graded :
    let c := Check.ofKind .regex
    let path : Path := { parts := ["a.js"] }
    c.skips path = false ∧ ∃ m, run c twoExpressions path c.fresh = .ok m ∧
      (∃ f ∈ m.emitter.findings, About twoExpressions (c.fresh.emitter.reset path) 1 f ∧
        f.risk = .critical) ∧
      ∃ f ∈ m.emitter.findings, About twoExpressions (c.fresh.emitter.reset path) 8 f ∧
        f.risk = .medium := by
  intro c path
  have hs : c.skips path = false := by decide
  obtain ⟨m, fs, hrun, hfindings, hjudged⟩ :=
    run_grades_expressions c rfl twoExpressions path hs c.fresh
  have hcall : Compiled c twoExpressions 1 _ _ _ :=
    @Compiled.call c twoExpressions 1 4 [] rfl (by decide +kernel) (by decide +kernel)
      (by decide +kernel) rfl
  have hliteral : Compiled c twoExpressions 8 _ _ _ := .literal rfl rfl
  have hcallText : twoExpressions.text (twoExpressions.tree.unwrap 4) = "'(a+)+'+b" := by
    decide +kernel
  have hcallValue : twoExpressions.stringValue? (twoExpressions.tree.unwrap 4) = none := by
    decide +kernel
  have hliteralText : twoExpressions.textOf (twoExpressions.tree.child? 8 .pattern) = "(c|d)*" := by
    decide +kernel
  rw [hcallText, hcallValue, Option.getD_none] at hcall
  rw [hliteralText] at hliteral
  have hcritical : ∀ f, Judged c twoExpressions (c.fresh.emitter.reset path) 1 f →
      f.map (·.risk) = some .critical := by
    intro f hf
    refine (hf.graded _ _ _ hcall).critical.mpr ⟨by decide +kernel, ?_⟩
    refine isSome_of_occursIn (k := 0) (by decide) ⟨_, ⟨['\''], "'+b".toList, ?_⟩,
      .nestedQuantifier (x := ['a']) (q := '+') (by decide) (by decide)⟩
    decide
  have hmedium : ∀ f, Judged c twoExpressions (c.fresh.emitter.reset path) 8 f →
      f.map (·.risk) = some .medium := by
    intro f hf
    refine (hf.graded _ _ _ hliteral).medium.mpr ⟨rfl, .inl ?_⟩
    refine isSome_of_occursIn (k := 2) (by decide) ⟨_, ⟨[], [], ?_⟩,
      .repeatedChoice (x := ['c']) (y := ['d']) (q := '*') (by decide) (by decide) (by decide)⟩
    decide
  obtain ⟨f, hf, hjf⟩ := exists_mem_of_each (i := 1) hjudged (by decide +kernel)
    fun f hf => by simpa using congrArg Option.isSome (hcritical f hf)
  obtain ⟨g, hg, hjg⟩ := exists_mem_of_each (i := 8) hjudged (by decide +kernel)
    fun f hf => by simpa using congrArg Option.isSome (hmedium f hf)
  rw [← hfindings] at hf hg
  exact ⟨hs, m, hrun, ⟨f, hf, hjf.located f rfl, Option.some.inj (hcritical _ hjf)⟩,
    g, hg, hjg.located g rfl, Option.some.inj (hmedium _ hjg)⟩

end SinkAudit.Check.Regex
