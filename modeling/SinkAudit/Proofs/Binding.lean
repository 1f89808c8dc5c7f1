import SinkAudit.Proofs.Extension

/-! # Last bindings

Of several bindings of a name the last counts, but two maps are made of them: the one of modules
from all bindings, the one of members from those that name a member. So the two are about the same
binding if the last binding of the name is to a member, and drift apart if it is to a whole module
and an earlier one is to a member: a call of the name is then taken for a call of that member of the
other module (`maps_follow_last_bindings`). -/
namespace SinkAudit

/-! ## Last elements -/

section
variable {α : Type} {p q : α → Prop} {l : List α} {a b : α}

/-- The last element of a list that has a property. -/
def IsLast (p : α → Prop) (l : List α) (a : α) : Prop :=
  p a ∧ ∃ before after, l = before ++ a :: after ∧ ∀ b ∈ after, ¬ p b

theorem isLast_iff_find? [DecidablePred p] :
    IsLast p l a ↔ l.reverse.find? (fun b => decide (p b)) = some a := by
  rw [List.find?_eq_some_iff_append, IsLast, decide_eq_true_eq]
  refine and_congr_right fun _ => ?_
  constructor
  · rintro ⟨before, after, rfl, hafter⟩
    exact ⟨after.reverse, before.reverse, by simp, by simpa using hafter⟩
  · rintro ⟨after, before, hl, hafter⟩
    refine ⟨before.reverse, after.reverse, ?_, by simpa using hafter⟩
    rw [← List.reverse_reverse l, hl]
    simp

theorem IsLast.mem (h : IsLast p l a) : a ∈ l := by
  obtain ⟨_, before, after, rfl, _⟩ := h
  simp

theorem IsLast.unique (ha : IsLast p l a) (hb : IsLast p l b) : a = b := by
  classical
  exact Option.some.inj ((isLast_iff_find?.mp ha).symm.trans (isLast_iff_find?.mp hb))

/-- The last element with a property is also the last with a stronger one that it has. -/
theorem IsLast.strengthen (h : IsLast p l a) (hqp : ∀ b, q b → p b) (hq : q a) : IsLast q l a := by
  obtain ⟨_, before, after, hl, hafter⟩ := h
  exact ⟨hq, before, after, hl, fun b hb hqb => hafter b hb (hqp b hqb)⟩

theorem exists_isLast (h : a ∈ l) (hp : p a) : ∃ b, IsLast p l b := by
  classical
  have hsome : (l.reverse.find? fun b => decide (p b)).isSome = true := by
    rw [List.find?_isSome]
    exact ⟨a, List.mem_reverse.mpr h, decide_eq_true hp⟩
  obtain ⟨b, hb⟩ := Option.isSome_iff_exists.mp hsome
  exact ⟨b, isLast_iff_find?.mpr hb⟩

end

/-! ## The two maps -/

/-- The member that a name is bound to, unless it is bound to the module. -/
def Binding.named? (b : Binding) : Option String := Source.solid b.member

namespace Source
variable {s : Source} {name origin member method : String} {b : Binding}

def LastBinding (s : Source) (name : String) : Binding → Prop :=
  IsLast (fun b => b.name = name) s.bindings

/-- The last binding of a name to a member. -/
def LastMember (s : Source) (name : String) : Binding → Prop :=
  IsLast (fun b => b.name = name ∧ b.named?.isSome = true) s.bindings

theorem lastFor_moduleNames_iff :
    lastFor name s.moduleNames = some origin ↔ ∃ b, s.LastBinding name b ∧ b.origin = origin := by
  have hfind : lastFor name s.moduleNames =
      (s.bindings.reverse.find? fun b => decide (b.name = name)).map (·.origin) := by
    rw [lastFor, moduleNames, ← List.map_reverse, List.find?_map, Option.map_map]
    rfl
  rw [hfind, Option.map_eq_some_iff]
  refine exists_congr fun b => and_congr_left fun _ => ?_
  rw [LastBinding, isLast_iff_find?]

theorem lastFor_memberNames_iff :
    lastFor name s.memberNames = some member ↔
      ∃ b, s.LastMember name b ∧ b.named? = some member := by
  have hfind : lastFor name s.memberNames =
      (s.bindings.reverse.find? fun b => decide (b.name = name ∧ b.named?.isSome = true)).bind
        (·.named?) := by
    rw [lastFor, memberNames, ← List.filterMap_reverse, List.find?_filterMap, Option.map_bind]
    have hentry (b : Binding) : ((solid b.member).map (b.name, ·)).any (·.1 == name) =
        decide (b.name = name ∧ b.named?.isSome = true) := by
      rw [Binding.named?]
      cases solid b.member with
      | none => simp
      | some member => simp [beq_eq_decide]
    have hvalue (b : Binding) :
        ((solid b.member).map (b.name, ·)).map (·.2) = b.named? := by
      rw [Binding.named?, Option.map_map]
      exact Option.map_id'
    simp only [hentry, Function.comp_def, hvalue]
  rw [hfind, Option.bind_eq_some_iff]
  refine exists_congr fun b => and_congr_left fun _ => ?_
  rw [LastMember, isLast_iff_find?]

theorem lastFor_memberNames_eq_none_iff :
    lastFor name s.memberNames = none ↔ ∀ b ∈ s.bindings, b.name = name → b.named? = none := by
  constructor
  · intro h b hb hname
    refine Option.eq_none_iff_forall_not_mem.mpr fun member hm => ?_
    obtain ⟨b', hl⟩ : ∃ b', s.LastMember name b' :=
      exists_isLast hb ⟨hname, Option.isSome_iff_exists.mpr ⟨member, hm⟩⟩
    obtain ⟨member', hm'⟩ := Option.isSome_iff_exists.mp hl.1.2
    cases h.symm.trans (lastFor_memberNames_iff.mpr ⟨b', hl, hm'⟩)
  · intro h
    refine Option.eq_none_iff_forall_not_mem.mpr fun member hmember => ?_
    obtain ⟨b, hl, hm⟩ := lastFor_memberNames_iff.mp hmember
    cases (h b hl.mem hl.1.1).symm.trans hm

/-- Where the last binding of a name is to a member, it is the last to a member. -/
theorem LastBinding.lastMember (h : s.LastBinding name b) (hb : b.named?.isSome = true) :
    s.LastMember name b :=
  IsLast.strengthen h (fun _ hq => hq.1) ⟨h.1, hb⟩

/-- What a name is taken to stand for, given its last binding. -/
inductive TakenFor (s : Source) (name : String) (b : Binding) : String → Prop
  /-- The member that the binding names. -/
  | bound {member : String} (h : b.named? = some member) : TakenFor s name b member
  /-- The member that an earlier binding names, of whatever module. -/
  | earlier {b' : Binding} {member : String} (h : b.named? = none) (hl : s.LastMember name b')
      (hm : b'.named? = some member) : TakenFor s name b member
  /-- Itself, if no binding of it names a member. -/
  | itself (h : ∀ b' ∈ s.bindings, b'.name = name → b'.named? = none) : TakenFor s name b name

end Source

/-! ## Calls of bound names -/

theorem mem_settled {entries : List (String × String)} {name value : String} :
    (name, value) ∈ settled entries ↔ lastFor name entries = some value := by
  constructor
  · intro h
    obtain ⟨n, _, hn⟩ := List.mem_filterMap.mp h
    obtain ⟨v, hv, he⟩ := Option.map_eq_some_iff.mp hn
    cases he
    exact hv
  · intro h
    refine List.mem_filterMap.mpr ⟨name, ?_, by rw [h]; rfl⟩
    obtain ⟨entry, he, _⟩ := Option.map_eq_some_iff.mp h
    have hname : entry.1 = name := by simpa using List.find?_some he
    have hmem : entry ∈ entries := List.mem_reverse.mp (List.mem_of_find?_eq_some he)
    -- the names are sorted and none is kept twice, but none is lost
    refine List.mem_mergeSort.mpr (mem_addSteps.mpr (.inr ?_))
    exact List.mem_map.mpr ⟨entry, hmem, hname⟩

namespace Check.Command
variable {c : Check} {s : Source} {m : Memory} {i f : Nat} {name method : String} {b : Binding}

theorem mem_aliasesIn :
    name ∈ aliasesIn s ↔ ∃ b, s.LastBinding name b ∧ b.origin ∈ processModules := by
  have hentry : name ∈ aliasesIn s ↔
      ∃ origin, lastFor name s.moduleNames = some origin ∧ origin ∈ processModules := by
    simp only [aliasesIn, List.mem_filterMap, Prod.exists, Option.ite_none_right_eq_some,
      mem_settled, List.contains_iff_mem, Option.some.injEq]
    constructor
    · rintro ⟨n, origin, hl, ho, rfl⟩
      exact ⟨origin, hl, ho⟩
    · rintro ⟨origin, hl, ho⟩
      exact ⟨name, origin, hl, ho, rfl⟩
  rw [hentry]
  constructor
  · rintro ⟨origin, hl, ho⟩
    obtain ⟨b, hb, rfl⟩ := Source.lastFor_moduleNames_iff.mp hl
    exact ⟨b, hb, ho⟩
  · rintro ⟨b, hb, ho⟩
    exact ⟨b.origin, Source.lastFor_moduleNames_iff.mpr ⟨b, hb, rfl⟩, ho⟩

theorem takenFor_iff (hb : s.LastBinding name b) :
    s.TakenFor name b method ↔ method = standsFor s name := by
  have hstands {member : String} {b' : Binding} (hl : s.LastMember name b')
      (hm : b'.named? = some member) : standsFor s name = member := by
    rw [standsFor, Source.lastFor_memberNames_iff.mpr ⟨b', hl, hm⟩]
    rfl
  constructor
  · intro h
    cases h with
    | bound h => exact (hstands (hb.lastMember (by simp [h])) h).symm
    | earlier _ hl hm => exact (hstands hl hm).symm
    | itself h =>
      rw [standsFor, Source.lastFor_memberNames_eq_none_iff.mpr h]
      rfl
  · rintro rfl
    cases hlast : lastFor name s.memberNames with
    | none =>
      rw [standsFor, hlast]
      exact .itself (Source.lastFor_memberNames_eq_none_iff.mp hlast)
    | some member =>
      obtain ⟨b', hl, hm⟩ := Source.lastFor_memberNames_iff.mp hlast
      rw [hstands hl hm]
      cases hown : b.named? with
      | none => exact .earlier hown hl hm
      | some own =>
        obtain rfl : b = b' := (hb.lastMember (by simp [hown])).unique hl
        exact .bound hm

/-- A call of a name runs a command if the last binding of the name is to the process module and the
name is taken for a method that runs commands. -/
theorem runs?_iff_lastBinding (hf : calledNode? s i = some f)
    (hk : s.tree.kind f = .identifier) :
    runs? c s (prepare c s m) i = some method ↔
      s.tree.kind i = .callExpression ∧ method ∈ c.methods ∧
        ∃ b, s.LastBinding (s.text f) b ∧ b.origin ∈ processModules ∧
          s.TakenFor (s.text f) b method := by
  rw [runs?_of_identifier rfl hf hk, Option.filter_eq_some_iff, Option.ite_none_right_eq_some,
    mem_aliasesIn]
  simp only [Bool.and_true, Bool.and_eq_true, beq_iff_eq, List.contains_iff_mem,
    Option.some.injEq]
  constructor
  · rintro ⟨⟨⟨b, hb, ho⟩, hm⟩, hcall, hmethod⟩
    exact ⟨hcall, hmethod, b, hb, ho, (takenFor_iff hb).mpr hm.symm⟩
  · rintro ⟨hcall, hmethod, b, hb, ho, hm⟩
    exact ⟨⟨⟨b, hb, ho⟩, ((takenFor_iff hb).mp hm).symm⟩, hcall, hmethod⟩

/-- The map of modules is about the last binding of each name. The map of members is about the same
binding if that one names a member, and only then. A call of a bare name is taken for a method of
the process module if the last binding of the name is to that module and names the method; but if it
names none, also if an earlier binding to any module names the method, or if no binding of the name
names a member and the name is that of the method. -/
theorem maps_follow_last_bindings (s : Source) (name : String) :
    (∀ origin, lastFor name s.moduleNames = some origin ↔
      ∃ b, s.LastBinding name b ∧ b.origin = origin) ∧
    (∀ member, lastFor name s.memberNames = some member →
      ∃ b, s.LastBinding name b ∧ lastFor name s.moduleNames = some b.origin ∧
        (b.named? = some member ↔ b.named?.isSome = true)) ∧
    ∀ (c : Check) (m : Memory) (i f : Nat) (method : String), calledNode? s i = some f →
      s.tree.kind f = .identifier → s.text f = name →
      (runs? c s (prepare c s m) i = some method ↔
        s.tree.kind i = .callExpression ∧ method ∈ c.methods ∧
          ∃ b, s.LastBinding name b ∧ b.origin ∈ processModules ∧ s.TakenFor name b method) := by
  refine ⟨fun origin => Source.lastFor_moduleNames_iff, fun member hmember => ?_, ?_⟩
  · obtain ⟨b', hl, hm⟩ := Source.lastFor_memberNames_iff.mp hmember
    obtain ⟨b, hb⟩ : ∃ b, s.LastBinding name b := exists_isLast hl.mem hl.1.1
    refine ⟨b, hb, Source.lastFor_moduleNames_iff.mpr ⟨b, hb, rfl⟩, ?_⟩
    constructor
    · intro h
      rw [h]
      rfl
    · intro h
      obtain rfl : b = b' := (hb.lastMember h).unique hl
      exact hm
  · rintro c m i f method hf hk rfl
    exact runs?_iff_lastBinding hf hk

/-- The file `var{exec:r}=require('x'),r=require('child_process'),{fork:q}=require('child_process')`
with the calls `r(a);q(b)` behind it. -/
def twoNames : Source where
  bytes := ("var\x7bexec:r\x7d=require('x'),r=require('child_process')," ++
    "\x7bfork:q\x7d=require('child_process');r(a);q(b)").toUTF8.data
  tree := ⟨#[
    { kind := .program, start := 0, stop := 95 },
    { kind := .other "variable_declaration", start := 0, stop := 86, parent := some 0 },
    { kind := .variableDeclarator, start := 3, stop := 24, parent := some 1 },
    { kind := .objectPattern, start := 3, stop := 11, parent := some 2, field := some .declared },
    { kind := .pairPattern, start := 4, stop := 10, parent := some 3 },
    { kind := .propertyIdentifier, start := 4, stop := 8, parent := some 4, field := some .key },
    { kind := .identifier, start := 9, stop := 10, parent := some 4, field := some .value },
    { kind := .callExpression, start := 12, stop := 24, parent := some 2, field := some .value },
    { kind := .identifier, start := 12, stop := 19, parent := some 7, field := some .callee },
    { kind := .arguments, start := 19, stop := 24, parent := some 7, field := some .arguments },
    { kind := .stringLiteral, start := 20, stop := 23, parent := some 9 },
    { kind := .variableDeclarator, start := 25, stop := 51, parent := some 1 },
    { kind := .identifier, start := 25, stop := 26, parent := some 11, field := some .declared },
    { kind := .callExpression, start := 27, stop := 51, parent := some 11, field := some .value },
    { kind := .identifier, start := 27, stop := 34, parent := some 13, field := some .callee },
    { kind := .arguments, start := 34, stop := 51, parent := some 13, field := some .arguments },
    { kind := .stringLiteral, start := 35, stop := 50, parent := some 15 },
    { kind := .variableDeclarator, start := 52, stop := 85, parent := some 1 },
    { kind := .objectPattern, start := 52, stop := 60, parent := some 17
      field := some .declared },
    { kind := .pairPattern, start := 53, stop := 59, parent := some 18 },
    { kind := .propertyIdentifier, start := 53, stop := 57, parent := some 19
      field := some .key },
    { kind := .identifier, start := 58, stop := 59, parent := some 19, field := some .value },
    { kind := .callExpression, start := 61, stop := 85, parent := some 17, field := some .value },
    { kind := .identifier, start := 61, stop := 68, parent := some 22, field := some .callee },
    { kind := .arguments, start := 68, stop := 85, parent := some 22, field := some .arguments },
    { kind := .stringLiteral, start := 69, stop := 84, parent := some 24 },
    { kind := .callExpression, start := 86, stop := 90, parent := some 0 },
    { kind := .identifier, start := 86, stop := 87, parent := some 26, field := some .callee },
    { kind := .arguments, start := 87, stop := 90, parent := some 26, field := some .arguments },
    { kind := .identifier, start := 88, stop := 89, parent := some 28 },
    { kind := .callExpression, start := 91, stop := 95, parent := some 0 },
    { kind := .identifier, start := 91, stop := 92, parent := some 30, field := some .callee },
    { kind := .arguments, start := 92, stop := 95, parent := some 30, field := some .arguments },
    { kind := .identifier, start := 93, stop := 94, parent := some 32 }]⟩

theorem bindings_twoNames : twoNames.bindings =
    [{ name := "r", origin := "x", member := some "exec" },
     { name := "r", origin := "child_process" },
     { name := "q", origin := "child_process", member := some "fork" }] := by
  decide +kernel

theorem lastBinding_twoNames_r :
    twoNames.LastBinding "r" { name := "r", origin := "child_process" } := by
  rw [Source.LastBinding, isLast_iff_find?, bindings_twoNames]
  decide

/-- Both maps are about the last binding of `q`, and its call is one of the method that it names. -/
theorem twoNames_second_agrees :
    let c := Check.ofKind .command
    lastFor "q" twoNames.memberNames = some "fork" ∧
      (∃ b, twoNames.LastBinding "q" b ∧ lastFor "q" twoNames.moduleNames = some b.origin ∧
        b.named? = some "fork") ∧
      runs? c twoNames (prepare c twoNames c.fresh) 30 = some "fork" := by
  intro c
  obtain ⟨_, hmember, hcalls⟩ := maps_follow_last_bindings twoNames "q"
  have hlast : twoNames.LastBinding "q"
      { name := "q", origin := "child_process", member := some "fork" } := by
    rw [Source.LastBinding, isLast_iff_find?, bindings_twoNames]
    decide
  have hq : lastFor "q" twoNames.memberNames = some "fork" :=
    Source.lastFor_memberNames_iff.mpr ⟨_, hlast.lastMember (by decide), by decide⟩
  obtain ⟨b, hb, horigin, hnamed⟩ := hmember "fork" hq
  obtain rfl := hb.unique hlast
  refine ⟨hq, ⟨_, hb, horigin, hnamed.mpr rfl⟩, ?_⟩
  refine (hcalls c c.fresh 30 31 "fork" (by decide +kernel) rfl (by decide +kernel)).mpr ?_
  exact ⟨rfl, by decide, _, hb, by decide, .bound (by decide)⟩

/-- The map of members is about the first binding of `r` and not about the last, which is to the
whole module, and the call of `r` is taken for one of `exec`, to which no binding of `r` to the
process module binds it. -/
theorem twoNames_first_drifts :
    let c := Check.ofKind .command
    lastFor "r" twoNames.memberNames = some "exec" ∧
      (∀ b, twoNames.LastBinding "r" b → b.member = none) ∧
      runs? c twoNames (prepare c twoNames c.fresh) 26 = some "exec" ∧
      ∀ b ∈ twoNames.bindings, b.name = "r" → b.origin ∈ processModules →
        b.member ≠ some "exec" := by
  intro c
  have hearlier : twoNames.LastMember "r"
      { name := "r", origin := "x", member := some "exec" } := by
    rw [Source.LastMember, isLast_iff_find?, bindings_twoNames]
    decide
  refine ⟨Source.lastFor_memberNames_iff.mpr ⟨_, hearlier, by decide⟩, fun b hb => ?_, ?_, ?_⟩
  · rw [hb.unique lastBinding_twoNames_r]
  · refine (runs?_iff_lastBinding (f := 27) (by decide +kernel) rfl).mpr ?_
    have htext : twoNames.text 27 = "r" := by decide +kernel
    rw [htext]
    exact ⟨rfl, by decide, _, lastBinding_twoNames_r, by decide,
      .earlier (by decide) hearlier (by decide)⟩
  · rw [bindings_twoNames]
    decide

end Check.Command

end SinkAudit
