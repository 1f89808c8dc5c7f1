import SinkAudit.Check.Run
import SinkAudit.Proofs.Visit

/-! # What an assignment assigns to

Two checks watch assignments, to the address of the page and to cookies. They know the target by its
name, and a name is made of the names in an expression (`Source.keptNames`): what has none is left
out. So an assignment may be watched although its target is more than its name says. That is so
exactly where the target has a gap, such as a call at its root or a computed index
(`asks_iff_kept_names`); without one, the target is spelt by the name, part by part. -/
namespace SinkAudit

/-! ## Joined names -/

def withDots (names : List String) : String := ".".intercalate names

/-- Two names as one, of which either may be empty. -/
def linked (a b : String) : String :=
  if a = "" then b else if b = "" then a else a ++ "." ++ b

section
variable {names more : List String}

theorem withDots_eq_empty (h : "" ∉ names) : withDots names = "" ↔ names = [] := by
  cases names with
  | nil => simp [withDots]
  | cons n rest =>
    have hn : n ≠ "" := fun he => h (by simp [he])
    cases rest with
    | nil => simp [withDots, hn]
    | cons m rest => simp [withDots]

theorem withDots_append (h : "" ∉ names) (hm : "" ∉ more) :
    withDots (names ++ more) = linked (withDots names) (withDots more) := by
  unfold linked
  split
  · rename_i he
    rw [(withDots_eq_empty h).mp he, List.nil_append]
  · rename_i hn
    split
    · rename_i he
      rw [(withDots_eq_empty hm).mp he, List.append_nil]
    · rename_i hm'
      rw [withDots_eq_empty h] at hn
      rw [withDots_eq_empty hm] at hm'
      exact String.intercalate_append_of_ne_nil hn hm'

/-- A text with something before, between and after its dots. -/
def Neat (t : List Char) : Prop :=
  t ≠ [] ∧ t.head? ≠ some '.' ∧ t.getLast? ≠ some '.' ∧ ¬ ['.', '.'] <:+: t

instance (t : List Char) : Decidable (Neat t) := inferInstanceAs (Decidable (_ ∧ _))

/-- An empty name leaves two dots side by side, or one at an end. -/
theorem not_neat_withDots (h : "" ∈ names) : ¬ Neat (withDots names).toList := by
  induction names with
  | nil => cases h
  | cons n rest ih =>
    rintro ⟨hne, hhead, hlast, hinfix⟩
    cases rest with
    | nil =>
      obtain rfl := List.mem_singleton.mp h
      exact hne rfl
    | cons m rest =>
      have hsplit : (withDots (n :: m :: rest)).toList =
          n.toList ++ '.' :: (withDots (m :: rest)).toList := by
        simp [withDots]
      rw [hsplit] at hne hhead hlast hinfix
      by_cases hn : n = ""
      · simp [hn] at hhead
      · have hmem : "" ∈ m :: rest := (List.mem_cons.mp h).resolve_left (Ne.symm hn)
        refine ih hmem ⟨?_, ?_, ?_, ?_⟩
        · intro he
          simp [he] at hlast
        · intro he
          obtain ⟨tail, htail⟩ := List.head?_eq_some_iff.mp he
          exact hinfix ⟨n.toList, tail, by simp [htail]⟩
        · intro he
          rw [List.getLast?_append, List.getLast?_cons, he] at hlast
          simp at hlast
        · intro hi
          exact hinfix (hi.trans ⟨n.toList ++ ['.'], [], by simp⟩)

end

namespace Source
variable {s : Source} {i j : Nat} {names : List String}

theorem solid_of_ne {text : String} (h : text ≠ "") : solid (some text) = some text := by
  simp [solid, h]

theorem empty_not_mem_solid (x : Option String) : "" ∉ (solid x).toList := by
  intro h
  simpa using (Option.filter_eq_some_iff.mp (Option.mem_toList.mp h)).2

theorem withDots_solid (x : Option String) : withDots (solid x).toList = x.getD "" := by
  cases x with
  | none => rfl
  | some t =>
    by_cases ht : t = ""
    · subst ht
      rfl
    · rw [solid_of_ne ht]
      exact String.intercalate_singleton

/-- The names of which the name of an expression is made. What has none adds nothing; between
brackets only a string counts, and only after a name. -/
def keptNames (s : Source) (i : Nat) : List String :=
  if (s.tree.kind i).isName then (solid (some (s.text i))).toList
  else
    let below (f : Field) : List String :=
      ((s.tree.child? i f).attach.map fun j => s.keptNames j.1).getD []
    match s.tree.kind i with
    | .thisKeyword => ["this"]
    | .memberExpression => below .object ++ below .property
    | .subscriptExpression =>
      if (below .object).isEmpty then [] else below .object ++ (solid (s.indexText? i)).toList
    | _ => []
termination_by s.tree.size - i
decreasing_by
  have := Tree.lt_of_child? j.2
  omega

def keptNamesOf (s : Source) (i : Option Nat) : List String := (i.map s.keptNames).getD []

theorem keptNames_eq (s : Source) (i : Nat) :
    s.keptNames i =
      if (s.tree.kind i).isName then (solid (some (s.text i))).toList
      else
        let object := s.keptNamesOf (s.tree.child? i .object)
        match s.tree.kind i with
        | .thisKeyword => ["this"]
        | .memberExpression => object ++ s.keptNamesOf (s.tree.child? i .property)
        | .subscriptExpression =>
          if object.isEmpty then [] else object ++ (solid (s.indexText? i)).toList
        | _ => [] := by
  rw [keptNames]
  have below (f : Field) : ((s.tree.child? i f).attach.map fun j => s.keptNames j.1).getD [] =
      s.keptNamesOf (s.tree.child? i f) := by
    cases h : s.tree.child? i f <;> simp [keptNamesOf]
  simp only [below]

theorem empty_not_mem_keptNamesOf {x : Option Nat} (h : ∀ j ∈ x, "" ∉ s.keptNames j) :
    "" ∉ s.keptNamesOf x := by
  cases x with
  | none => simp [keptNamesOf]
  | some j => exact h j rfl

theorem empty_not_mem_keptNames (s : Source) (i : Nat) : "" ∉ s.keptNames i := by
  induction h : s.tree.size - i using Nat.strongRecOn generalizing i with
  | _ n ih =>
    have hbelow (f : Field) : "" ∉ s.keptNamesOf (s.tree.child? i f) := by
      refine empty_not_mem_keptNamesOf fun j hj => ih _ ?_ j rfl
      have := Tree.lt_of_child? hj
      omega
    rw [keptNames_eq]
    split
    · exact empty_not_mem_solid _
    · dsimp only
      split
      · simp
      · simp [hbelow]
      · split
        · simp
        · simp [hbelow, -Option.mem_toList, empty_not_mem_solid]
      · simp

theorem getD_member (o p : Option String) :
    ((dotted o p).or (firstText o p)).getD "" = linked (o.getD "") (p.getD "") := by
  cases o <;> cases p <;> simp [dotted, firstText, linked] <;> grind

theorem getD_subscript (o x : Option String) :
    ((dotted o x).or o).getD "" =
      if o.getD "" = "" then "" else linked (o.getD "") (x.getD "") := by
  cases o <;> cases x <;> simp [dotted, linked] <;> grind

/-- The name of an expression is its names with dots between; one that has no name counts as having
an empty one. -/
theorem getD_name? (s : Source) (i : Nat) : (s.name? i).getD "" = withDots (s.keptNames i) := by
  induction h : s.tree.size - i using Nat.strongRecOn generalizing i with
  | _ n ih =>
    have hbelow (f : Field) : (s.nameOf? (s.tree.child? i f)).getD "" =
        withDots (s.keptNamesOf (s.tree.child? i f)) := by
      cases hj : s.tree.child? i f with
      | none => rfl
      | some j =>
        have := Tree.lt_of_child? hj
        exact ih _ (by omega) j rfl
    have hsolid (f : Field) : "" ∉ s.keptNamesOf (s.tree.child? i f) :=
      empty_not_mem_keptNamesOf fun j _ => s.empty_not_mem_keptNames j
    rw [name?_eq, keptNames_eq]
    split
    · exact (withDots_solid _).symm
    · dsimp only
      cases s.tree.kind i with
      | memberExpression =>
        rw [getD_member, withDots_append (hsolid _) (hsolid _), hbelow, hbelow]
      | subscriptExpression =>
        dsimp only
        rw [getD_subscript, hbelow]
        by_cases hnil : s.keptNamesOf (s.tree.child? i .object) = []
        · simp [hnil, withDots]
        · rw [if_neg (by rwa [withDots_eq_empty (hsolid _)]), if_neg (by simpa using hnil),
            withDots_append (hsolid _) (empty_not_mem_solid _), withDots_solid]
      | _ => rfl

/-- The expression is an identifier, or accesses that start at one: to properties by name and to
elements by string. Its names are given in the order of the text. -/
inductive Chain (s : Source) : Nat → List String → Prop
  | identifier {i : Nat} (hk : s.tree.kind i = .identifier) : Chain s i [s.text i]
  | member {i object property : Nat} {names : List String} (hk : s.tree.kind i = .memberExpression)
      (ho : s.tree.child? i .object = some object)
      (hp : s.tree.child? i .property = some property)
      (hname : (s.tree.kind property).isName = true) (h : Chain s object names) :
      Chain s i (names ++ [s.text property])
  | element {i object index : Nat} {names : List String} {value : String}
      (hk : s.tree.kind i = .subscriptExpression) (ho : s.tree.child? i .object = some object)
      (hi : s.tree.child? i .index = some index) (hs : s.tree.kind index = .stringLiteral)
      (hv : s.stringValue? index = some value)
      (h : Chain s object names) : Chain s i (names ++ [value])

/-- Somewhere in the expression a name is missing: at its root, after a dot or between brackets
stands something else, a text that is empty, or nothing. -/
inductive HasGap (s : Source) : Nat → Prop
  | root {i : Nat} (hk : (s.tree.kind i).isReference = false) : HasGap s i
  | blank {i : Nat} (hk : s.tree.kind i = .identifier) (h : s.text i = "") : HasGap s i
  | object {i : Nat} (hk : s.tree.kind i = .memberExpression ∨ s.tree.kind i = .subscriptExpression)
      (h : ∀ j ∈ s.tree.child? i .object, HasGap s j) : HasGap s i
  | property {i : Nat} (hk : s.tree.kind i = .memberExpression)
      (h : ∀ j ∈ s.tree.child? i .property, (s.tree.kind j).isName = true → s.text j = "") :
      HasGap s i
  | index {i : Nat} (hk : s.tree.kind i = .subscriptExpression)
      (h : solid (s.indexText? i) = none) : HasGap s i

theorem keptNames_of_isName (hk : (s.tree.kind i).isName = true) (ht : s.text i ≠ "") :
    s.keptNames i = [s.text i] := by
  rw [keptNames_eq, if_pos hk, solid_of_ne ht]
  rfl

/-- Of an expression without a gap no name is left out. -/
theorem chain_of_not_hasGap (h : ¬ s.HasGap i) :
    s.Chain i (s.keptNames i) ∧ s.keptNames i ≠ [] := by
  induction hn : s.tree.size - i using Nat.strongRecOn generalizing i with
  | _ n ih =>
    have hobject (hk : s.tree.kind i = .memberExpression ∨ s.tree.kind i = .subscriptExpression) :
        ∃ object, s.tree.child? i .object = some object ∧ s.Chain object (s.keptNames object) ∧
          s.keptNames object ≠ [] := by
      have hnot := mt (HasGap.object hk) h
      push Not at hnot
      obtain ⟨object, ho, hgap⟩ := hnot
      have := Tree.lt_of_child? ho
      exact ⟨object, ho, ih _ (by omega) hgap rfl⟩
    cases hk : s.tree.kind i with
    | identifier =>
      have ht : s.text i ≠ "" := fun ht => h (.blank hk ht)
      rw [keptNames_of_isName (by rw [hk]; rfl) ht]
      exact ⟨.identifier hk, by simp⟩
    | memberExpression =>
      obtain ⟨object, ho, hchain, hne⟩ := hobject (.inl hk)
      have hnot := mt (HasGap.property hk) h
      push Not at hnot
      obtain ⟨property, hp, hname, ht⟩ := hnot
      have hkept : s.keptNames i = s.keptNames object ++ [s.text property] := by
        rw [keptNames_eq, hk, Option.mem_def.mp ho, Option.mem_def.mp hp,
          ← keptNames_of_isName hname ht]
        rfl
      rw [hkept]
      exact ⟨.member hk ho hp hname hchain, by simp⟩
    | subscriptExpression =>
      obtain ⟨object, ho, hchain, hne⟩ := hobject (.inr hk)
      obtain ⟨value, hv⟩ := Option.ne_none_iff_exists'.mp (mt (HasGap.index hk) h)
      have hkept : s.keptNames i = s.keptNames object ++ [value] := by
        rw [keptNames_eq, hk, Option.mem_def.mp ho, hv]
        simp [keptNamesOf, hne, Kind.isName]
      obtain ⟨index, hindex, hvalue⟩ :=
        Option.bind_eq_some_iff.mp (Option.filter_eq_some_iff.mp hv).1
      obtain ⟨hindex, hstring⟩ := Option.filter_eq_some_iff.mp hindex
      rw [hkept]
      exact ⟨.element hk ho hindex (by simpa using hstring) hvalue hchain, by simp⟩
    | _ => exact absurd (.root (by rw [hk]; rfl)) h

theorem Chain.not_hasGap (h : s.Chain i names) (hne : "" ∉ names) : ¬ s.HasGap i := by
  induction h with
  | @identifier i hk =>
    intro hgap
    cases hgap with
    | root hr => simp [hk, Kind.isReference] at hr
    | blank _ ht => simp [ht] at hne
    | object hr _ => simp [hk] at hr
    | property hr _ => simp [hk] at hr
    | index hr _ => simp [hk] at hr
  | @member i object property names hk ho hp hname _ ih =>
    intro hgap
    cases hgap with
    | root hr => simp [hk, Kind.isReference] at hr
    | blank hr _ => simp [hk] at hr
    | object _ hall => exact ih (by simp_all) (hall object ho)
    | property _ hall => simp [hall property hp hname] at hne
    | index hr _ => simp [hk] at hr
  | @element i object index names value hk ho hi hs hv _ ih =>
    intro hgap
    cases hgap with
    | root hr => simp [hk, Kind.isReference] at hr
    | blank hr _ => simp [hk] at hr
    | object _ hall => exact ih (by simp_all) (hall object ho)
    | property hr _ => simp [hk] at hr
    | index _ hnone =>
      have hindex : s.indexText? i = some value := by simp [indexText?, hi, Option.filter, hs, hv]
      have hvalue : value ≠ "" := by
        rintro rfl
        simp at hne
      rw [hindex, solid_of_ne hvalue] at hnone
      cases hnone

def Spells (s : Source) (i : Nat) (targets : List String) : Prop :=
  ∃ names, s.Chain i names ∧ withDots names ∈ targets

theorem spells_iff_not_hasGap {targets : List String} (ht : ∀ t ∈ targets, Neat t.toList)
    (h : withDots (s.keptNames i) ∈ targets) : s.Spells i targets ↔ ¬ s.HasGap i := by
  constructor
  · rintro ⟨names, hchain, hmem⟩
    exact hchain.not_hasGap fun hempty => not_neat_withDots hempty (ht _ hmem)
  · exact fun hgap => ⟨_, (chain_of_not_hasGap hgap).1, h⟩

theorem name?_eq_some_withDots {targets : List String} (ht : ∀ t ∈ targets, Neat t.toList)
    (h : withDots (s.keptNames i) ∈ targets) : s.name? i = some (withDots (s.keptNames i)) := by
  have hname := s.getD_name? i
  cases hn : s.name? i with
  | none =>
    rw [hn] at hname
    rw [← hname] at h
    exact absurd rfl (ht _ h).1
  | some name =>
    rw [hn] at hname
    exact congrArg some hname

theorem withDots_keptNames_of_name? {name : String} (h : s.name? i = some name) :
    withDots (s.keptNames i) = name := by
  rw [← getD_name?, h]
  rfl

end Source

def Tree.assignee? (t : Tree) (i : Nat) : Option Nat := (t.child? i .left).map t.unwrap

namespace Check

section
variable {c : Check} {s : Source} {m : Memory} {i : Nat}

def watchedTargets : CheckKind → List String
  | .redirect => Redirect.locationTargets
  | .cookie => [Cookie.scriptCookie]
  | _ => []

theorem neat_of_watched (kind : CheckKind) : ∀ t ∈ watchedTargets kind, Neat t.toList := by
  cases kind <;> decide +kernel

def assignmentTexts (kind : CheckKind) (name value : String) : List (Option String) :=
  match kind with
  | .redirect => [some name, some value]
  | _ => [some value]

def Asks (c : Check) (s : Source) (m : Memory) (i : Nat) : Prop :=
  ∃ r, handle c s m i = .ok (m, some r)

theorem not_asks_silent : ¬ ∃ r, m.silent = .ok (m, some r) := by
  rintro ⟨r, h⟩
  cases h

theorem Redirect.asks_iff : (∃ r, Redirect.handleAssignment c s m i = .ok (m, some r)) ↔
    ∃ name ∈ s.nameOf? (s.tree.assignee? i), name ∈ Redirect.locationTargets ∧
      c.ignores [some name, some (s.textOf (s.tree.child? i .right))] = false := by
  unfold Redirect.handleAssignment
  cases hname : Redirect.assignedLocation? s i with
  | none =>
    have hnot := Option.filter_eq_none_iff.mp hname
    refine ⟨fun h => absurd h not_asks_silent, ?_⟩
    rintro ⟨name, hmem, htarget, _⟩
    exact absurd (by simpa using htarget) (hnot name hmem)
  | some name =>
    obtain ⟨hmem, htarget⟩ := Option.filter_eq_some_iff.mp hname
    have htarget : name ∈ Redirect.locationTargets := by simpa using htarget
    dsimp only
    split
    · rename_i hignored
      refine ⟨fun h => absurd h not_asks_silent, ?_⟩
      rintro ⟨name', hmem', _, hnot⟩
      cases Option.mem_unique hmem hmem'
      rw [hignored] at hnot
      cases hnot
    · rename_i hignored
      exact ⟨fun _ => ⟨name, hmem, htarget, by simpa using hignored⟩, fun _ => ⟨_, rfl⟩⟩

theorem Cookie.asks_iff : (∃ r, Cookie.handleAssignment c s m i = .ok (m, some r)) ↔
    s.nameOf? (s.tree.assignee? i) = some Cookie.scriptCookie ∧
      c.ignores [some (s.textOf (s.tree.child? i .right))] = false := by
  unfold Cookie.handleAssignment
  dsimp only
  split
  · rename_i hguard
    refine ⟨fun h => absurd h not_asks_silent, ?_⟩
    rintro ⟨hname, hignored⟩
    simp only [Tree.assignee?] at hname
    simp [hname, hignored] at hguard
  · rename_i hguard
    simp only [Bool.or_eq_true, not_or, bne_iff_ne, ne_eq, not_not, Bool.not_eq_true] at hguard
    exact ⟨fun _ => hguard, fun _ => ⟨_, rfl⟩⟩

theorem asks_iff (hk : c.kind = .redirect ∨ c.kind = .cookie)
    (hi : (s.tree.kind i).isAssignment = true) :
    Asks c s m i ↔
      ∃ name ∈ s.nameOf? (s.tree.assignee? i), name ∈ watchedTargets c.kind ∧
        c.ignores (assignmentTexts c.kind name (s.textOf (s.tree.child? i .right))) = false := by
  have hcall : (s.tree.kind i).isCall = false := by
    cases hkind : s.tree.kind i <;> simp_all [Kind.isAssignment, Kind.isCall]
  unfold Asks handle
  dsimp only
  rcases hk with hk | hk
  · simp only [hk, hcall, hi, if_true, Bool.false_eq_true, if_false]
    exact Redirect.asks_iff
  · simp only [hk, hcall, hi, if_true, Bool.false_eq_true, if_false]
    rw [Cookie.asks_iff]
    simp [watchedTargets, assignmentTexts]

theorem asks_iff_withDots (hk : c.kind = .redirect ∨ c.kind = .cookie)
    (hi : (s.tree.kind i).isAssignment = true) :
    Asks c s m i ↔ ∃ target ∈ s.tree.assignee? i,
      withDots (s.keptNames target) ∈ watchedTargets c.kind ∧
        c.ignores (assignmentTexts c.kind (withDots (s.keptNames target))
          (s.textOf (s.tree.child? i .right))) = false := by
  rw [asks_iff hk hi]
  constructor
  · rintro ⟨name, hname, hmem, hignored⟩
    obtain ⟨target, htarget, hname⟩ := Option.bind_eq_some_iff.mp hname
    cases Source.withDots_keptNames_of_name? hname
    exact ⟨target, htarget, hmem, hignored⟩
  · rintro ⟨target, htarget, hmem, hignored⟩
    refine ⟨_, ?_, hmem, hignored⟩
    rw [Option.mem_def.mp htarget]
    exact Source.name?_eq_some_withDots (neat_of_watched c.kind) hmem

end

/-- An assignment is watched exactly if it is not ignored and the names in its target, with dots
between, are a name that is watched. The target is then spelt by that name, from an identifier on
and by properties and strings between brackets, exactly if it has no gap. -/
theorem asks_iff_kept_names (c : Check) (s : Source) (m : Memory) (i : Nat)
    (hk : c.kind = .redirect ∨ c.kind = .cookie) (hi : (s.tree.kind i).isAssignment = true) :
    (Asks c s m i ↔ ∃ target ∈ s.tree.assignee? i,
      withDots (s.keptNames target) ∈ watchedTargets c.kind ∧
        c.ignores (assignmentTexts c.kind (withDots (s.keptNames target))
          (s.textOf (s.tree.child? i .right))) = false) ∧
    ∀ target ∈ s.tree.assignee? i, Asks c s m i →
      (s.Spells target (watchedTargets c.kind) ↔ ¬ s.HasGap target) := by
  refine ⟨asks_iff_withDots hk hi, fun target htarget h => ?_⟩
  obtain ⟨target', htarget', hmem, _⟩ := (asks_iff_withDots hk hi).mp h
  cases Option.mem_unique htarget htarget'
  exact Source.spells_iff_not_hasGap (neat_of_watched c.kind) hmem

def threeTargets : Source where
  bytes := "window['location'].href=a;f().location=a;location[b]=a".toUTF8.data
  tree := ⟨#[
    { kind := .program, start := 0, stop := 54 },
    { kind := .assignment, start := 0, stop := 25, parent := some 0 },
    { kind := .memberExpression, start := 0, stop := 23, parent := some 1, field := some .left },
    { kind := .subscriptExpression, start := 0, stop := 18, parent := some 2
      field := some .object },
    { kind := .identifier, start := 0, stop := 6, parent := some 3, field := some .object },
    { kind := .stringLiteral, start := 7, stop := 17, parent := some 3, field := some .index },
    { kind := .propertyIdentifier, start := 19, stop := 23, parent := some 2
      field := some .property },
    { kind := .identifier, start := 24, stop := 25, parent := some 1, field := some .right },
    { kind := .assignment, start := 26, stop := 40, parent := some 0 },
    { kind := .memberExpression, start := 26, stop := 38, parent := some 8, field := some .left },
    { kind := .callExpression, start := 26, stop := 29, parent := some 9, field := some .object },
    { kind := .identifier, start := 26, stop := 27, parent := some 10, field := some .callee },
    { kind := .arguments, start := 27, stop := 29, parent := some 10, field := some .arguments },
    { kind := .propertyIdentifier, start := 30, stop := 38, parent := some 9
      field := some .property },
    { kind := .identifier, start := 39, stop := 40, parent := some 8, field := some .right },
    { kind := .assignment, start := 41, stop := 54, parent := some 0 },
    { kind := .subscriptExpression, start := 41, stop := 52, parent := some 15
      field := some .left },
    { kind := .identifier, start := 41, stop := 49, parent := some 16, field := some .object },
    { kind := .identifier, start := 50, stop := 51, parent := some 16, field := some .index },
    { kind := .identifier, start := 53, stop := 54, parent := some 15, field := some .right }]⟩

/-- The first target is the address of the page, part by part, and is watched. -/
theorem threeTargets_first_spelt :
    let c := Check.ofKind .redirect
    Asks c threeTargets c.fresh 1 ∧ threeTargets.Spells 2 (watchedTargets c.kind) ∧
      ¬ threeTargets.HasGap 2 := by
  intro c
  have h := asks_iff_kept_names c threeTargets c.fresh 1 (.inl rfl) rfl
  have hasks : Asks c threeTargets c.fresh 1 :=
    h.1.mpr ⟨2, by decide +kernel, by decide +kernel, by decide +kernel⟩
  have hchain : threeTargets.Chain 2 _ :=
    .member rfl rfl rfl rfl (.element rfl rfl rfl rfl rfl (.identifier rfl))
  have hspelt : threeTargets.Spells 2 (watchedTargets c.kind) := ⟨_, hchain, by decide +kernel⟩
  exact ⟨hasks, hspelt, (h.2 2 (by decide +kernel) hasks).mp hspelt⟩

/-- The others are watched as well, although one starts at a call and the other is any property. -/
theorem threeTargets_others_not_spelt :
    let c := Check.ofKind .redirect
    (Asks c threeTargets c.fresh 8 ∧ ¬ threeTargets.Spells 9 (watchedTargets c.kind)) ∧
      Asks c threeTargets c.fresh 15 ∧ ¬ threeTargets.Spells 16 (watchedTargets c.kind) := by
  intro c
  have hcall : threeTargets.HasGap 9 := by
    refine .object (.inl rfl) fun j hj => ?_
    obtain rfl : 10 = j := Option.some.inj hj
    exact .root rfl
  have hindex : threeTargets.HasGap 16 := .index rfl rfl
  have hfirst : Asks c threeTargets c.fresh 8 := (asks_iff_withDots (.inl rfl) rfl).mpr
    ⟨9, by decide +kernel, by decide +kernel, by decide +kernel⟩
  have hsecond : Asks c threeTargets c.fresh 15 := (asks_iff_withDots (.inl rfl) rfl).mpr
    ⟨16, by decide +kernel, by decide +kernel, by decide +kernel⟩
  refine ⟨⟨hfirst, fun h => ?_⟩, hsecond, fun h => ?_⟩
  · exact (Source.spells_iff_not_hasGap (neat_of_watched _) (by decide +kernel)).mp h hcall
  · exact (Source.spells_iff_not_hasGap (neat_of_watched _) (by decide +kernel)).mp h hindex

end Check

end SinkAudit
