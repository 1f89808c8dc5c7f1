import SinkAudit.Proofs.Reload

/-! # Options are settled by one reading

Whatever the members of an object are, reading options from them ends with values that are accepted
for every option, keeps the values that were accepted already, and complains of the others. So
options that have been read and are written as members again are read as they are, and nothing is
said about them but which entries of the ignore list are no patterns (`read_settles`). -/
namespace SinkAudit

/-! ## Computations that succeed -/

namespace Logged

variable {ε α β : Type}

theorem run_bind_of_ok {x : ExceptT ε Logged α} {f : α → ExceptT ε Logged β} {a : α}
    {log : List Log.Entry} (h : x.run = { value := .ok a, log }) :
    (x >>= f).run = { value := (f a).run.value, log := log ++ (f a).run.log } := by
  change Logged.mk (ExceptT.bindCont f x.run.value).value
    (x.run.log ++ (ExceptT.bindCont f x.run.value).log) = _
  rw [h]
  rfl

/-- A loop whose rounds all succeed returns their values and says what they say. -/
theorem run_mapM_of_ok {f : α → ExceptT ε Logged β} {g : α → β} {said : α → List Log.Entry}
    {l : List α} (h : ∀ a ∈ l, (f a).run = { value := .ok (g a), log := said a }) :
    (l.mapM f).run = { value := .ok (l.map g), log := l.flatMap said } := by
  suffices ∀ done, (List.mapM.loop f l done).run =
      { value := .ok (done.reverse ++ l.map g), log := l.flatMap said } from this []
  induction l with
  | nil =>
    intro done
    rw [List.map_nil, List.append_nil]
    rfl
  | cons a l ih =>
    intro done
    have hrest := ih (fun b hb => h b (List.mem_cons_of_mem _ hb)) (g a :: done)
    rw [List.mapM.loop, run_bind_of_ok (h a List.mem_cons_self), hrest, List.reverse_cons,
      List.append_assoc, List.map_cons, List.singleton_append, List.flatMap_cons]

end Logged

/-! ## Ignore lists -/

namespace Pattern

/-- A text that is a pattern, or is none in a way that is known. -/
def Decided (text : String) : Prop := (∃ p, compile text = .ok p) ∨ compile text = .error .malformed

def isMalformed (text : String) : Bool :=
  match compile text with
  | .error .malformed => true
  | _ => false

theorem decided_iff {text : String} :
    Decided text ↔ (compile text).isOk = true ∨ isMalformed text = true := by
  unfold Decided isMalformed
  cases compile text with
  | ok p => simp [Except.isOk, Except.toBool]
  | error fault => cases fault <;> simp [Except.isOk, Except.toBool]

instance (text : String) : Decidable (Decided text) := decidable_of_iff _ decided_iff.symm

end Pattern

def IgnoreEntry.complaint (written : String) : Log.Entry where
  level := .warning
  area := .config
  message := "Invalid ignore pattern " ++ Text.quoted written ++
    " (<re.error>); using substring match"

theorem IgnoreEntry.run_read {written : String} (h : Pattern.Decided written) :
    (IgnoreEntry.read written).run =
      { value := .ok { written, pattern := (Pattern.compile written).toOption }
        log := if Pattern.isMalformed written then [complaint written] else [] } := by
  unfold IgnoreEntry.read Pattern.isMalformed
  rcases h with ⟨p, hp⟩ | hp
  · rw [hp]
    rfl
  · rw [hp]
    rfl

namespace IgnoreList

def ofEntries (entries : List String) : IgnoreList :=
  (entries.filter (!·.isEmpty)).map fun e =>
    { written := e, pattern := (Pattern.compile e).toOption }

theorem run_read {entries : List String} (h : ∀ e ∈ entries, Pattern.Decided e) :
    (read entries).run =
      { value := .ok (ofEntries entries)
        log := (entries.filter Pattern.isMalformed).map IgnoreEntry.complaint } := by
  have hempty : Pattern.isMalformed "" = false := by decide +kernel
  have hlog : (entries.filter (!·.isEmpty)).flatMap
      (fun e => if Pattern.isMalformed e then [IgnoreEntry.complaint e] else []) =
        (entries.filter Pattern.isMalformed).map IgnoreEntry.complaint := by
    clear h
    induction entries with
    | nil => rfl
    | cons e entries ih =>
      by_cases he : e = ""
      · rw [he, List.filter_cons_of_neg (by simp), ih, List.filter_cons_of_neg (by simp [hempty])]
      · rw [List.filter_cons_of_pos (by simpa using he), List.flatMap_cons, ih]
        by_cases hm : Pattern.isMalformed e = true
        · simp [hm]
        · simp [hm]
  rw [read, Logged.run_mapM_of_ok
    fun e he => IgnoreEntry.run_read (h e (List.mem_of_mem_filter he)), hlog]
  rfl

end IgnoreList

/-! ## Options -/

namespace Options

variable {check key : String} {data : Members} {default : Nat}

def listNames : List String :=
  ["additional_sink_methods", "additional_eval_functions", "trusted_libraries", "required_headers",
   "ignore_patterns"]

/-- A value that an option may have: a strategy, a positive number or a list of texts for those that
are one, and anything for the others. -/
def Accepts (key : String) (v : Json) : Prop :=
  (key = "strategy" → ∃ s ∈ ["auto", "remove", "refactor", "validate"], v = .str s) ∧
    (key ∈ ["lookback", "max_pattern_length"] → ∃ n : Int, 0 < n ∧ v = .int n) ∧
    (key ∈ listNames → ∃ texts, v = .strings texts)

def ignoreEntries (data : Members) : List String :=
  match data.get? "ignore_patterns" with
  | some (.str s) => [s]
  | some (.arr items) => items.map Json.text
  | _ => []

theorem textListAt_of_strings {texts default : List String}
    (h : data.get? key = some (.strings texts)) :
    textListAt check data key default = { value := texts } := by
  rw [textListAt, h]
  exact Config.textList_strings _ texts

theorem positiveAt_of_pos {n : Int} (hn : 0 < n) (h : data.get? key = some (.int n)) :
    positiveAt data key default = { value := n.toNat } := by
  obtain ⟨k, rfl⟩ : ∃ k : Nat, n = Int.ofNat (k + 1) := ⟨n.toNat - 1, by simp; omega⟩
  rw [positiveAt, h]
  rfl

theorem positiveAt_pos (hd : 0 < default) (data : Members) (key : String) :
    0 < (positiveAt data key default).value := by
  unfold positiveAt
  split
  · exact hd
  · split
    · rename_i v n hn
      unfold positive? at hn
      split at hn
      · cases hn
        exact Nat.succ_pos _
      · cases hn
    · exact hd

theorem strategyAt_of_name {s : Strategy} (h : data.get? "strategy" = some (.str s.name)) :
    strategyAt data = { value := s } := by
  have hname : strategyOf? (.str s.name) = some s := by
    cases s <;> decide
  rw [strategyAt, h]
  dsimp only
  rw [hname]
  rfl

theorem ignorePatterns_readPlain (check : String) (data : Members) :
    (readPlain check data).value.ignorePatterns = ignoreEntries data := by
  have hvalue : (readPlain check data).value.ignorePatterns =
      (textListAt check data "ignore_patterns" []).value := rfl
  rw [hvalue, textListAt, ignoreEntries]
  cases data.get? "ignore_patterns" with
  | none => rfl
  | some v => cases v <;> rfl

/-- Options of which the numbers are positive are read from their members as they are, and nothing
is said. -/
theorem readPlain_toMembers (check : String) {o : Options} (hl : 0 < o.lookback)
    (hm : 0 < o.maxPatternLength) :
    readPlain check o.toMembers = { value := { o with ignore := [] } } := by
  have hunknown : reportUnknown check o.toMembers = { value := () } := by
    have hkeys : o.toMembers.keys = names := rfl
    have hnone : names.filter (fun key => !names.contains key) = [] := by decide
    rw [reportUnknown, hkeys, hnone]
    rfl
  have hmethods : textListAt check o.toMembers "additional_sink_methods" [] =
      { value := o.additionalSinkMethods } := textListAt_of_strings rfl
  have hfunctions : textListAt check o.toMembers "additional_eval_functions" [] =
      { value := o.additionalEvalFunctions } := textListAt_of_strings rfl
  have hlibraries (default : List String) : textListAt check o.toMembers "trusted_libraries"
      default = { value := o.trustedLibraries } := textListAt_of_strings rfl
  have hheaders (default : List String) : textListAt check o.toMembers "required_headers"
      default = { value := o.requiredHeaders } := textListAt_of_strings rfl
  have hpatterns : textListAt check o.toMembers "ignore_patterns" [] =
      { value := o.ignorePatterns } := textListAt_of_strings rfl
  have hstrategy : strategyAt o.toMembers = { value := o.strategy } := strategyAt_of_name rfl
  have hlookback (default : Nat) : positiveAt o.toMembers "lookback" default =
      { value := o.lookback } := positiveAt_of_pos (Int.natCast_pos.mpr hl) rfl
  have hlength (default : Nat) : positiveAt o.toMembers "max_pattern_length" default =
      { value := o.maxPatternLength } := positiveAt_of_pos (Int.natCast_pos.mpr hm) rfl
  simp only [readPlain, hunknown, hmethods, hfunctions, hlibraries, hheaders, hpatterns, hstrategy,
    hlookback, hlength]
  rfl

theorem accepts_toMembers {o : Options} (hl : 0 < o.lookback) (hm : 0 < o.maxPatternLength) :
    ∀ m ∈ o.toMembers, Accepts m.1 m.2 := by
  have hstrategy : o.strategy.name ∈ ["auto", "remove", "refactor", "validate"] := by
    cases o.strategy <;> decide
  simp only [toMembers, List.forall_mem_cons, Accepts]
  simpa [listNames, hl, hm] using hstrategy

section
variable {v : Json}

theorem strings_textListAt {default : List String} (hk : key ∈ listNames) (ha : Accepts key v)
    (h : data.get? key = some v) : .strings (textListAt check data key default).value = v := by
  obtain ⟨texts, rfl⟩ := ha.2.2 hk
  rw [textListAt_of_strings h]

theorem int_positiveAt (hk : key ∈ ["lookback", "max_pattern_length"]) (ha : Accepts key v)
    (h : data.get? key = some v) : .int (positiveAt data key default).value = v := by
  obtain ⟨n, hn, rfl⟩ := ha.2.1 hk
  rw [positiveAt_of_pos hn h]
  exact congrArg Json.int (Int.toNat_of_nonneg (Int.le_of_lt hn))

theorem str_strategyAt (ha : Accepts "strategy" v) (h : data.get? "strategy" = some v) :
    .str (strategyAt data).value.name = v := by
  obtain ⟨s, hs, rfl⟩ := ha.1 rfl
  have hnamed : ∀ s ∈ ["auto", "remove", "refactor", "validate"],
      ∃ strategy ∈ Strategy.all, strategy.name = s := by decide
  obtain ⟨strategy, -, rfl⟩ := hnamed s hs
  rw [strategyAt_of_name h]

/-- An option keeps a value that is accepted for it. -/
theorem get?_readPlain (hk : key ∈ names) (ha : Accepts key v) (h : data.get? key = some v) :
    (readPlain check data).value.toMembers.get? key = some v := by
  have hgiven (default : Json) : (data.get? key).getD default = v := by
    rw [h]
    rfl
  simp only [names, toMembers, Members.keys, List.map_cons, List.map_nil, List.mem_cons,
    List.not_mem_nil, or_false] at hk
  rcases hk with rfl | rfl | rfl | rfl | rfl | rfl | rfl | rfl | rfl | rfl | rfl | rfl
  · exact congrArg some (hgiven _)
  · exact congrArg some (hgiven _)
  · exact congrArg some (strings_textListAt (by decide) ha h)
  · exact congrArg some (strings_textListAt (by decide) ha h)
  · exact congrArg some (str_strategyAt ha h)
  · exact congrArg some (strings_textListAt (by decide) ha h)
  · exact congrArg some (int_positiveAt (by decide) ha h)
  · exact congrArg some (strings_textListAt (by decide) ha h)
  · exact congrArg some (strings_textListAt (by decide) ha h)
  · exact congrArg some (hgiven _)
  · exact congrArg some (hgiven _)
  · exact congrArg some (int_positiveAt (by decide) ha h)

end

theorem run_read (h : ∀ e ∈ ignoreEntries data, Pattern.Decided e) :
    (read check data).run =
      { value := .ok { (readPlain check data).value with
          ignore := IgnoreList.ofEntries (ignoreEntries data) }
        log := (readPlain check data).log ++
          ((ignoreEntries data).filter Pattern.isMalformed).map IgnoreEntry.complaint } := by
  have hplain : (liftM (readPlain check data) : ExceptT Pattern.Fault Logged Options).run =
      { value := .ok (readPlain check data).value, log := (readPlain check data).log ++ [] } := rfl
  rw [← ignorePatterns_readPlain check data] at h ⊢
  rw [read, Logged.run_bind_of_ok hplain, Logged.run_bind_of_ok (IgnoreList.run_read h),
    List.append_nil]
  exact congrArg (fun log => Logged.mk _ (_ ++ log)) (List.append_nil _)

/-- Reading options ends, if every entry of the ignore list is a pattern or is malformed: with
accepted values for all options, and with those that were given where they were accepted. Read again
from their own members, the options are the same, and nothing is said but which entries of the
ignore list are malformed. -/
theorem read_settles (check : String) (data : Members)
    (h : ∀ e ∈ ignoreEntries data, Pattern.Decided e) :
    ∃ o, (read check data).run.value = .ok o ∧
      (∀ key ∈ names, ∃ v, o.toMembers.get? key = some v ∧ Accepts key v) ∧
      (∀ key ∈ names, ∀ v, data.get? key = some v → Accepts key v →
        o.toMembers.get? key = some v) ∧
      (read check o.toMembers).run.value = .ok o ∧
      (read check o.toMembers).run.log =
        (o.ignorePatterns.filter Pattern.isMalformed).map IgnoreEntry.complaint := by
  obtain ⟨o, ho⟩ : ∃ o : Options, o = { (readPlain check data).value with
    ignore := IgnoreList.ofEntries (ignoreEntries data) } := ⟨_, rfl⟩
  have hl : 0 < o.lookback := ho ▸ positiveAt_pos (by decide) data "lookback"
  have hm : 0 < o.maxPatternLength := ho ▸ positiveAt_pos (by decide) data "max_pattern_length"
  have hpatterns : o.ignorePatterns = ignoreEntries data :=
    ho ▸ ignorePatterns_readPlain check data
  have hagain : readPlain check o.toMembers = { value := { o with ignore := [] } } :=
    readPlain_toMembers check hl hm
  have hentries : ignoreEntries o.toMembers = o.ignorePatterns := by
    rw [← ignorePatterns_readPlain check, hagain]
  have hsecond : (read check o.toMembers).run = _ := run_read (hentries.trans hpatterns ▸ h)
  have hnodup : o.toMembers.keys.Nodup := show names.Nodup by decide
  refine ⟨o, ?_, ?_, ?_, ?_, ?_⟩
  · rw [run_read h, ho]
  · intro key hkey
    obtain ⟨m, hmem, rfl⟩ := List.mem_map.mp (show key ∈ o.toMembers.keys from hkey)
    exact ⟨m.2, Members.get?_of_mem hnodup hmem, accepts_toMembers hl hm m hmem⟩
  · intro key hkey v hv ha
    rw [ho]
    exact get?_readPlain hkey ha hv
  · have hignore : IgnoreList.ofEntries o.ignorePatterns = o.ignore := by rw [hpatterns, ho]
    rw [hsecond, hagain, hentries, hignore]
  · rw [hsecond, hagain, hentries]
    rfl

/-- Members with a value of a wrong kind for each kind of option, one that is a Boolean for a
number, a text for a list, and entries of which one is no pattern. -/
def looseMembers : Members :=
  [("strategy", .arr [.str "remove"]),
   ("lookback", .bool true),
   ("max_pattern_length", .int 7),
   ("trusted_libraries", .str "xss"),
   ("required_headers", .null),
   ("ignore_patterns", .arr [.str "(", .str "", .int 4]),
   ("allow_reading", .obj []),
   ("color", .int 1)]

theorem looseMembers_settled :
    (∀ e ∈ ignoreEntries looseMembers, Pattern.Decided e) ∧
      ∃ o, (read "xss" looseMembers).run.value = .ok o ∧
        o.toMembers.get? "max_pattern_length" = some (.int 7) ∧
        (read "xss" o.toMembers).run.value = .ok o ∧
        (read "xss" o.toMembers).run.warnings =
          ["Invalid ignore pattern '(' (<re.error>); using substring match"] := by
  have hdecided : ∀ e ∈ ignoreEntries looseMembers, Pattern.Decided e := by decide +kernel
  obtain ⟨o, ho, -, hkept, hsame, hlog⟩ := read_settles "xss" looseMembers hdecided
  have hpatterns : o.ignorePatterns = ["(", "", "4"] := by
    rw [run_read hdecided] at ho
    cases ho
    decide +kernel
  have hlength : Accepts "max_pattern_length" (.int 7) := by simp [Accepts, listNames]
  refine ⟨hdecided, o, ho, hkept _ (by decide) _ rfl hlength, hsame, ?_⟩
  rw [Logged.warnings, hlog, hpatterns]
  decide +kernel

end Options

end SinkAudit
