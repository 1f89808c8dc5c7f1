import SinkAudit.Proofs.Reload

/-! # What layers hold at paths

Objects are merged member by member and all other values are replaced, at every depth. So what one
layer over another holds at a path follows from what the two hold there: the upper layer's value if
it has one (`path?_over_of_some`), nothing if the upper layer ends before (`path?_over_of_blocks`),
and the lower layer's value where the upper layer is silent (`path?_over_of_none`). Of a
configuration this says that a layer takes away no more than what it sets
(`overlay_merges_by_path`). -/
namespace SinkAudit

/-! ## At a key -/

namespace Members

variable {ms base layer : Members} {key : String} {value : Json}

theorem get?_set (ms : Members) (key : String) (value : Json) (k : String) :
    (ms.set key value).get? k = if key = k then some value else ms.get? k := by
  induction ms with
  | nil => rw [set, get?_cons]
  | cons m ms ih =>
    obtain ⟨k', v⟩ := m
    by_cases hk : k' = key
    · simp only [set, hk, beq_self_eq_true, if_true, get?_cons]
      split
      · rfl
      · rfl
    · have hset : set ((k', v) :: ms) key value = (k', v) :: set ms key value := by simp [set, hk]
      rw [hset, get?_cons, get?_cons, ih]
      by_cases hk' : k' = k
      · have hne : key ≠ k := fun he => hk (hk'.trans he.symm)
        simp [hk', hne]
      · simp [hk']

/-- To give a key the value that it has changes nothing. -/
theorem set_of_get? (h : ms.get? key = some value) : ms.set key value = ms := by
  induction ms with
  | nil => cases h
  | cons m ms ih =>
    obtain ⟨k, v⟩ := m
    rw [get?_cons] at h
    by_cases hk : k = key
    · rw [if_pos hk] at h
      simp [set, hk, Option.some.inj h]
    · rw [if_neg hk] at h
      simp [set, hk, ih h]

theorem get?_overlay_of_none (h : layer.get? key = none) :
    (base.overlay layer).get? key = base.get? key := by
  induction layer generalizing base with
  | nil => rw [overlay]
  | cons m layer ih =>
    obtain ⟨k, v⟩ := m
    rw [get?_cons] at h
    by_cases hk : k = key
    · rw [if_pos hk] at h
      cases h
    · rw [if_neg hk] at h
      rw [overlay, ih h, get?_set, if_neg hk]

theorem get?_overlay_of_some (hd : layer.keys.Nodup) (h : layer.get? key = some value) :
    (base.overlay layer).get? key = some (Json.over (base.get? key) value) := by
  induction layer generalizing base with
  | nil => cases h
  | cons m layer ih =>
    obtain ⟨k, v⟩ := m
    obtain ⟨hnew, hd⟩ := List.nodup_cons.mp hd
    rw [get?_cons] at h
    by_cases hk : k = key
    · rw [if_pos hk] at h
      cases h
      subst hk
      rw [overlay, get?_overlay_of_none (get?_eq_none hnew), get?_set, if_pos rfl]
    · rw [if_neg hk] at h
      rw [overlay, ih hd h, get?_set, if_neg hk]

/-- The keys of the lower layer in their order, then those that are new in theirs. -/
theorem keys_overlay (hd : layer.keys.Nodup) :
    (base.overlay layer).keys = base.keys ++ layer.keys.filter (· ∉ base.keys) := by
  induction layer generalizing base with
  | nil => simp [overlay, keys]
  | cons m layer ih =>
    obtain ⟨k, v⟩ := m
    obtain ⟨hnew, hd⟩ := List.nodup_cons.mp hd
    have hkeys : keys ((k, v) :: layer) = k :: keys layer := rfl
    rw [overlay, ih hd, keys_set, hkeys]
    by_cases hk : k ∈ base.keys
    · rw [if_pos hk, List.filter_cons_of_neg (by simpa using hk)]
    · rw [if_neg hk, List.filter_cons_of_pos (by simpa using hk), List.append_assoc,
        List.singleton_append]
      -- the key itself does not come again, so being new is the same before and after it
      refine congrArg (fun l => base.keys ++ k :: l) (List.filter_congr fun k' hk' => ?_)
      have hne : k' ≠ k := fun he => hnew (he ▸ hk')
      simp [hne]

/-- A layer that says nothing new changes nothing. -/
theorem overlay_eq_self
    (h : ∀ m ∈ layer, ∃ v, base.get? m.1 = some v ∧ Json.over (some v) m.2 = v) :
    base.overlay layer = base := by
  induction layer with
  | nil => rw [overlay]
  | cons m layer ih =>
    obtain ⟨k, v⟩ := m
    obtain ⟨old, hold, hover⟩ := h (k, v) List.mem_cons_self
    dsimp only at hold hover
    rw [overlay, hold, hover, set_of_get? hold]
    exact ih fun m hm => h m (List.mem_cons_of_mem _ hm)

end Members

/-! ## At a path -/

namespace Json

variable {old : Option Json} {u v : Json} {ms : Members} {key : String} {p : List String}

theorem over_leaf (h : v.isObject = false) : Json.over old v = v := by
  cases v with
  | obj ms => cases h
  | _ => simp [Json.over]

theorem get?_leaf (h : v.isObject = false) (key : String) : v.get? key = none := by
  cases v with
  | obj ms => cases h
  | _ => rfl

theorem over_objects (olds ms : Members) :
    Json.over (some (.obj olds)) (.obj ms) = .obj (olds.overlay ms) := by
  rw [Json.over]

/-- An object is merged with an object and takes the place of anything else. -/
theorem over_obj_cases (old : Option Json) (ms : Members) :
    (∃ olds : Members, old = some (.obj olds) ∧ Json.over old (.obj ms) = .obj (olds.overlay ms)) ∨
      (∀ key, old.bind (·.get? key) = none) ∧ Json.over old (.obj ms) = .obj ms := by
  cases old with
  | none => exact .inr ⟨fun _ => rfl, Members.over_none _⟩
  | some u =>
    cases u with
    | obj olds => exact .inl ⟨olds, rfl, over_objects olds ms⟩
    | _ => exact .inr ⟨fun _ => rfl, by simp [Json.over]⟩

theorem get?_over_of_some (hd : ms.keys.Nodup) (h : ms.get? key = some u) :
    (Json.over old (.obj ms)).get? key = some (Json.over (old.bind (·.get? key)) u) := by
  rcases over_obj_cases old ms with ⟨olds, rfl, hover⟩ | ⟨hnone, hover⟩
  · rw [hover]
    exact Members.get?_overlay_of_some hd h
  · rw [hover, hnone, Members.over_none]
    exact h

theorem get?_over_of_none (h : ms.get? key = none) :
    (Json.over old (.obj ms)).get? key = old.bind (·.get? key) := by
  rcases over_obj_cases old ms with ⟨olds, rfl, hover⟩ | ⟨hnone, hover⟩
  · rw [hover]
    exact Members.get?_overlay_of_none h
  · rw [hover, hnone]
    exact h

/-- On the way to a path there stands a value that has no members. -/
def Blocks (v : Json) (p : List String) : Prop :=
  ∃ q u, q <+: p ∧ q ≠ p ∧ v.path? q = some u ∧ u.isObject = false

theorem not_blocks_nil (v : Json) : ¬ v.Blocks [] := by
  rintro ⟨q, u, hq, hne, -⟩
  exact hne (List.prefix_nil.mp hq)

theorem blocks_of_leaf (h : v.isObject = false) (key : String) (p : List String) :
    v.Blocks (key :: p) :=
  ⟨[], v, List.nil_prefix, by simp, rfl, h⟩

theorem blocks_cons : (Json.obj ms).Blocks (key :: p) ↔ ∃ u, ms.get? key = some u ∧ u.Blocks p := by
  constructor
  · rintro ⟨q, u, hq, hne, hu, hleaf⟩
    cases q with
    | nil =>
      cases hu
      cases hleaf
    | cons k q =>
      obtain ⟨rfl, hprefix⟩ := List.cons_prefix_cons.mp hq
      obtain ⟨w, hw, hu⟩ := Option.bind_eq_some_iff.mp hu
      exact ⟨w, hw, q, u, hprefix, fun he => hne (he ▸ rfl), hu, hleaf⟩
  · rintro ⟨w, hw, q, u, hq, hne, hu, hleaf⟩
    refine ⟨key :: q, u, List.cons_prefix_cons.mpr ⟨rfl, hq⟩, ?_, ?_, hleaf⟩
    · intro he
      exact hne (List.cons.inj he).2
    · exact Option.bind_eq_some_iff.mpr ⟨w, hw, hu⟩

theorem WellKeyed.of_get? (h : (Json.obj ms).WellKeyed) (hu : ms.get? key = some u) :
    u.WellKeyed :=
  (wellKeyed_obj.mp h).2 _ (Members.mem_of_get? hu)

/-- Where the upper value has something, that is what is there, over what the lower value has. -/
theorem path?_over_of_some (hv : v.WellKeyed) (h : v.path? p = some u) :
    (Json.over old v).path? p = some (Json.over (old.bind (·.path? p)) u) := by
  induction p generalizing old v with
  | nil =>
    cases h
    simp [path?]
  | cons key p ih =>
    obtain ⟨w, hw, hu⟩ := Option.bind_eq_some_iff.mp h
    cases v with
    | obj ms =>
      rw [path?, get?_over_of_some (wellKeyed_obj.mp hv).1 hw, Option.bind_some,
        ih (hv.of_get? hw) hu, Option.bind_assoc]
      rfl
    | _ => cases hw

/-- Where the upper value ends before, nothing is there. -/
theorem path?_over_of_blocks (hv : v.WellKeyed) (h : v.Blocks p) :
    (Json.over old v).path? p = none := by
  induction p generalizing old v with
  | nil => exact absurd h (not_blocks_nil v)
  | cons key p ih =>
    by_cases hleaf : v.isObject = false
    · rw [over_leaf hleaf, path?, get?_leaf hleaf]
      rfl
    · cases v with
      | obj ms =>
        obtain ⟨w, hw, h⟩ := blocks_cons.mp h
        rw [path?, get?_over_of_some (wellKeyed_obj.mp hv).1 hw, Option.bind_some,
          ih (hv.of_get? hw) h]
      | _ => exact absurd rfl hleaf

/-- Where the upper value is silent, the lower value shows. -/
theorem path?_over_of_none (hv : v.WellKeyed) (h : v.path? p = none) (hb : ¬ v.Blocks p) :
    (Json.over old v).path? p = old.bind (·.path? p) := by
  induction p generalizing old v with
  | nil => cases h
  | cons key p ih =>
    by_cases hleaf : v.isObject = false
    · exact absurd (blocks_of_leaf hleaf key p) hb
    · cases v with
      | obj ms =>
        cases hw : Members.get? ms key with
        | none =>
          rw [path?, get?_over_of_none hw, Option.bind_assoc]
          rfl
        | some w =>
          have hnone : w.path? p = none := by
            rw [path?, get?, hw, Option.bind_some] at h
            exact h
          have hfree : ¬ w.Blocks p := fun h => hb (blocks_cons.mpr ⟨w, hw, h⟩)
          rw [path?, get?_over_of_some (wellKeyed_obj.mp hv).1 hw, Option.bind_some,
            ih (hv.of_get? hw) hnone hfree, Option.bind_assoc]
          rfl
      | _ => exact absurd rfl hleaf

/-- A value put over a second time changes nothing. -/
theorem WellKeyed.over_over (hv : v.WellKeyed) (old : Option Json) :
    Json.over (some (Json.over old v)) v = Json.over old v := by
  induction hv generalizing old with
  | leaf h => rw [over_leaf h, over_leaf h]
  | @obj ms hd _ ih =>
    have hagain (base : Members) : (base.overlay ms).overlay ms = base.overlay ms := by
      refine Members.overlay_eq_self fun m hm => ?_
      exact ⟨_, Members.get?_overlay_of_some hd (Members.get?_of_mem hd hm), ih m hm _⟩
    rcases over_obj_cases old ms with ⟨olds, rfl, hover⟩ | ⟨-, hover⟩
    · rw [hover, over_objects, hagain]
    -- what stands alone has been put over nothing
    · have hself := hagain []
      rw [Members.overlay_nil hd] at hself
      rw [hover, over_objects, hself]

theorem WellKeyed.of_path? (hv : v.WellKeyed) (h : v.path? p = some u) : u.WellKeyed := by
  induction p generalizing v with
  | nil =>
    cases h
    exact hv
  | cons key p ih =>
    obtain ⟨w, hw, hu⟩ := Option.bind_eq_some_iff.mp h
    cases v with
    | obj ms => exact ih (hv.of_get? hw) hu
    | _ => cases hw

end Json

/-! ## Several layers -/

namespace Members

variable {lower upper : List Members} {layer : Members} {p : List String}

/-- A layer has nothing at a path and nothing without members on the way there. -/
def Silent (layer : Members) (p : List String) : Prop :=
  (Json.obj layer).path? p = none ∧ ¬ (Json.obj layer).Blocks p

/-- Layers put over one another, the first at the bottom. -/
def stack (layers : List Members) : Members := layers.foldl overlay []

theorem path?_overlay_of_silent (hl : (Json.obj layer).WellKeyed) (h : layer.Silent p)
    (base : Members) : (Json.obj (base.overlay layer)).path? p = (Json.obj base).path? p := by
  rw [← Json.over_objects, Json.path?_over_of_none hl h.1 h.2, Option.bind_some]

/-- Layers that are silent at a path do not show there. -/
theorem path?_stack_append (hl : ∀ layer ∈ upper, (Json.obj layer).WellKeyed)
    (h : ∀ layer ∈ upper, layer.Silent p) :
    (Json.obj (stack (lower ++ upper))).path? p = (Json.obj (stack lower)).path? p := by
  induction upper generalizing lower with
  | nil => rw [List.append_nil]
  | cons layer upper ih =>
    have hsnoc : stack (lower ++ [layer]) = (stack lower).overlay layer := by
      rw [stack, List.foldl_append]
      rfl
    rw [List.append_cons, ih (fun l hm => hl l (by simp [hm])) (fun l hm => h l (by simp [hm])),
      hsnoc, path?_overlay_of_silent (hl layer (by simp)) (h layer (by simp))]

end Members

namespace Config

variable {data : Members} {root : Path} {id : String} {options : Members}

def option? (c : Config) (id key : String) : Option Json := (c.checks.lookup id).bind (·.get? key)

/-- Among the members that are kept, those with objects, each key has the value that it had. -/
theorem lookup_filterMap_objects {keep : String × Json → Option (String × Members)}
    (hkeep : ∀ key options, keep (key, .obj options) = some (key, options))
    (hdrop : ∀ key v, v.isObject = false → keep (key, v) = none) {ms : Members}
    (hd : ms.keys.Nodup) :
    (ms.filterMap keep).lookup id = some options ↔ ms.get? id = some (.obj options) := by
  induction ms with
  | nil => simp [Members.get?]
  | cons m ms ih =>
    obtain ⟨k, v⟩ := m
    obtain ⟨hnew, hrest⟩ := List.nodup_cons.mp hd
    rw [Members.get?_cons]
    by_cases hobject : v.isObject = false
    · rw [List.filterMap_cons_none (hdrop k v hobject), ih hrest]
      by_cases hk : k = id
      · subst hk
        rw [Members.get?_eq_none hnew, if_pos rfl]
        constructor
        · intro h
          cases h
        · intro h
          cases h
          cases hobject
      · rw [if_neg hk]
    · cases v with
      | obj inner =>
        rw [List.filterMap_cons_some (hkeep k inner), List.lookup_cons]
        by_cases hk : id = k
        · simp [hk]
        · rw [if_neg (Ne.symm hk), beq_false_of_ne hk]
          exact ih hrest
      | _ => exact absurd rfl hobject

theorem lookup_checkOptions (h : data.Distinct) :
    (checkOptions data).value.lookup id = some options ↔
      (Json.obj data).path? ["checks", id] = some (.obj options) := by
  have hpath : (Json.obj data).path? ["checks", id] =
      (data.get? "checks").bind fun v => v.get? id := by
    simp [Json.path?, Json.get?]
  rw [hpath]
  unfold checkOptions
  split
  · rename_i hfalsy
    refine ⟨fun h => (by cases h), fun h => ?_⟩
    obtain ⟨v, hv, hid⟩ := Option.bind_eq_some_iff.mp h
    -- an object that has a member counts as true
    have htruthy : v.truthy = true := by
      cases v with
      | obj ms =>
        cases ms with
        | nil => cases hid
        | cons m ms => rfl
      | _ => cases hid
    rw [hv, Option.filter_some_pos htruthy] at hfalsy
    cases hfalsy
  · rename_i ms hms
    have hget := (Option.filter_eq_some_iff.mp hms).1
    have hkeys : (Members.keys ms).Nodup := h "checks" ms (Members.mem_of_get? hget)
    rw [hget, Option.bind_some]
    refine lookup_filterMap_objects (fun _ _ => rfl) ?_ hkeys
    intro key v hv
    cases v with
    | obj options => cases hv
    | _ => rfl
  · rename_i v hleaf hv
    refine ⟨fun h => (by cases h), fun h => ?_⟩
    rw [(Option.filter_eq_some_iff.mp hv).1, Option.bind_some] at h
    cases v with
    | obj ms => exact absurd rfl (hleaf ms)
    | _ => cases h

/-- A configuration has for an option of a check what its data have at the path of the option. -/
theorem option?_ofMembers (h : data.Distinct) (id key : String) :
    (ofMembers root data).value.option? id key =
      (Json.obj data).path? ["checks", id, key] := by
  have hvalue : (ofMembers root data).value.checks = (checkOptions data).value := rfl
  have hsnoc : (Json.obj data).path? (["checks", id] ++ [key]) = _ := Json.path?_snoc _ _ _
  rw [List.cons_append, List.singleton_append] at hsnoc
  rw [option?, hvalue, hsnoc]
  apply Option.ext
  intro v
  simp only [Option.bind_eq_some_iff]
  constructor
  · rintro ⟨options, hoptions, hv⟩
    exact ⟨.obj options, (lookup_checkOptions h).mp hoptions, hv⟩
  · rintro ⟨u, hu, hv⟩
    cases u with
    | obj options => exact ⟨options, (lookup_checkOptions h).mpr hu, hv⟩
    | _ => cases hv

end Config

/-! ## Layers of a configuration -/

namespace Workspace

variable {w : Workspace} {folder : Path} {named : Option Path} {overrides : Members} {c : Config}

/-- A configuration is made of a stack of layers, and no layer takes away what it does not set: at
a path at which the upper layers are silent there is what the lower ones have. -/
structure LoadedFrom (layers : List Members) (root : Path) (c : Config) : Prop where
  made : c = (Config.ofMembers root (Members.stack layers)).value
  kept : ∀ lower upper p, layers = lower ++ upper → (∀ layer ∈ upper, layer.Silent p) →
    (Json.obj (Members.stack layers)).path? p = (Json.obj (Members.stack lower)).path? p
  options : ∀ id key, c.option? id key =
    (Json.obj (Members.stack layers)).path? ["checks", id, key]

theorem exists_loadedFrom (ho : (Json.obj overrides).WellKeyed)
    (h : (w.loadConfig folder named overrides).outcome = .ok c) :
    ∃ own other, (w.ownLayer (w.root.join folder).resolve).outcome = .ok own ∧
      (w.namedLayer (w.root.join folder).resolve named).outcome = .ok other ∧
      LoadedFrom [Config.defaults, own, other, overrides] (w.root.join folder).resolve c := by
  obtain ⟨own, other, hown, hother, rfl⟩ := loadConfig_eq_ok_iff.mp h
  have hstack : Members.stack [Config.defaults, own, other, overrides] =
      ((Config.defaults.overlay own).overlay other).overlay overrides := by
    have hnil : Members.overlay [] Config.defaults = Config.defaults :=
      Members.overlay_nil (by decide)
    simp only [Members.stack, List.foldl, hnil]
  have hlayers : ∀ layer ∈ [own, other, overrides], (Json.obj layer).WellKeyed := by
    simp [wellKeyed_of_ownLayer hown, wellKeyed_of_namedLayer hother, ho]
  have hdefaults : (Json.obj Config.defaults).WellKeyed := by
    simp [Config.defaults, Json.wellKeyed_obj, Members.keys, Json.strings]
  refine ⟨own, other, hown, hother, by rw [hstack], ?_, ?_⟩
  · intro lower upper p hsplit hsilent
    rw [hsplit]
    refine Members.path?_stack_append (fun layer hm => ?_) hsilent
    have hm : layer ∈ [Config.defaults, own, other, overrides] := by simp [hsplit, hm]
    rcases List.mem_cons.mp hm with rfl | hm
    · exact hdefaults
    · exact hlayers layer hm
  · intro id key
    rw [hstack]
    exact Config.option?_ofMembers (distinct_layers hown hother ho.distinct) id key

end Workspace

namespace Members

/-- A layer over another holds at every path the upper layer's value where that is no object, the
lower layer's where the upper one has nothing, and nothing where the upper one ends before. Objects
on both sides are merged and keep the lower one's keys in front, an object over anything else stays
as it is, and the same layer once more changes nothing. So no layer of a configuration takes away an
option that it does not set. -/
theorem overlay_merges_by_path (a b : Members) (hb : (Json.obj b).WellKeyed) :
    (∀ p v, (Json.obj b).path? p = some v → v.isObject = false →
      (Json.obj (a.overlay b)).path? p = some v) ∧
    (∀ p, (Json.obj b).path? p = none → ¬ (Json.obj b).Blocks p →
      (Json.obj (a.overlay b)).path? p = (Json.obj a).path? p) ∧
    (∀ p, (Json.obj b).Blocks p → (Json.obj (a.overlay b)).path? p = none) ∧
    (∀ p x y, (Json.obj a).path? p = some (.obj x) → (Json.obj b).path? p = some (.obj y) →
      ∃ z, (Json.obj (a.overlay b)).path? p = some (.obj z) ∧
        keys z = keys x ++ (keys y).filter (· ∉ keys x)) ∧
    (∀ p y, (Json.obj b).path? p = some (.obj y) → (∀ x, (Json.obj a).path? p ≠ some (.obj x)) →
      (Json.obj (a.overlay b)).path? p = some (.obj y)) ∧
    (a.overlay b).overlay b = a.overlay b ∧
    ∀ w folder named overrides c, (Json.obj overrides).WellKeyed →
      (Workspace.loadConfig w folder named overrides).outcome = .ok c →
      ∃ own other, (w.ownLayer (w.root.join folder).resolve).outcome = .ok own ∧
        (w.namedLayer (w.root.join folder).resolve named).outcome = .ok other ∧
        Workspace.LoadedFrom [Config.defaults, own, other, overrides]
          (w.root.join folder).resolve c := by
  have hsome {p : List String} {v : Json} (h : (Json.obj b).path? p = some v) :
      (Json.obj (a.overlay b)).path? p = some (Json.over ((Json.obj a).path? p) v) := by
    rw [← Json.over_objects, Json.path?_over_of_some hb h, Option.bind_some]
  refine ⟨?_, ?_, ?_, ?_, ?_, ?_, fun w folder named overrides c => Workspace.exists_loadedFrom⟩
  · intro p v hv hleaf
    rw [hsome hv, Json.over_leaf hleaf]
  · intro p hnone hfree
    exact path?_overlay_of_silent hb ⟨hnone, hfree⟩ a
  · intro p hblocks
    rw [← Json.over_objects, Json.path?_over_of_blocks hb hblocks]
  · intro p x y hx hy
    refine ⟨overlay x y, ?_, keys_overlay (Json.wellKeyed_obj.mp (hb.of_path? hy)).1⟩
    rw [hsome hy, hx, Json.over_objects]
  · intro p y hy hleaf
    rcases Json.over_obj_cases ((Json.obj a).path? p) y with ⟨x, hx, -⟩ | ⟨-, hover⟩
    · exact absurd hx (hleaf x)
    · rw [hsome hy, hover]
  · have hover := hb.over_over (some (.obj a))
    rw [Json.over_objects, Json.over_objects] at hover
    exact Json.obj.inj hover

def deepLayer : Members := [("checks", .obj [("xss", .obj [("lookback", .int 3)])])]

def mixedLayer : Members :=
  [("severity", .obj [("high", .null)]),
   ("checks", .obj [("xss", .obj [("strategy", .arr []), ("allow_reading", .int 0)])])]

def deepProject : Workspace :=
  { root := ⟨"/", ["p"]⟩,
    files := [
      { path := ⟨"", [Config.fileName]⟩, bytes := (Json.obj deepLayer).render.toUTF8.data }] }

theorem ownLayer_deepProject : (deepProject.ownLayer ⟨"/", ["p"]⟩).outcome = .ok deepLayer := by
  have hdecode : Text.decodeStrict (Json.obj deepLayer).render.toUTF8.data.toList =
      .ok (Json.obj deepLayer).render := by decide +kernel
  exact Workspace.ownLayer_of_render rfl hdecode (by simp [deepLayer])

theorem mixedLayer_merged : (Json.obj mixedLayer).WellKeyed ∧
    (Json.obj (deepLayer.overlay mixedLayer)).path? ["checks", "xss", "strategy"] =
      some (.arr []) ∧
    (Json.obj (deepLayer.overlay mixedLayer)).path? ["checks", "xss", "lookback"] =
      some (.int 3) ∧
    (Json.obj (deepLayer.overlay mixedLayer)).path? ["checks", "xss", "strategy", "x"] = none ∧
    (deepLayer.overlay mixedLayer).keys = ["checks", "severity"] ∧
    (deepLayer.overlay mixedLayer).overlay mixedLayer = deepLayer.overlay mixedLayer ∧
    ∃ c, (deepProject.loadConfig {} none mixedLayer).outcome = .ok c ∧
      c.option? "xss" "lookback" = some (.int 3) ∧ c.option? "xss" "strategy" = some (.arr []) := by
  have hb : (Json.obj mixedLayer).WellKeyed := by
    simp [mixedLayer, Json.wellKeyed_obj, keys]
  obtain ⟨hset, hkept, hblocked, hkeys, -, htwice, hload⟩ :=
    overlay_merges_by_path deepLayer mixedLayer hb
  have hfree : ¬ (Json.obj mixedLayer).Blocks ["checks", "xss", "lookback"] := by
    simp [mixedLayer, Json.blocks_cons, Json.not_blocks_nil, get?]
  have hblocks : (Json.obj mixedLayer).Blocks ["checks", "xss", "strategy", "x"] :=
    ⟨["checks", "xss", "strategy"], .arr [], by decide, by decide, rfl, rfl⟩
  obtain ⟨z, hz, horder⟩ := hkeys [] deepLayer mixedLayer rfl rfl
  cases hz
  have hloads : ∃ c, (deepProject.loadConfig {} none mixedLayer).outcome = .ok c :=
    ⟨_, Workspace.loadConfig_eq_ok_iff.mpr ⟨_, [], ownLayer_deepProject, rfl, rfl⟩⟩
  obtain ⟨c, hc⟩ := hloads
  obtain ⟨own, other, hown, hother, hfrom⟩ := hload deepProject {} none mixedLayer c hb hc
  cases ownLayer_deepProject.symm.trans hown
  cases hother
  refine ⟨hb, hset _ _ rfl rfl, (hkept _ rfl hfree).trans rfl, hblocked _ hblocks,
    horder.trans (by decide), htwice, c, hc, ?_, (hfrom.options _ _).trans rfl⟩
  have hempty : Silent [] ["checks", "xss", "lookback"] :=
    ⟨rfl, by simp [Json.blocks_cons, get?]⟩
  have hsilent : ∀ layer ∈ [[], mixedLayer], Silent layer ["checks", "xss", "lookback"] :=
    List.forall_mem_cons.mpr ⟨hempty, List.forall_mem_singleton.mpr ⟨rfl, hfree⟩⟩
  rw [hfrom.options, hfrom.kept [Config.defaults, deepLayer] [[], mixedLayer] _ rfl hsilent]
  rfl

end Members

end SinkAudit
