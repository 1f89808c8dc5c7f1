import SinkAudit.Project.Settings
import SinkAudit.Proofs.Outcome
import SinkAudit.Proofs.RoundTrip

/-! # Layers of members

What putting one layer over another does to keys: none that was there once comes to be there twice,
and a layer put over nothing is the layer. Layers that are read from text hold no object with a
double key (`WellKeyed`), and among the values of what is made of them there is none
(`Distinct`). -/
namespace SinkAudit

namespace Members

variable {ms base layer : Members} {key : String} {value : Json}

/-! ## Keys -/

theorem mem_of_get? (h : ms.get? key = some value) : (key, value) ∈ ms := by
  obtain ⟨⟨k, v⟩, hfind, rfl⟩ := Option.map_eq_some_iff.mp h
  have hk : k = key := by simpa using List.find?_some hfind
  rw [← hk]
  exact List.mem_of_find?_eq_some hfind

theorem get?_eq_none (h : key ∉ ms.keys) : ms.get? key = none := by
  rw [get?, Option.map_eq_none_iff, List.find?_eq_none]
  rintro ⟨k, v⟩ hm hk
  have hk : k = key := by simpa using hk
  exact h (hk ▸ List.mem_map_of_mem hm)

theorem get?_cons (k : String) (v : Json) (ms : Members) (key : String) :
    get? ((k, v) :: ms) key = if k = key then some v else get? ms key := by
  by_cases h : k = key
  · simp [get?, h]
  · simp [get?, h]

theorem get?_of_mem (hd : ms.keys.Nodup) (h : (key, value) ∈ ms) : ms.get? key = some value := by
  induction ms with
  | nil => cases h
  | cons m ms ih =>
    obtain ⟨k, v⟩ := m
    obtain ⟨hnew, hd⟩ := List.nodup_cons.mp hd
    rw [get?_cons]
    rcases List.mem_cons.mp h with he | h
    · cases he
      exact if_pos rfl
    · have hne : k ≠ key := by
        rintro rfl
        exact hnew (List.mem_map.mpr ⟨_, h, rfl⟩)
      rw [if_neg hne]
      exact ih hd h

theorem keys_set (ms : Members) (key : String) (value : Json) :
    (ms.set key value).keys = if key ∈ ms.keys then ms.keys else ms.keys ++ [key] := by
  induction ms with
  | nil => rfl
  | cons m ms ih =>
    obtain ⟨k, v⟩ := m
    by_cases hk : k = key
    · simp [set, keys, hk]
    · have hset : set ((k, v) :: ms) key value = (k, v) :: set ms key value := by simp [set, hk]
      have hmem : key ∈ keys ((k, v) :: ms) ↔ key ∈ keys ms := by simp [keys, Ne.symm hk]
      rw [hset, if_congr hmem rfl rfl]
      change k :: keys (set ms key value) = _
      rw [ih]
      split
      · rfl
      · rfl

theorem nodup_keys_set (h : ms.keys.Nodup) (key : String) (value : Json) :
    (ms.set key value).keys.Nodup := by
  rw [keys_set]
  split
  · exact h
  · rename_i hnew
    rw [List.nodup_append]
    refine ⟨h, by simp, fun a ha b hb => ?_⟩
    rw [List.mem_singleton.mp hb]
    exact fun he => hnew (he ▸ ha)

/-- What is in members after a key was given a value was there before or is the new member. -/
theorem mem_set {m : String × Json} (h : m ∈ ms.set key value) : m ∈ ms ∨ m = (key, value) := by
  induction ms with
  | nil => exact .inr (List.mem_singleton.mp h)
  | cons m' ms ih =>
    obtain ⟨k, v⟩ := m'
    unfold set at h
    split at h
    · rename_i hk
      rcases List.mem_cons.mp h with rfl | h
      · exact .inr (by rw [beq_iff_eq.mp hk])
      · exact .inl (List.mem_cons_of_mem _ h)
    · rcases List.mem_cons.mp h with rfl | h
      · exact .inl List.mem_cons_self
      · exact (ih h).imp_left (List.mem_cons_of_mem _)

theorem nodup_keys_ofPairs (pairs : List (String × Json)) : (ofPairs pairs).keys.Nodup := by
  suffices ∀ done : Members, done.keys.Nodup →
      (keys (pairs.foldl (fun ms p => ms.set p.1 p.2) done)).Nodup from this [] List.nodup_nil
  induction pairs with
  | nil => exact fun done h => h
  | cons p pairs ih => exact fun done h => ih _ (nodup_keys_set h p.1 p.2)

theorem mem_of_mem_ofPairs {pairs : List (String × Json)} {m : String × Json}
    (h : m ∈ ofPairs pairs) : m ∈ pairs := by
  suffices ∀ done : Members, m ∈ pairs.foldl (fun ms p => ms.set p.1 p.2) done →
      m ∈ done ∨ m ∈ pairs from (this [] h).resolve_left List.not_mem_nil
  clear h
  induction pairs with
  | nil => exact fun done h => .inl h
  | cons p pairs ih =>
    intro done h
    rcases ih _ h with h | h
    · rcases mem_set h with h | rfl
      · exact .inl h
      · exact .inr List.mem_cons_self
    · exact .inr (List.mem_cons_of_mem _ h)

/-! ## One layer over another -/

theorem nodup_keys_overlay (h : base.keys.Nodup) (layer : Members) :
    (base.overlay layer).keys.Nodup := by
  induction layer generalizing base with
  | nil =>
    rw [overlay]
    exact h
  | cons m layer ih =>
    rw [overlay]
    exact ih (nodup_keys_set h _ _)

/-- A value that is put over nothing is that value. -/
theorem over_none (v : Json) : Json.over none v = v := by
  cases v <;> simp [Json.over]

/-- Over nothing, a layer without double keys is as it was. -/
theorem overlay_nil (h : layer.keys.Nodup) : overlay [] layer = layer := by
  suffices ∀ base : Members, (keys (base ++ layer)).Nodup → base.overlay layer = base ++ layer from
    this [] h
  clear h
  induction layer with
  | nil =>
    intro base _
    rw [overlay, List.append_nil]
  | cons m layer ih =>
    intro base h
    have hnew : m.1 ∉ base.keys := by
      intro hm
      rw [keys, List.map_append, List.map_cons] at h
      exact (List.nodup_append.mp h).2.2 m.1 hm m.1 (by simp) rfl
    rw [overlay, get?_eq_none hnew, over_none, Json.set_of_not_mem hnew,
      ih _ (by simpa using h), List.append_assoc]
    rfl

theorem overlay_append (layer top : Members) :
    base.overlay (layer ++ top) = (base.overlay layer).overlay top := by
  induction layer generalizing base with
  | nil => rw [List.nil_append, overlay]
  | cons m layer ih =>
    obtain ⟨key, value⟩ := m
    rw [List.cons_append, overlay, overlay, ih]

/-- No object among the values has a key twice. -/
def Distinct (ms : Members) : Prop :=
  ∀ key inner, (key, Json.obj inner) ∈ ms → (keys inner).Nodup

theorem Distinct.overlay (hb : base.Distinct) (hl : layer.Distinct) :
    (base.overlay layer).Distinct := by
  induction layer generalizing base with
  | nil =>
    rw [Members.overlay]
    exact hb
  | cons m layer ih =>
    obtain ⟨key, value⟩ := m
    rw [Members.overlay]
    refine ih ?_ fun k inner hk => hl k inner (List.mem_cons_of_mem _ hk)
    intro k inner hk
    rcases mem_set hk with hk | hk
    · exact hb k inner hk
    -- the new value is an object only if the layer's is; it is merged or stands alone
    · obtain ⟨rfl, hover⟩ := Prod.mk.inj hk
      cases value with
      | obj news =>
        have hnews : (keys news).Nodup := hl k news List.mem_cons_self
        cases hold : base.get? k with
        | none =>
          rw [hold, over_none] at hover
          cases hover
          exact hnews
        | some old =>
          rw [hold] at hover
          cases old with
          | obj olds =>
            rw [Json.over] at hover
            cases hover
            exact nodup_keys_overlay (hb k olds (mem_of_get? hold)) news
          | _ =>
            simp only [Json.over] at hover
            cases hover
            exact hnews
      | _ => simp [Json.over] at hover

end Members

/-! ## Layers that are read -/

namespace Json

variable {cs rest : List Char} {ms : Members}

def isObject : Json → Bool
  | .obj _ => true
  | _ => false

/-- No object that keys lead to has a key twice. -/
inductive WellKeyed : Json → Prop
  | leaf {v : Json} (h : v.isObject = false) : WellKeyed v
  | obj {ms : Members} (hd : ms.keys.Nodup) (h : ∀ m ∈ ms, WellKeyed m.2) : WellKeyed (.obj ms)

@[simp] theorem wellKeyed_null : WellKeyed .null := .leaf rfl

@[simp] theorem wellKeyed_int (i : Int) : WellKeyed (.int i) := .leaf rfl

@[simp] theorem wellKeyed_str (s : String) : WellKeyed (.str s) := .leaf rfl

@[simp] theorem wellKeyed_arr (items : List Json) : WellKeyed (.arr items) := .leaf rfl

theorem wellKeyed_obj :
    WellKeyed (.obj ms) ↔ ms.keys.Nodup ∧ ∀ m ∈ ms, m.2.WellKeyed := by
  constructor
  · intro h
    cases h with
    | leaf h => cases h
    | obj hd h => exact ⟨hd, h⟩
  · intro h
    exact .obj h.1 h.2

theorem wellKeyed_nil : WellKeyed (.obj []) := .obj List.nodup_nil (by simp)

theorem WellKeyed.distinct (h : WellKeyed (.obj ms)) : ms.Distinct := by
  intro key inner hm
  exact (wellKeyed_obj.mp ((wellKeyed_obj.mp h).2 _ hm)).1

theorem readUnsigned_ne_obj {negative : Bool} :
    readUnsigned negative cs ≠ some (.obj ms, rest) := by
  intro h
  obtain ⟨⟨whole, after⟩, _, h⟩ := Option.bind_eq_some_iff.mp h
  dsimp only at h
  split at h
  · cases h
  · cases h

theorem readLiteral_ne_obj : readLiteral cs ≠ some (.obj ms, rest) := by
  have hnumber : readNumber cs ≠ some (.obj ms, rest) := by
    unfold readNumber
    split
    · split
      · simp
      · exact readUnsigned_ne_obj
    · exact readUnsigned_ne_obj
  unfold readLiteral
  split
  · simp
  · split
    · simp
    · split
      · simp
      · split
        · simp
        · split
          · simp
          · exact hnumber

/-- An object that is read has the members that stand between its braces. -/
theorem exists_of_readValue_obj {fuel : Nat} (h : readValue (fuel + 1) cs = some (.obj ms, rest)) :
    ms = [] ∨ ∃ pairs cs' rest', readMembers fuel cs' = some (pairs, rest') ∧
      ms = Members.ofPairs pairs := by
  unfold readValue at h
  split at h
  · obtain ⟨_, _, h⟩ := Option.map_eq_some_iff.mp h
    cases h
  · split at h
    · cases h
    · obtain ⟨_, _, h⟩ := Option.map_eq_some_iff.mp h
      cases h
  · split at h
    · cases h
      exact .inl rfl
    · obtain ⟨⟨pairs, rest'⟩, hr, h⟩ := Option.map_eq_some_iff.mp h
      cases h
      exact .inr ⟨pairs, _, _, hr, rfl⟩
  · exact absurd h readLiteral_ne_obj

/-- A value is read well-keyed if the members between braces are, with less fuel. -/
theorem wellKeyed_of_readValue {fuel : Nat} {v : Json}
    (hmembers : ∀ {cs pairs rest}, readMembers fuel cs = some (pairs, rest) →
      ∀ m ∈ pairs, m.2.WellKeyed)
    (h : readValue (fuel + 1) cs = some (v, rest)) : v.WellKeyed := by
  cases v with
  | obj ms =>
    rcases exists_of_readValue_obj h with rfl | ⟨pairs, _, _, hpairs, rfl⟩
    · exact wellKeyed_nil
    · exact .obj (Members.nodup_keys_ofPairs pairs) fun m hm =>
        hmembers hpairs m (Members.mem_of_mem_ofPairs hm)
  | _ => exact .leaf rfl

theorem wellKeyed_of_readMembers {fuel : Nat} {pairs : List (String × Json)}
    (h : readMembers fuel cs = some (pairs, rest)) : ∀ m ∈ pairs, m.2.WellKeyed := by
  -- a value inside members is read with less fuel than they are, and its members with less again
  induction fuel using Nat.strongRecOn generalizing cs pairs rest with
  | ind fuel ih =>
    cases fuel with
    | zero => simp [readMembers] at h
    | succ fuel =>
      unfold readMembers at h
      obtain ⟨⟨key, afterKey⟩, _, h⟩ := Option.bind_eq_some_iff.mp h
      dsimp only at h
      split at h
      · obtain ⟨⟨value, afterValue⟩, hvalue, h⟩ := Option.bind_eq_some_iff.mp h
        have hfirst : value.WellKeyed := by
          cases fuel with
          | zero => simp [readValue] at hvalue
          | succ fuel => exact wellKeyed_of_readValue (ih fuel (by omega)) hvalue
        dsimp only at h
        split at h
        · cases h
          intro m hm
          rw [List.mem_singleton.mp hm]
          exact hfirst
        · obtain ⟨⟨more, afterMore⟩, hmore, h⟩ := Option.bind_eq_some_iff.mp h
          cases h
          intro m hm
          rcases List.mem_cons.mp hm with rfl | hm
          · exact hfirst
          · exact ih fuel (by omega) hmore m hm
        · cases h
      · cases h

/-- Whatever a text writes, no object in it has a key twice once it is read. -/
theorem wellKeyed_of_parse {text : String} {v : Json} (h : parse text = some v) : v.WellKeyed := by
  obtain ⟨⟨value, rest⟩, hread, h⟩ := Option.bind_eq_some_iff.mp h
  dsimp only at h
  split at h
  · cases h
    exact wellKeyed_of_readValue wellKeyed_of_readMembers hread
  · cases h

end Json

end SinkAudit
