import Mathlib.Data.List.Forall2
import SinkAudit.Error

/-! # Computations that may fail

How a computation ends (`Ends`), how two of them end (`Alike`), and what a loop keeps of either,
given what one round keeps. -/
namespace SinkAudit

section
variable {ε α β γ δ : Type} {E : ε → Prop}

/-- A computation ends with a value or with a failure of the given kind. -/
inductive Ends (E : ε → Prop) (P : α → Prop) : Except ε α → Prop
  | ok {a : α} (h : P a) : Ends E P (.ok a)
  | error {e : ε} (h : E e) : Ends E P (.error e)

theorem Ends.imp {P Q : α → Prop} {x : Except ε α} (h : Ends E P x) (hPQ : ∀ a, P a → Q a) :
    Ends E Q x := by
  cases h with
  | ok h => exact .ok (hPQ _ h)
  | error h => exact .error h

theorem Ends.bind {P : α → Prop} {Q : β → Prop} {x : Except ε α} {f : α → Except ε β}
    (hx : Ends E P x) (hf : ∀ a, P a → Ends E Q (f a)) : Ends E Q (x >>= f) := by
  cases hx with
  | ok h => exact hf _ h
  | error h => exact .error h

/-- A loop keeps what each round keeps of what is done and what is held. -/
theorem Ends.foldlM {f : β → α → Except ε β} (P : List α → β → Prop) {l : List α} {b : β}
    (h₀ : P [] b) (h : ∀ done a b, a ∈ l → P done b → Ends E (P (done ++ [a])) (f b a)) :
    Ends E (P l) (l.foldlM f b) := by
  suffices ∀ rest done b, (∀ a ∈ rest, a ∈ l) → P done b →
      Ends E (P (done ++ rest)) (rest.foldlM f b) from this l [] b (fun _ ha => ha) h₀
  intro rest
  induction rest with
  | nil =>
    intro done b _ hP
    rw [List.append_nil]
    exact .ok hP
  | cons a rest ih =>
    intro done b hl hP
    rw [List.foldlM_cons]
    refine (h done a b (hl a (by simp)) hP).bind fun b' hb' => ?_
    have := ih (done ++ [a]) b' (fun x hx => hl x (by simp [hx])) hb'
    rwa [List.append_assoc] at this

/-- A list of computations ends with the values of all of them. -/
theorem Ends.mapM {R : α → β → Prop} {f : α → Except ε β} {l : List α}
    (h : ∀ a ∈ l, Ends E (R a) (f a)) : Ends E (List.Forall₂ R l) (l.mapM f) := by
  induction l with
  | nil => exact .ok .nil
  | cons a l ih =>
    rw [List.mapM_cons]
    refine (h a (by simp)).bind fun b hb => ?_
    refine (ih fun x hx => h x (by simp [hx])).bind fun bs hbs => ?_
    exact .ok (.cons hb hbs)

theorem Ends.exists_ok {P : α → Prop} {x : Except ε α} (h : Ends (fun _ => False) P x) :
    ∃ a, x = .ok a ∧ P a := by
  cases h with
  | ok h => exact ⟨_, rfl, h⟩
  | error h => exact h.elim

theorem exists_eq_ok {x : Except ε α} (h : x.isOk = true) : ∃ a, x = .ok a := by
  cases x with
  | ok a => exact ⟨a, rfl⟩
  | error e => cases h

/-- Two computations end in the same failure or with values that are related. -/
inductive Alike (R : α → β → Prop) : Except ε α → Except ε β → Prop
  | ok {a : α} {b : β} (h : R a b) : Alike R (.ok a) (.ok b)
  | error (e : ε) : Alike R (.error e) (.error e)

theorem Alike.imp {R S : α → β → Prop} {x : Except ε α} {y : Except ε β} (h : Alike R x y)
    (hRS : ∀ a b, R a b → S a b) : Alike S x y := by
  cases h with
  | ok h => exact .ok (hRS _ _ h)
  | error e => exact .error e

theorem Alike.bind {R : α → β → Prop} {S : γ → δ → Prop} {x : Except ε α} {y : Except ε β}
    {f : α → Except ε γ} {g : β → Except ε δ} (h : Alike R x y)
    (hfg : ∀ a b, R a b → Alike S (f a) (g b)) : Alike S (x >>= f) (y >>= g) := by
  cases h with
  | ok h => exact hfg _ _ h
  | error e => exact .error e

theorem Alike.foldlM {R : β → γ → Prop} {f : β → α → Except ε β} {g : γ → α → Except ε γ}
    (h : ∀ a b c, R b c → Alike R (f b a) (g c a)) {l : List α} {b : β} {c : γ} (hbc : R b c) :
    Alike R (l.foldlM f b) (l.foldlM g c) := by
  induction l generalizing b c with
  | nil => exact .ok hbc
  | cons a l ih =>
    rw [List.foldlM_cons, List.foldlM_cons]
    exact (h a b c hbc).bind fun _ _ => ih

theorem Alike.eq {x y : Except ε α} (h : Alike (· = ·) x y) : x = y := by
  cases h with
  | ok h => exact congrArg Except.ok h
  | error e => rfl

theorem Alike.map {R : α → β → Prop} {S : γ → δ → Prop} {x : Except ε α} {y : Except ε β}
    {f : α → γ} {g : β → δ} (h : Alike R x y) (hRS : ∀ a b, R a b → S (f a) (g b)) :
    Alike S (x.map f) (y.map g) := by
  cases h with
  | ok h => exact .ok (hRS _ _ h)
  | error e => exact .error e

theorem Alike.map_left {R : α → β → Prop} {S : γ → β → Prop} {x : Except ε α} {y : Except ε β}
    {f : α → γ} (h : Alike R x y) (hRS : ∀ a b, R a b → S (f a) b) : Alike S (x.map f) y := by
  cases h with
  | ok h => exact .ok (hRS _ _ h)
  | error e => exact .error e

theorem Alike.bind_eq {R : α → β → Prop} {x : Except ε α} {y : Except ε β} {f : α → Except ε β}
    (h : Alike R x y) (hf : ∀ a b, R a b → f a = .ok b) : x >>= f = y := by
  cases h with
  | ok h => exact hf _ _ h
  | error e => rfl

theorem Alike.refl {R : α → α → Prop} (h : ∀ a, R a a) (x : Except ε α) : Alike R x x := by
  cases x with
  | ok a => exact .ok (h a)
  | error e => exact .error e

theorem Alike.symm {R : α → β → Prop} {x : Except ε α} {y : Except ε β} (h : Alike R x y) :
    Alike (fun b a => R a b) y x := by
  cases h with
  | ok h => exact .ok h
  | error e => exact .error e

theorem Alike.trans {R : α → β → Prop} {S : β → γ → Prop} {T : α → γ → Prop} {x : Except ε α}
    {y : Except ε β} {z : Except ε γ} (hxy : Alike R x y) (hyz : Alike S y z)
    (hT : ∀ a b c, R a b → S b c → T a c) : Alike T x z := by
  cases hxy with
  | ok h =>
    cases hyz with
    | ok h' => exact .ok (hT _ _ _ h h')
  | error e =>
    cases hyz with
    | error _ => exact .error e

/-- Two traversals end alike if they do so element by element. -/
theorem Alike.mapM {R : β → γ → Prop} {f : α → Except ε β} {g : α → Except ε γ} {l : List α}
    (h : ∀ a ∈ l, Alike R (f a) (g a)) : Alike (List.Forall₂ R) (l.mapM f) (l.mapM g) := by
  induction l with
  | nil => exact .ok .nil
  | cons a l ih =>
    rw [List.mapM_cons, List.mapM_cons]
    refine (h a (by simp)).bind fun b c hbc => ?_
    refine (ih fun x hx => h x (by simp [hx])).bind fun bs cs hl => ?_
    exact .ok (.cons hbc hl)

theorem Alike.mapError {ζ : Type} {R : α → β → Prop} {x : Except ε α} {y : Except ε β}
    (h : Alike R x y) (cause : ε → ζ) : Alike R (x.mapError cause) (y.mapError cause) := by
  cases h with
  | ok h => exact .ok h
  | error e => exact .error _

theorem mapM_eq_ok {f : α → Except ε β} {g : α → β} {l : List α} (h : ∀ a ∈ l, f a = .ok (g a)) :
    l.mapM f = .ok (l.map g) := by
  induction l with
  | nil => rfl
  | cons a l ih =>
    rw [List.mapM_cons, h a (by simp), ih fun b hb => h b (by simp [hb])]
    rfl

theorem bind_eq_ok_iff {x : Except ε α} {f : α → Except ε β} {b : β} :
    x >>= f = .ok b ↔ ∃ a, x = .ok a ∧ f a = .ok b := by
  cases x with
  | ok a =>
    constructor
    · exact fun h => ⟨a, rfl, h⟩
    · rintro ⟨_, ⟨⟩, h⟩
      exact h
  | error e =>
    constructor
    · exact fun h => nomatch h
    · rintro ⟨_, h, _⟩
      cases h

theorem map_eq_ok_iff {x : Except ε α} {f : α → β} {b : β} :
    x.map f = .ok b ↔ ∃ a, x = .ok a ∧ f a = b := by
  cases x with
  | ok a => simp [Except.map]
  | error e => simp [Except.map]

theorem mapError_eq_ok_iff {ζ : Type} {cause : ε → ζ} {x : Except ε α} {a : α} :
    x.mapError cause = .ok a ↔ x = .ok a := by
  cases x with
  | ok b => simp [Except.mapError]
  | error e => simp [Except.mapError]

theorem mapM_eq_ok_iff {f : α → Except ε β} {l : List α} {bs : List β} :
    l.mapM f = .ok bs ↔ List.Forall₂ (fun a b => f a = .ok b) l bs := by
  induction l generalizing bs with
  | nil =>
    rw [List.mapM_nil, List.forall₂_nil_left_iff]
    exact ⟨fun h => (Except.ok.inj h).symm, fun h => h ▸ rfl⟩
  | cons a l ih =>
    simp only [List.mapM_cons, List.forall₂_cons_left_iff, bind_eq_ok_iff, ih]
    constructor
    · rintro ⟨b, ha, bs', hl, ⟨⟩⟩
      exact ⟨b, bs', ha, hl, rfl⟩
    · rintro ⟨b, bs', ha, hl, rfl⟩
      exact ⟨b, ha, bs', hl, rfl⟩

theorem exists_of_forall₂ {R : α → β → Prop} {l : List α} {bs : List β} (h : List.Forall₂ R l bs)
    {b : β} (hb : b ∈ bs) : ∃ a ∈ l, R a b := by
  induction h with
  | nil => cases hb
  | @cons a c l bs hac _ ih =>
    rcases List.mem_cons.mp hb with rfl | hb
    · exact ⟨a, by simp, hac⟩
    · obtain ⟨a', ha', h⟩ := ih hb
      exact ⟨a', by simp [ha'], h⟩

/-- Where all computations succeed, each value is what its computation returns. -/
theorem eq_map_of_forall₂_ok {f : α → Except ε (List β)} {l : List α} {bs : List (List β)}
    (h : List.Forall₂ (fun a b => f a = .ok b) l bs) :
    bs = l.map (fun a => (f a).toOption.getD []) ∧ ∀ a ∈ l, f a = .ok ((f a).toOption.getD []) := by
  induction h with
  | nil => exact ⟨rfl, by simp⟩
  | @cons a b l bs ha _ ih =>
    have hb : (f a).toOption.getD [] = b := by
      rw [ha]
      rfl
    refine ⟨by rw [List.map_cons, hb, ← ih.1], fun x hx => ?_⟩
    rcases List.mem_cons.mp hx with rfl | hx
    · rw [hb, ha]
    · exact ih.2 x hx

theorem exists_mapM_ok {f : α → Except ε β} {l : List α} (h : ∀ a ∈ l, ∃ b, f a = .ok b) :
    ∃ bs, l.mapM f = .ok bs := by
  induction l with
  | nil => exact ⟨[], rfl⟩
  | cons a l ih =>
    obtain ⟨b, hb⟩ := h a (by simp)
    obtain ⟨bs, hbs⟩ := ih fun a ha => h a (by simp [ha])
    exact ⟨b :: bs, by rw [List.mapM_cons, hb, hbs]; rfl⟩

theorem exists_bind_ok {x : Except ε α} {f : α → Except ε β} (hx : ∃ a, x = .ok a)
    (hf : ∀ a, x = .ok a → ∃ b, f a = .ok b) : ∃ b, x >>= f = .ok b := by
  obtain ⟨a, rfl⟩ := hx
  exact hf a rfl

/-- Where only one failure is possible, a single failure decides. -/
theorem mapM_eq_error {f : α → Except ε β} {e : ε} {l : List α}
    (h : ∀ a ∈ l, Ends (· = e) (fun _ => True) (f a)) {a : α} (ha : a ∈ l) (hf : f a = .error e) :
    l.mapM f = .error e := by
  induction l with
  | nil => cases ha
  | cons b l ih =>
    rw [List.mapM_cons]
    cases hb : f b with
    | error e' =>
      have he := h b (by simp)
      rw [hb] at he
      cases he with
      | error he => exact congrArg Except.error he
    | ok c =>
      rcases List.mem_cons.mp ha with rfl | ha
      · rw [hf] at hb
        cases hb
      · rw [ih (fun x hx => h x (by simp [hx])) ha]
        rfl

end

/-! ## Attempts -/

namespace Logged
variable {ε α β : Type}

theorem value_bind (x : ExceptT ε Logged α) (f : α → ExceptT ε Logged β) :
    (x >>= f).run.value = x.run.value >>= fun a => (f a).run.value := by
  change (ExceptT.bindCont f x.run.value).value = x.run.value >>= fun a => (f a).run.value
  cases x.run.value with
  | ok a => rfl
  | error e => rfl

theorem value_mapM (f : α → ExceptT ε Logged β) (l : List α) :
    (l.mapM f).run.value = l.mapM fun a => (f a).run.value := by
  suffices ∀ done, (List.mapM.loop f l done).run.value =
      List.mapM.loop (fun a => (f a).run.value) l done from this []
  induction l with
  | nil => exact fun done => rfl
  | cons a l ih =>
    intro done
    rw [List.mapM.loop, List.mapM.loop, value_bind]
    exact congrArg _ (funext fun b => ih (b :: done))

end Logged

namespace Attempt
variable {α β ε : Type}

/-- How an attempt ends, without what it says on the way. -/
def outcome (x : Attempt α) : Except Error α := x.run.value

@[simp] theorem outcome_pure (a : α) : (pure a : Attempt α).outcome = .ok a := rfl

@[simp] theorem outcome_bind (x : Attempt α) (f : α → Attempt β) :
    (x >>= f).outcome = x.outcome >>= fun a => (f a).outcome :=
  Logged.value_bind x f

@[simp] theorem outcome_ofExcept (cause : ε → Error) (x : Except ε α) :
    (ofExcept cause x).outcome = x.mapError cause := by
  cases x with
  | ok a => rfl
  | error e => rfl

theorem outcome_foldlM (f : β → α → Attempt β) (l : List α) (b : β) :
    (l.foldlM f b).outcome = l.foldlM (fun b a => (f b a).outcome) b := by
  induction l generalizing b with
  | nil => rfl
  | cons a l ih =>
    rw [List.foldlM_cons, List.foldlM_cons, outcome_bind]
    exact congrArg _ (funext ih)

theorem outcome_mapM (f : α → Attempt β) (l : List α) :
    (l.mapM f).outcome = l.mapM fun a => (f a).outcome :=
  Logged.value_mapM f l

end Attempt

end SinkAudit
