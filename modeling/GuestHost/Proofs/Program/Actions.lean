/-
  GuestHost.Proofs.Program.Actions — what an action of a running module comes to.

  `Ends P x Q E`: from every state in `P`, the action `x` ends with a value and a state in `Q`, or fails as
  `E` allows of the failure and the state in which it came up. `Keeps I E` is the case in which `Q` is `I`
  again.

  `InStep R V x y`: on machines that `R` relates, two actions come to values that `V` relates or to the same failure,
  and leave machines that `R` relates.

  `Forgets plain x y`: the action `x` does what `y` does, but for a part of its state that `plain` drops, such as
  notes of what it did.
-/

import GuestHost.Program.Machine

namespace GuestHost

namespace Exec

variable {τ α β : Type}

theorem bind_apply {ε σ : Type} (x : EStateM ε σ α) (f : α → EStateM ε σ β) (s : σ) :
    (x >>= f) s = match x s with
      | .ok a s' => f a s'
      | .error e s' => .error e s' := by
  cases h : x s <;> simp only [bind, EStateM.bind, h]

theorem bind_of_ok {ε σ : Type} {x : EStateM ε σ α} {f : α → EStateM ε σ β} {s s' : σ} {a : α} (h : x s = .ok a s') :
    (x >>= f) s = f a s' := by rw [bind_apply, h]

theorem bind_of_error {ε σ : Type} {x : EStateM ε σ α} {f : α → EStateM ε σ β} {s s' : σ} {e : ε}
    (h : x s = .error e s') : (x >>= f) s = .error e s' := by rw [bind_apply, h]

theorem throw_bind {ε σ : Type} (e : ε) (f : α → EStateM ε σ β) : (throw e >>= f : EStateM ε σ β) = throw e := rfl

theorem bind_eq_ok {ε σ : Type} {x : EStateM ε σ α} {f : α → EStateM ε σ β} {s s' : σ} {b : β}
    (h : (x >>= f) s = .ok b s') : ∃ a s₁, x s = .ok a s₁ ∧ f a s₁ = .ok b s' := by
  rw [bind_apply] at h
  cases hx : x s with
  | ok a s₁ => rw [hx] at h; exact ⟨a, s₁, rfl, h⟩
  | error e s₁ => rw [hx] at h; cases h

theorem pure_apply (a : α) (m : Machine τ) : (pure a : Exec τ α) m = .ok a m := rfl

theorem get_apply (m : Machine τ) : (get : Exec τ (Machine τ)) m = .ok m m := rfl

theorem modify_apply (f : Machine τ → Machine τ) (m : Machine τ) : (modify f : Exec τ Unit) m = .ok () (f m) := rfl

/-- What a result satisfies: a value with the state it came in, or a failure with the state it came up in. -/
def After (Q : α → Machine τ → Prop) (E : Failure → Machine τ → Prop) : EStateM.Result Failure (Machine τ) α → Prop
  | .ok a m => Q a m
  | .error e m => E e m

/-- From every state in `P` the action ends in `Q`, or fails as `E` allows. -/
def Ends (P : Machine τ → Prop) (x : Exec τ α) (Q : α → Machine τ → Prop) (E : Failure → Machine τ → Prop) : Prop :=
  ∀ m, P m → After Q E (x m)

abbrev Keeps (I : Machine τ → Prop) (E : Failure → Machine τ → Prop) (x : Exec τ α) : Prop := Ends I x (fun _ => I) E

/-- Run from `m` the action comes to `m'`, with a value or with a failure. -/
def Leads (x : Exec τ α) (m m' : Machine τ) : Prop := (∃ a, x m = .ok a m') ∨ ∃ e, x m = .error e m'

/-- Run from `m` the action ends with this result in `m'`. -/
def Gives (x : Exec τ Unit) (m : Machine τ) (result : Except Failure Unit) (m' : Machine τ) : Prop :=
  x m = match result with
    | .ok () => .ok () m'
    | .error e => .error e m'

theorem Gives.leads {x : Exec τ Unit} {m m' : Machine τ} {result : Except Failure Unit} (h : Gives x m result m') :
    Leads x m m' := by
  cases result with
  | ok _ => exact .inl ⟨(), h⟩
  | error e => exact .inr ⟨e, h⟩

variable {P I : Machine τ → Prop} {Q Q' : α → Machine τ → Prop} {E E' : Failure → Machine τ → Prop}

theorem Ends.ok {x : Exec τ α} (h : Ends P x Q E) {m m' : Machine τ} {a : α} (hm : P m) (hx : x m = .ok a m') :
    Q a m' := by
  have := h m hm
  rwa [hx] at this

theorem Ends.error {x : Exec τ α} (h : Ends P x Q E) {m m' : Machine τ} {e : Failure} (hm : P m)
    (hx : x m = .error e m') : E e m' := by
  have := h m hm
  rwa [hx] at this

theorem Ends.somehow (x : Exec τ α) : Ends P x (fun _ _ => True) fun _ _ => True := by
  intro m _
  cases x m <;> trivial

theorem Ends.pure {a : α} (h : ∀ m, P m → Q a m) : Ends P (Pure.pure a) Q E := fun m hm => h m hm

theorem Ends.throw {e : Failure} (h : ∀ m, P m → E e m) : Ends P (throw e : Exec τ α) Q E := fun m hm => h m hm

theorem Ends.bind {S : β → Machine τ → Prop} {x : Exec τ α} {f : α → Exec τ β} (hx : Ends P x Q E)
    (hf : ∀ a, Ends (Q a) (f a) S E) : Ends P (x >>= f) S E := by
  intro m hm
  rw [bind_apply]
  have h := hx m hm
  cases hr : x m with
  | ok a m' => rw [hr] at h; exact hf a m' h
  | error e m' => rw [hr] at h; exact h

theorem Ends.modify {f : Machine τ → Machine τ} {Q : Unit → Machine τ → Prop} (h : ∀ m, P m → Q () (f m)) :
    Ends P (modify f) Q E := fun m hm => h m hm

theorem Ends.mono {x : Exec τ α} (h : Ends P x Q E) (hQ : ∀ a m, Q a m → Q' a m) (hE : ∀ e m, E e m → E' e m) :
    Ends P x Q' E' := by
  intro m hm
  have := h m hm
  cases hx : x m with
  | ok a m' => rw [hx] at this; exact hQ a m' this
  | error e m' => rw [hx] at this; exact hE e m' this

theorem Keeps.pure (a : α) : Keeps I E (Pure.pure a) := fun _ hm => hm

theorem Keeps.bind {x : Exec τ α} {f : α → Exec τ β} (hx : Keeps I E x) (hf : ∀ a, Keeps I E (f a)) :
    Keeps I E (x >>= f) := Ends.bind hx hf

theorem Keeps.ite {c : Prop} [Decidable c] {x y : Exec τ α} (hx : Keeps I E x) (hy : Keeps I E y) :
    Keeps I E (if c then x else y) := by
  split
  · exact hx
  · exact hy

theorem Keeps.forM {β : Type} {f : β → Exec τ Unit} (hf : ∀ b, Keeps I E (f b)) : ∀ l : List β, Keeps I E (l.forM f)
  | [] => Keeps.pure _
  | _ :: l => Keeps.bind (hf _) fun _ => Keeps.forM hf l

/-- An attempt passes over a failure; what the failure allows then has to keep `I` too. -/
theorem Ends.attempt {x : Exec τ α} (h : Ends P x Q E) :
    Ends P (attempt x) (fun r m => match r with
      | .ok a => Q a m
      | .error e => E e m) E' := by
  intro m hm
  have := h m hm
  unfold Exec.attempt
  cases hx : x m with
  | ok a m' => rw [hx] at this; exact this
  | error e m' => rw [hx] at this; exact this

theorem Keeps.attempt {x : Exec τ α} (h : Keeps I (fun _ => I) x) : Keeps I E (Exec.attempt x) := by
  refine Ends.mono (Ends.attempt h) (fun r m hr => ?_) fun _ _ hE => hE
  cases r with
  | ok a => exact hr
  | error e => exact hr

/-! ## Actions that take notes -/

section

variable {ε σ σ' : Type} {plain : σ → σ'} {x x' : EStateM ε σ α} {y y' : EStateM ε σ' α}

/-- A result without what `plain` drops of its state. -/
def forget (plain : σ → σ') : EStateM.Result ε σ α → EStateM.Result ε σ' α
  | .ok a s => .ok a (plain s)
  | .error e s => .error e (plain s)

/-- But for what `plain` drops of the state, `x` does what `y` does. -/
def Forgets (plain : σ → σ') (x : EStateM ε σ α) (y : EStateM ε σ' α) : Prop := ∀ s, forget plain (x s) = y (plain s)

theorem Forgets.pure (a : α) : Forgets plain (Pure.pure a : EStateM ε σ α) (Pure.pure a) := fun _ => rfl

theorem Forgets.bind {f : α → EStateM ε σ β} {g : α → EStateM ε σ' β} (hx : Forgets plain x y)
    (hf : ∀ a, Forgets plain (f a) (g a)) : Forgets plain (x >>= f) (y >>= g) := by
  intro s
  have h := hx s
  cases hr : x s with
  | ok a s' =>
    rw [hr] at h
    rw [bind_of_ok hr, bind_of_ok h.symm]
    exact hf a s'
  | error e s' =>
    rw [hr] at h
    rw [bind_of_error hr, bind_of_error h.symm]
    rfl

theorem Forgets.ite {c : Prop} [Decidable c] (hx : Forgets plain x y) (hx' : Forgets plain x' y') :
    Forgets plain (if c then x else x') (if c then y else y') := by
  split
  · exact hx
  · exact hx'

theorem Forgets.mapM {f : β → EStateM ε σ α} {g : β → EStateM ε σ' α} (h : ∀ b, Forgets plain (f b) (g b))
    (l : List β) : Forgets plain (l.mapM f) (l.mapM g) := by
  induction l with
  | nil => exact .pure []
  | cons b l ih =>
    rw [List.mapM_cons, List.mapM_cons]
    exact (h b).bind fun a => ih.bind fun as => .pure (a :: as)

end

/-- Whether a result is a value that came with a state of which `p` holds. -/
def okWith (p : Machine τ → Bool) : EStateM.Result Failure (Machine τ) α → Bool
  | .ok _ m => p m
  | .error _ _ => false

theorem exists_of_okWith {p : Machine τ → Bool} {r : EStateM.Result Failure (Machine τ) Unit} (h : okWith p r) :
    ∃ m, r = .ok () m ∧ p m := by
  cases r with
  | ok a m => exact ⟨m, rfl, h⟩
  | error e m => cases h

/-- Whether a result is a failure that came with a state, and `p` holds of both. -/
def errorWith (p : Failure → Machine τ → Bool) : EStateM.Result Failure (Machine τ) α → Bool
  | .ok _ _ => false
  | .error e m => p e m

theorem exists_of_errorWith {p : Failure → Machine τ → Bool} {r : EStateM.Result Failure (Machine τ) α}
    (h : errorWith p r) : ∃ e m, r = .error e m ∧ p e m := by
  cases r with
  | ok a m => cases h
  | error e m => exact ⟨e, m, rfl, h⟩

theorem eq_ok_of_toOption {ε : Type} {r : Except ε α} {a : α} (h : r.toOption = some a) : r = .ok a := by
  cases r with
  | ok b => exact congrArg _ (Option.some.inj h)
  | error e => cases h

end Exec

/-! ## Actions in step -/

section

open Exec

variable {τ τ' α β γ δ : Type} {R : Machine τ → Machine τ' → Prop}

/-- Two results are related values or the same failure, in related machines. -/
def Together (R : Machine τ → Machine τ' → Prop) (V : α → β → Prop) :
    EStateM.Result Failure (Machine τ) α → EStateM.Result Failure (Machine τ') β → Prop
  | .ok x m₁, .ok y m₂ => V x y ∧ R m₁ m₂
  | .error e m₁, .error f m₂ => f = e ∧ R m₁ m₂
  | _, _ => False

/-- On related machines the two actions come to related values or to the same failure. -/
def InStep (R : Machine τ → Machine τ' → Prop) (V : α → β → Prop) (x : Exec τ α) (y : Exec τ' β) : Prop :=
  ∀ m₁ m₂, R m₁ m₂ → Together R V (x m₁) (y m₂)

theorem Together.cases {V : α → β → Prop} {x : EStateM.Result Failure (Machine τ) α}
    {y : EStateM.Result Failure (Machine τ') β} (h : Together R V x y) :
    (∃ a a' m₁ m₂, x = .ok a m₁ ∧ y = .ok a' m₂ ∧ V a a' ∧ R m₁ m₂) ∨
      ∃ e m₁ m₂, x = .error e m₁ ∧ y = .error e m₂ ∧ R m₁ m₂ := by
  cases x with
  | ok a m₁ =>
    cases y with
    | ok a' m₂ => exact .inl ⟨a, a', m₁, m₂, rfl, rfl, h⟩
    | error f m₂ => exact h.elim
  | error e m₁ =>
    cases y with
    | ok a' m₂ => exact h.elim
    | error f m₂ =>
      obtain ⟨rfl, hm⟩ := h
      exact .inr ⟨_, m₁, m₂, rfl, rfl, hm⟩

namespace InStep

theorem pure {V : α → β → Prop} {x : α} {y : β} (h : V x y) : InStep R V (Pure.pure x) (Pure.pure y) :=
  fun _ _ hm => ⟨h, hm⟩

theorem throw {V : α → β → Prop} (e : Failure) :
    InStep R V (MonadExcept.throw e : Exec τ α) (MonadExcept.throw e : Exec τ' β) := fun _ _ hm => ⟨rfl, hm⟩

theorem get : InStep R R MonadState.get MonadState.get := fun _ _ hm => ⟨hm, hm⟩

theorem bind {V : α → β → Prop} {W : γ → δ → Prop} {x : Exec τ α} {y : Exec τ' β} {f : α → Exec τ γ}
    {g : β → Exec τ' δ} (hxy : InStep R V x y) (hfg : ∀ a a', V a a' → InStep R W (f a) (g a')) :
    InStep R W (x >>= f) (y >>= g) := by
  intro m₁ m₂ hm
  rcases (hxy m₁ m₂ hm).cases with ⟨a, a', n₁, n₂, hx, hy, hv, hn⟩ | ⟨e, n₁, n₂, hx, hy, hn⟩
  · rw [bind_of_ok hx, bind_of_ok hy]
    exact hfg a a' hv n₁ n₂ hn
  · rw [bind_of_error hx, bind_of_error hy]
    exact ⟨rfl, hn⟩

end InStep

end

end GuestHost
