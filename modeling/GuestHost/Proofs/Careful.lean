/-
  GuestHost.Proofs.Careful — steps that are right only because of something that was checked before.

  The host adds and multiplies words that a guest has chosen, cuts runs out of buffers, and copies bytes between
  runs. Its definitions are total: a sum that is too large wraps around, a run that reaches too far is cut short,
  and nothing tells. Here the same steps are partial. Each of them slips where its result would not be what is
  meant, and a slip ends the whole action: it is no failure, so nothing catches it.

  What the host does is then written a second time over these steps, with the checks that it makes itself left as
  they are. That the two agree (`Follows`, and the equations for reads) says that those checks are enough: no sum
  and no product is too large, no run reaches past the end of what it is cut from, and no copy goes between runs
  of different lengths.
-/

import GuestHost.Abi.Marshal
import GuestHost.Proofs.Program.Actions

namespace GuestHost

open Exec

inductive Slip where
  /-- A sum or a product is too large for its width, or a difference is below zero. -/
  | overflow
  /-- An index, or an end of a run, lies outside. -/
  | range
  /-- Bytes are copied to a run of another length. -/
  | lengths
  deriving DecidableEq, Repr

/-- An action that ends in a result, or slips. -/
def Careful (ε σ α : Type) : Type := σ → Except Slip (EStateM.Result ε σ α)

namespace Careful

variable {ε σ α β : Type}

instance : Monad (Careful ε σ) where
  pure a := fun s => .ok (.ok a s)
  bind x f := fun s =>
    match x s with
    | .ok (.ok a s') => f a s'
    | .ok (.error e s') => .ok (.error e s')
    | .error slip => .error slip

/-- An action that has no step which could slip. -/
instance : MonadLift (EStateM ε σ) (Careful ε σ) := ⟨fun x s => .ok (x s)⟩

/-- A single step. -/
instance : MonadLift (Except Slip) (Careful ε σ) := ⟨fun x s => x.map (.ok · s)⟩

/-- A read that ends in a value or an error, or slips. -/
abbrev Reading := ExceptT MarshalError (Except Slip)

/-! ## Steps -/

def add (a b : UInt32) : Except Slip UInt32 := if a.toNat + b.toNat < UInt32.size then .ok (a + b) else .error .overflow

def mul (a b : UInt32) : Except Slip UInt32 := if a.toNat * b.toNat < UInt32.size then .ok (a * b) else .error .overflow

def addLength (a b : Nat) : Except Slip Nat := if a + b < UInt64.size then .ok (a + b) else .error .overflow

def sub (a b : Nat) : Except Slip Nat := if b ≤ a then .ok (a - b) else .error .overflow

def cut (l : List α) (start stop : Nat) : Except Slip (List α) :=
  if start ≤ stop ∧ stop ≤ l.length then .ok ((l.drop start).take (stop - start)) else .error .range

def byteAt (v : View) (i : Nat) : Except Slip UInt8 := if i < v.size then .ok (v.byte i) else .error .range

theorem add_eq_ok {a b : UInt32} (h : a.toNat + b.toNat < UInt32.size) : add a b = .ok (a + b) := if_pos h

theorem mul_eq_ok {a b : UInt32} (h : a.toNat * b.toNat < UInt32.size) : mul a b = .ok (a * b) := if_pos h

theorem addLength_eq_ok {a b : Nat} (h : a + b < UInt64.size) : addLength a b = .ok (a + b) := if_pos h

theorem sub_eq_ok {a b : Nat} (h : b ≤ a) : sub a b = .ok (a - b) := if_pos h

theorem cut_eq_ok {l : List α} {start stop : Nat} (h : start ≤ stop) (hstop : stop ≤ l.length) :
    cut l start stop = .ok ((l.drop start).take (stop - start)) := if_pos ⟨h, hstop⟩

theorem cut_zero {l : List α} {stop : Nat} (h : stop ≤ l.length) : cut l 0 stop = .ok (l.take stop) :=
  cut_eq_ok (Nat.zero_le _) h

theorem cut_length {l : List α} {start : Nat} (h : start ≤ l.length) : cut l start l.length = .ok (l.drop start) := by
  rw [cut_eq_ok h (Nat.le_refl _), List.take_of_length_le (by simp)]

theorem byteAt_eq_ok {v : View} {i : Nat} (h : i < v.size) : byteAt v i = .ok (v.byte i) := if_pos h

theorem foldlM_eq_ok {f : β → α → Except ε β} {g : β → α → β} {l : List α} (h : ∀ b, ∀ a ∈ l, f b a = .ok (g b a))
    (b : β) : l.foldlM f b = .ok (l.foldl g b) := by
  induction l generalizing b with
  | nil => rfl
  | cons a l ih =>
    rw [List.foldlM_cons, h b a (List.mem_cons_self ..)]
    exact ih (fun b x hx => h b x (List.mem_cons_of_mem _ hx)) _

/-! ## Following -/

theorem bind_of_value {x : Careful ε σ α} {f : α → Careful ε σ β} {s s' : σ} {a : α} (h : x s = .ok (.ok a s')) :
    (x >>= f) s = f a s' := by
  simp only [Bind.bind, h]

theorem bind_of_step {x : Except Slip α} {f : α → Careful ε σ β} {s : σ} {a : α} (h : x = .ok a) :
    ((liftM x : Careful ε σ α) >>= f) s = f a s := by
  rw [h]
  rfl

theorem bind_of_failure {x : Careful ε σ α} {f : α → Careful ε σ β} {s s' : σ} {e : ε}
    (h : x s = .ok (.error e s')) : (x >>= f) s = .ok (.error e s') := by
  simp only [Bind.bind, h]

/-- Run from `s`, no step of the careful action slips, and it does what the other one does. -/
def Follows (x : Careful ε σ α) (y : EStateM ε σ α) (s : σ) : Prop := x s = .ok (y s)

theorem Follows.lift (y : EStateM ε σ α) (s : σ) : Follows (liftM y : Careful ε σ α) y s := rfl

theorem Follows.pure (a : α) (s : σ) : Follows (Pure.pure a : Careful ε σ α) (Pure.pure a) s := rfl

theorem Follows.bind {x : Careful ε σ α} {y : EStateM ε σ α} {f : α → Careful ε σ β} {g : α → EStateM ε σ β} {s : σ}
    (hx : Follows x y s) (hf : ∀ a s', y s = .ok a s' → Follows (f a) (g a) s') : Follows (x >>= f) (y >>= g) s := by
  unfold Follows at hx ⊢
  rw [bind_apply]
  cases hy : y s with
  | ok a s' => exact (bind_of_value (hx.trans (congrArg _ hy))).trans (hf a s' hy)
  | error e s' => exact bind_of_failure (hx.trans (congrArg _ hy))

theorem Follows.lift_bind {y : EStateM ε σ α} {f : α → Careful ε σ β} {g : α → EStateM ε σ β} {s : σ}
    (hf : ∀ a s', y s = .ok a s' → Follows (f a) (g a) s') : Follows ((liftM y : Careful ε σ α) >>= f) (y >>= g) s :=
  .bind (.lift y s) hf

theorem Follows.step {x : Except Slip α} {a : α} {f : α → Careful ε σ β} {y : EStateM ε σ β} {s : σ} (hx : x = .ok a)
    (hf : Follows (f a) y s) : Follows ((liftM x : Careful ε σ α) >>= f) y s := (bind_of_step hx).trans hf

/-- What follows depends on the state alone. -/
theorem Follows.get_bind {f : σ → Careful ε σ β} {g : σ → EStateM ε σ β} {s : σ} (h : Follows (f s) (g s) s) :
    Follows ((liftM (get : EStateM ε σ σ) : Careful ε σ σ) >>= f) (get >>= g) s := h

theorem Follows.ite {c : Prop} [Decidable c] {x x' : Careful ε σ α} {y y' : EStateM ε σ α} {s : σ}
    (hx : c → Follows x y s) (hx' : ¬ c → Follows x' y' s) : Follows (if c then x else x') (if c then y else y') s := by
  split
  · exact hx ‹_›
  · exact hx' ‹_›

namespace Reading

theorem bind_eq {x : Reading α} {y : Except MarshalError α} {f : α → Reading β} {g : α → Except MarshalError β}
    (hx : x.run = .ok y) (hf : ∀ a, y = .ok a → (f a).run = .ok (g a)) : (x >>= f).run = .ok (y >>= g) := by
  rw [ExceptT.run_bind, hx]
  cases y with
  | ok a => exact hf a rfl
  | error e => rfl

theorem step_eq {x : Except Slip α} {a : α} {f : α → Reading β} {y : Except MarshalError β} (hx : x = .ok a)
    (hf : (f a).run = .ok y) : ((liftM x : Reading α) >>= f).run = .ok y := by
  rw [hx]
  exact hf

theorem mapM_eq {f : α → Reading β} {g : α → Except MarshalError β} {l : List α} (h : ∀ a ∈ l, (f a).run = .ok (g a)) :
    (l.mapM f).run = .ok (l.mapM g) := by
  induction l with
  | nil => rfl
  | cons a l ih =>
    rw [List.mapM_cons, List.mapM_cons]
    refine bind_eq (h a (List.mem_cons_self ..)) fun b _ => ?_
    exact bind_eq (ih fun x hx => h x (List.mem_cons_of_mem _ hx)) fun bs _ => rfl

end Reading

end Careful

end GuestHost
