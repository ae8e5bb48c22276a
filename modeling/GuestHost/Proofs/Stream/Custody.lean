/-
  GuestHost.Proofs.Stream.Custody — operations on a descriptor in turn, and the transfers that are held meanwhile.

  A transfer is held under its number from when it is made until it is awaited or dropped. Which transfers are held
  after some operations, and with what they were made, can be told from the operations alone (`holding`): it does not
  matter what came of the transfers that were awaited.

  Proved:
  - `perform_await`, `turn_drop`: what comes of a transfer.
  - `performAll_cons`, `performAll_append`: sequences of operations, one after the other.
-/

import GuestHost.Stream.Exchange
import GuestHost.Proofs.Program.Actions
import Mathlib.Data.List.GetD

namespace GuestHost

open Exec

namespace Operation

def isClose : Operation → Bool
  | close => true
  | _ => false

/-- The lengths that an operation makes a transfer with. -/
def read? : Operation → Option (List UInt32)
  | startRead lens => some lens
  | _ => none

/-- The views that an operation makes a transfer with. -/
def write? : Operation → Option (List View)
  | startWrite views => some views
  | _ => none

/-- An operation of someone who makes reads, and awaits them or drops them in any order. -/
def OfReads : Operation → Prop
  | startRead _ | await _ | drop _ | close => True
  | _ => False

/-- An operation of someone who makes writes, and awaits them or drops them in any order. -/
def OfWrites : Operation → Prop
  | startWrite _ | await _ | drop _ | close => True
  | _ => False

end Operation

/-! ## What is held -/

section

variable {α : Type} (start? : Operation → Option α)

def hold (held : List (Option α)) (op : Operation) : List (Option α) :=
  match op with
  | .await number | .drop number => held.set number none
  | op => held ++ (start? op).toList.map some

/-- What is held under each number after operations in turn. -/
def holding (ops : List Operation) : List (Option α) := ops.foldl (hold start?) []

def awaited? (held : List (Option α)) : Operation → Option α
  | .await number => held.getD number none
  | _ => none

def awaits (held : List (Option α)) : List Operation → List α
  | [] => []
  | op :: ops => (awaited? held op).toList ++ awaits (hold start? held op) ops

end

def haveBytes (views : List View) : Bool := views.any fun v => v.size != 0

namespace Held

/-- A read that was made on a streaming input. -/
def ofLengths (lens : List UInt32) : Held := .read (if lens.all (· == 0) then .ready [] else .pending lens)

/-- A write that was made on a streaming output. -/
def ofViews (views : List View) : Held :=
  .write (if haveBytes views then .pending ((views.filter fun v => v.size != 0).map View.toList) else .ready 0)

end Held

namespace Exchange

/-! ## One operation -/

/-- How an operation ends, and what it leaves. -/
def turn (op : Operation) (x : Exchange) : Except StreamError Answer × Exchange :=
  match perform op x with
  | .ok a x' => (.ok a, x')
  | .error e x' => (.error e, x')

theorem turn_of_ok {op : Operation} {x x' : Exchange} {a : Answer} (h : perform op x = .ok a x') :
    turn op x = (.ok a, x') := by rw [turn, h]

theorem turn_of_error {op : Operation} {x x' : Exchange} {e : StreamError} (h : perform op x = .error e x') :
    turn op x = (.error e, x') := by rw [turn, h]

section

variable {α : Type} (make : α → Held) (d : Descriptor) {held : List (Option α)} {number : Nat}

theorem release_held (number : Nat) :
    release number ⟨d, held.map (Option.map make)⟩ =
      .ok ((held.getD number none).map make) ⟨d, (held.set number none).map (Option.map make)⟩ := by
  have hget : (held.map (Option.map make)).getD number none = (held.getD number none).map make :=
    List.getD_map held none (Option.map make)
  rw [release, hget, List.map_set]
  rfl

theorem perform_await {a : α} (h : held.getD number none = some a) :
    perform (.await number) ⟨d, held.map (Option.map make)⟩ =
      finish (make a) ⟨d, (held.set number none).map (Option.map make)⟩ := by
  show (release number >>= _) _ = _
  rw [bind_of_ok (release_held make d number), h]
  rfl

theorem turn_await_none (h : held.getD number none = none) :
    turn (.await number) ⟨d, held.map (Option.map make)⟩ =
      (.ok .noSuchTransfer, ⟨d, (held.set number none).map (Option.map make)⟩) := by
  apply turn_of_ok
  show (release number >>= _) _ = _
  rw [bind_of_ok (release_held make d number), h]
  rfl

theorem turn_drop (held : List (Option α)) (number : Nat) :
    turn (.drop number) ⟨d, held.map (Option.map make)⟩ =
      (.ok (if (held.getD number none).isSome then .done else .noSuchTransfer),
        ⟨d, (held.set number none).map (Option.map make)⟩) := by
  apply turn_of_ok
  show (release number >>= _) _ = _
  rw [bind_of_ok (release_held make d number)]
  cases held.getD number none <;> rfl

end

/-! ## Operations in turn -/

def answers (ops : List Operation) (x : Exchange) : List (Except StreamError Answer) :=
  (performAll ops x).1.map Prod.fst

theorem performAll_cons (op : Operation) (ops : List Operation) (x : Exchange) :
    performAll (op :: ops) x =
      (((turn op x).1, (turn op x).2.descriptor.events.drop x.descriptor.events.length) ::
        (performAll ops (turn op x).2).1, (performAll ops (turn op x).2).2) := by
  unfold turn
  cases h : perform op x <;> simp only [performAll, h]

theorem answers_cons (op : Operation) (ops : List Operation) (x : Exchange) :
    answers (op :: ops) x = (turn op x).1 :: answers ops (turn op x).2 := by
  rw [answers, performAll_cons]
  rfl

theorem performAll_append (ops more : List Operation) (x : Exchange) :
    performAll (ops ++ more) x =
      ((performAll ops x).1 ++ (performAll more (performAll ops x).2).1, (performAll more (performAll ops x).2).2) := by
  induction ops generalizing x with
  | nil => rfl
  | cons op ops ih => rw [List.cons_append, performAll_cons, performAll_cons, ih]; rfl

theorem answers_append (ops more : List Operation) (x : Exchange) :
    answers (ops ++ more) x = answers ops x ++ answers more (performAll ops x).2 := by
  rw [answers, performAll_append, List.map_append]
  rfl

end Exchange

end GuestHost
