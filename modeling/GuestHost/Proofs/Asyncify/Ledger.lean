/-
  GuestHost.Proofs.Asyncify.Ledger — what becomes of suspensions, whatever the guest's controls do.

  The ledger of a bridge is the part of its journal that suspensions are in: accepted, awaited, completed,
  returned. `Account` says that it consists of whole cycles, one after the other, and of what the phase leaves
  open. A host may keep a debt of its own besides (`D`, over the phase and the host's state), such as bytes
  that were taken from the guest and not handed on.

  Proved:
  - `wrapping_balanced`, `driving_balanced`: imports and the driver keep the account and the host's debt.
  - `Guest.keeps_runBridged`: so do all guests, with any bodies of their controls.
  - `Guest.account_runBridged`: so the account of a call that returns is in order.
-/

import GuestHost.Proofs.Asyncify.Moves

namespace GuestHost

open Exec

section

variable {κ η : Type}

/-- Whether a milestone is one of a suspension. -/
def Milestone.ofSuspension : Milestone κ → Bool
  | accepted _ | awaited _ | completed _ | returned _ => true
  | _ => false

/-- The suspensions of a journal. -/
def Bridge.ledger (b : Bridge κ) : List (Milestone κ) := b.journal.toList.filter Milestone.ofSuspension

/-- A suspension from its acceptance to the return of its value. -/
structure Cycle (κ : Type) where
  work : κ
  value : UInt32

def Cycle.milestones (c : Cycle κ) : List (Milestone κ) :=
  [.accepted c.work, .awaited c.work, .completed c.value, .returned c.value]

inductive Phase.Open : Phase κ → List (Milestone κ) → Prop
  | normal : Open .normal []
  | unwinding (work : κ) : Open (.unwinding work) [.accepted work]
  | rewinding (work : κ) (value : UInt32) :
      Open (.rewinding value) [.accepted work, .awaited work, .completed value]

/-- After what was there before: whole cycles, and what the phase leaves open. -/
def Account (before : List (Milestone κ)) (phase : Phase κ) (ledger : List (Milestone κ)) : Prop :=
  ∃ (cycles : List (Cycle κ)) (rest : List (Milestone κ)),
    phase.Open rest ∧ ledger = before ++ cycles.flatMap Cycle.milestones ++ rest

namespace Account

variable {before ledger : List (Milestone κ)}

theorem start : Account ledger .normal ledger := ⟨[], [], .normal, by simp⟩

theorem accept (h : Account before .normal ledger) (work : κ) :
    Account before (.unwinding work) (ledger ++ [.accepted work]) := by
  obtain ⟨cycles, _, ⟨⟩, rfl⟩ := h
  exact ⟨cycles, _, .unwinding work, by simp⟩

theorem complete {work : κ} (h : Account before (.unwinding work) ledger) (value : UInt32) :
    Account before (.rewinding value) (ledger ++ [.awaited work, .completed value]) := by
  obtain ⟨cycles, _, ⟨⟩, rfl⟩ := h
  exact ⟨cycles, _, .rewinding work value, by simp⟩

theorem close {value : UInt32} (h : Account before (.rewinding value) ledger) :
    Account before .normal (ledger ++ [.returned value]) := by
  obtain ⟨cycles, _, ⟨⟩, rfl⟩ := h
  next work => exact ⟨cycles ++ [⟨work, value⟩], _, .normal, by simp [Cycle.milestones]⟩

end Account

theorem Bridge.ledger_logged (b : Bridge κ) (e : Milestone κ) :
    (b.logged e).ledger = if e.ofSuspension then b.ledger ++ [e] else b.ledger := by
  simp only [ledger, logged, Array.toList_push, List.filter_append, List.filter_cons, List.filter_nil]
  split <;> simp

@[simp] theorem Bridge.ledger_inPhase (b : Bridge κ) (phase : Phase κ) : (b.inPhase phase).ledger = b.ledger := rfl

/-! ## What imports and the driver keep -/

variable (before : List (Milestone κ)) (D : Phase κ → η → Prop)

/-- The bridge's account is in order, and the host owes what the phase says. -/
def Balanced (m : Machine (Hosted κ η)) : Prop :=
  Account before m.outer.bridge.phase m.outer.bridge.ledger ∧ D m.outer.bridge.phase m.outer.host

/-- What a handler's reply leaves: balance, or an account to which its work can be added. -/
def Replied (r : Reply κ) (m : Machine (Hosted κ η)) : Prop :=
  match r with
  | .ready _ => Balanced before D m
  | .suspend work => Account before m.outer.bridge.phase m.outer.bridge.ledger ∧
      (m.outer.bridge.phase = .normal → D (.unwinding work) m.outer.host)

/-- The driver is at work on what it has taken from the bridge, and the host owes for `phase`. -/
def Taken (phase : Phase κ) (m : Machine (Hosted κ η)) : Prop :=
  (∃ work ledger, Account before (.unwinding work) ledger ∧ m.outer.bridge.ledger = ledger ++ [.awaited work]) ∧
    D phase m.outer.host

/-- Failures of the bridge are allowed everywhere, others where there is balance. -/
structure Lenient (E : Failure → Machine (Hosted κ η) → Prop) : Prop where
  bridge : ∀ e m, E (.bridge e) m
  balanced : ∀ e m, Balanced before D m → E e m

/-- The host's debt: its work pays what its suspension has run up, and the return of a value costs nothing. -/
structure Pays (complete : κ → Exec (Hosted κ η) UInt32) (E : Failure → Machine (Hosted κ η) → Prop) : Prop where
  complete : ∀ work b, Ends (fun m => m.outer.bridge = b ∧ D (.unwinding work) m.outer.host) (complete work)
    (fun value m => m.outer.bridge = b ∧ D (.rewinding value) m.outer.host) E
  returns : ∀ value s, D (.rewinding value) s → D .normal s

variable {before D} {E : Failure → Machine (Hosted κ η) → Prop}

theorem wrapping_balanced (hE : Lenient before D E) (hD : ∀ value s, D (.rewinding value) s → D .normal s) :
    Wrapping (Balanced before D) (Balanced before D) (Replied before D) E where
  consult _ h := ⟨by simpa [Bridge.ledger_logged, Milestone.ofSuspension] using h.1, h.2⟩
  handle h := ⟨by simpa [Bridge.ledger_logged, Milestone.ofSuspension] using h.1, h.2⟩
  answer h := h
  accept {m work} h hp := by
    obtain ⟨haccount, hdebt⟩ := h
    rw [hp] at haccount
    exact ⟨by simpa [Bridge.ledger_logged, Milestone.ofSuspension] using haccount.accept work, hdebt hp⟩
  refuse _ _ := hE.bridge _ _
  give {m value} h hp := by
    obtain ⟨haccount, hdebt⟩ := h
    rw [hp] at haccount hdebt
    exact ⟨by simpa [Bridge.ledger_logged, Milestone.ofSuspension] using haccount.close, hD _ _ hdebt⟩
  missing _ := hE.bridge _ _
  stuck _ _ := hE.bridge _ _

theorem driving_balanced (hE : Lenient before D E) :
    Driving (Balanced before D) (Balanced before D) (fun work => Taken before D (.unwinding work))
      (fun value => Taken before D (.rewinding value)) E where
  enter h := ⟨by simpa [Bridge.ledger_logged, Milestone.ofSuspension] using h.1, h.2⟩
  leave h := ⟨by simpa [Bridge.ledger_logged, Milestone.ofSuspension] using h.1, h.2⟩
  await {m work} h hp := by
    obtain ⟨haccount, hdebt⟩ := h
    rw [hp] at haccount hdebt
    exact ⟨⟨work, m.outer.bridge.ledger, haccount, by simp [Bridge.ledger_logged, Milestone.ofSuspension]⟩, hdebt⟩
  complete {m value} h := by
    obtain ⟨⟨work, ledger, haccount, hledger⟩, hdebt⟩ := h
    exact ⟨by simpa [Bridge.ledger_logged, Milestone.ofSuspension, hledger] using haccount.complete value, hdebt⟩
  missing _ := hE.bridge _ _
  stuck _ _ := hE.bridge _ _
  unready _ _ := hE.bridge _ _
  spent h := hE.balanced _ _ h

/-- Finishing work does not touch what the driver has taken. -/
theorem Pays.taken {complete : κ → Exec (Hosted κ η) UInt32} (hD : Pays D complete E) (work : κ) :
    Ends (Taken before D (.unwinding work)) (complete work) (fun value => Taken before D (.rewinding value)) E := by
  intro m ⟨htaken, hdebt⟩
  refine Ends.mono (hD.complete work m.outer.bridge) (fun value m' h => ?_) (fun _ _ h => h) m ⟨rfl, hdebt⟩
  exact ⟨by rw [h.1]; exact htaken, h.2⟩

/-! ## Guests -/

theorem undisturbed_balanced (hE : Lenient before D E) : Undisturbed (Balanced before D) E fun _ => True where
  own ho _ _ h := by rwa [Balanced, ho]
  setGlobal _ _ h := h
  fails _ h := hE.balanced _ _ h

namespace Guest

/-- Every guest keeps the balance, if its host does with controls that do; and it does not return with a value
left over. -/
theorem keeps_runBridged (hE : Lenient before D E) (g : Guest) (limits : Limits) (host : Host κ η)
    (hD : Pays D host.complete E)
    (hhost : ∀ controls : Controls (Hosted κ η), controls.Keep (Balanced before D) E →
      ∀ target args, Keeps (Balanced before D) E (host.answer controls target args)) :
    Ends (Balanced before D) (g.runBridged limits host)
      (fun _ m => Balanced before D m ∧ ∀ value, m.outer.bridge.phase ≠ .rewinding value) E := by
  have h := undisturbed_balanced hE
  exact g.ends_runBridged limits host (driving_balanced hE) h h hD.taken hhost hhost

/-- On a disciplined host the account of a call that returns is in order, and no value is left over. -/
theorem account_runBridged (g : Guest) (limits : Limits) {host : Host κ η} (hhost : host.Disciplined)
    {m m' : Machine (Hosted κ η)} (hm : m.outer.bridge.phase = .normal) (hr : g.runBridged limits host m = .ok () m') :
    Account m.outer.bridge.ledger m'.outer.bridge.phase m'.outer.bridge.ledger ∧
      ∀ value, m'.outer.bridge.phase ≠ .rewinding value := by
  let D : Phase κ → η → Prop := fun _ _ => True
  let E : Failure → Machine (Hosted κ η) → Prop := fun _ _ => True
  have hE : Lenient m.outer.bridge.ledger D E := ⟨fun _ _ => trivial, fun _ _ _ => trivial⟩
  have hbridge : OnBridge (Balanced m.outer.bridge.ledger D) E :=
    ⟨fun h hm => by rwa [Balanced, h.1], fun _ _ => trivial, fun _ _ => trivial⟩
  have hD : Pays D host.complete E := by
    refine ⟨fun work b m hm => ?_, fun _ _ _ => trivial⟩
    have hx := hhost.complete work b m.globals m ⟨hm.1, rfl⟩
    cases hres : host.complete work m with
    | ok value m' => rw [hres] at hx; exact ⟨hx.1, trivial⟩
    | error e m' => trivial
  have hanswer (controls : Controls (Hosted κ η)) (hc : controls.Keep (Balanced m.outer.bridge.ledger D) E)
      (target : ImportName) (args : List Value) :
      Keeps (Balanced m.outer.bridge.ledger D) E (host.answer controls target args) := by
    refine (hhost.answer controls target args).keeps hbridge ?_
    intro handler hh
    refine (wrapping_balanced hE fun _ _ _ => trivial).keeps_wrapped hc (Ends.mono hh (fun r m h => ?_) fun _ _ h => h)
    cases r with
    | ready value => exact h
    | suspend work => exact ⟨h.1, fun _ => trivial⟩
  have h := (g.keeps_runBridged hE limits host hD hanswer).ok ⟨hm ▸ Account.start, trivial⟩ hr
  exact ⟨h.1.1, h.2⟩

end Guest

end

end GuestHost
