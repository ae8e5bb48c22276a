/-
  GuestHost.Proofs.Asyncify.Moves — the moves of the wrapper and of the driver, one by one.

  Whatever is said of a bridge over a whole run is said at the points where control passes from one party to
  another: guest code runs (`I`), a handler is to begin (`H`), it has replied (`R`), the guest is to be entered
  (`J`), the driver has work to finish (`W`) and has finished it (`V`).

      J ──entered──▶ I ──handled──▶ H ──reply──▶ R ──accepted, or a value──▶ I
      ▲              │
      └──completed── V ◀── W ◀──awaited── I, once the entry point has returned

  `Wrapping` and `Driving` list what the assertions have to satisfy at each move; they are all that a property
  of the bridge has to prove, as the guest's code, its controls and its imports are run through once here.

  Proved:
  - `keeps_wrapped`, `ends_driven`, `ends_called`: imports, the driver and calls of the entry point.
  - `Guest.keeps_import`, `Guest.ends_runBridged`: every guest, with any bodies of its controls.
-/

import GuestHost.Proofs.Asyncify.Actions
import GuestHost.Proofs.Asyncify.Discipline

namespace GuestHost

open Exec

section

variable {κ η : Type}

/-- What a wrapped import does to the bridge, from `I` to `I`, with a handler that goes from `H` to `R`. -/
structure Wrapping (I H : Machine (Hosted κ η) → Prop) (R : Reply κ → Machine (Hosted κ η) → Prop)
    (E : Failure → Machine (Hosted κ η) → Prop) : Prop where
  consult : ∀ {m} state, I m → I (m.onBridge (·.logged (.consulted state m.outer.bridge.phase)))
  handle : ∀ {m}, I m →
    H ((m.onBridge (·.logged (.consulted .normal m.outer.bridge.phase))).onBridge (·.logged .handled))
  answer : ∀ {m value}, R (.ready value) m → I m
  accept : ∀ {m work}, R (.suspend work) m → m.outer.bridge.phase = .normal →
    I ((m.onBridge (·.inPhase (.unwinding work))).onBridge (·.logged (.accepted work)))
  refuse : ∀ {m work}, R (.suspend work) m → m.outer.bridge.phase ≠ .normal → E (.bridge .reentered) m
  give : ∀ {m value}, I m → m.outer.bridge.phase = .rewinding value →
    I ((m.onBridge (·.inPhase .normal)).onBridge (·.logged (.returned value)))
  /-- There was no value to take. -/
  missing : ∀ {m}, I m → E (.bridge .noSavedValue) (m.onBridge (·.inPhase .normal))
  stuck : ∀ {m} e, I m → E (.bridge e) m

/-- What the driver does to the bridge, from `J`, where the guest is to be entered, to `I`. -/
structure Driving (J I : Machine (Hosted κ η) → Prop) (W : κ → Machine (Hosted κ η) → Prop)
    (V : UInt32 → Machine (Hosted κ η) → Prop) (E : Failure → Machine (Hosted κ η) → Prop) : Prop where
  enter : ∀ {m}, J m → I (m.onBridge (·.logged .entered))
  leave : ∀ {m}, I m → I (m.onBridge (·.logged .left))
  await : ∀ {m work}, I m → m.outer.bridge.phase = .unwinding work →
    W work ((m.onBridge (·.inPhase .normal)).onBridge (·.logged (.awaited work)))
  complete : ∀ {m value}, V value m →
    J ((m.onBridge (·.logged (.completed value))).onBridge (·.inPhase (.rewinding value)))
  /-- There was no work to take. -/
  missing : ∀ {m}, I m → E (.bridge .noSuspension) (m.onBridge (·.inPhase .normal))
  stuck : ∀ {m} e, I m → E (.bridge e) m
  unready : ∀ {m} e, J m → E (.bridge e) m
  spent : ∀ {m}, I m → E .outOfFuel m

structure Controls.Keep {τ : Type} (controls : Controls τ) (I : Machine τ → Prop) (E : Failure → Machine τ → Prop) :
    Prop where
  startUnwind : ∀ addr, Keeps I E (controls.startUnwind addr)
  stopUnwind : Keeps I E controls.stopUnwind
  startRewind : ∀ addr, Keeps I E (controls.startRewind addr)
  stopRewind : Keeps I E controls.stopRewind
  getState : Keeps I E controls.getState

variable {I J H : Machine (Hosted κ η) → Prop} {R : Reply κ → Machine (Hosted κ η) → Prop}
  {W : κ → Machine (Hosted κ η) → Prop} {V : UInt32 → Machine (Hosted κ η) → Prop}
  {E : Failure → Machine (Hosted κ η) → Prop} {controls : Controls (Hosted κ η)}

theorem Controls.Keep.state (hc : controls.Keep I E) (hstuck : ∀ {m} e, I m → E (.bridge e) m) :
    Keeps I E controls.state := by
  refine Keeps.bind hc.getState ?_
  intro w
  split
  · exact Keeps.pure _
  · exact Ends.throw fun _ => hstuck _

theorem Controls.Keep.expectNormal (hc : controls.Keep I E) (hstuck : ∀ {m} e, I m → E (.bridge e) m) :
    Keeps I E controls.expectNormal := by
  refine Keeps.bind (hc.state hstuck) ?_
  intro state
  cases state with
  | normal => exact Keeps.pure _
  | unwinding | rewinding => exact Ends.throw fun _ => hstuck _

theorem keeps_requireBound (hstuck : ∀ {m} e, I m → E (.bridge e) m) :
    Keeps I E (Bridge.requireBound : Exec (Hosted κ η) Unit) := by
  intro m hm
  rw [Bridge.requireBound_apply]
  split
  · exact hm
  · exact hstuck _ hm

theorem ends_log {P Q : Machine (Hosted κ η) → Prop} (e : Milestone κ)
    (h : ∀ {m}, P m → Q (m.onBridge (·.logged e))) : Ends P (Bridge.log e) (fun _ => Q) E := fun _ hm => h hm

namespace Wrapping

theorem ends_answer (h : Wrapping I H R E) (hc : controls.Keep I E) (reply : Reply κ) :
    Ends (R reply) (Bridge.answer controls reply) (fun _ => I) E := by
  cases reply with
  | ready value => exact Ends.pure fun _ => h.answer
  | suspend work =>
    intro m hm
    show After _ _ ((Bridge.getPhase >>= _) m)
    rw [bind_of_ok (Bridge.getPhase_apply m)]
    cases hp : m.outer.bridge.phase with
    | normal => exact Keeps.bind (hc.startUnwind _) (fun _ => Keeps.pure 0) _ (h.accept hm hp)
    | unwinding other | rewinding value => exact h.refuse hm (by simp [hp])

/-- An import that is called during a rewind gives the value, if there is one. -/
theorem keeps_give (h : Wrapping I H R E) : Keeps I E (do
    match ← Bridge.takePhase with
    | .rewinding value =>
      Bridge.log (.returned value)
      return value
    | _ => throw (.bridge .noSavedValue) : Exec (Hosted κ η) UInt32) := by
  intro m hm
  rw [bind_of_ok (Bridge.takePhase_apply m)]
  cases hp : m.outer.bridge.phase with
  | rewinding value => exact h.give hm hp
  | normal | unwinding work => exact h.missing hm

theorem keeps_wrapped (h : Wrapping I H R E) (hc : controls.Keep I E) {handler : Exec (Hosted κ η) (Reply κ)}
    (hh : Ends H handler R E) : Keeps I E (Bridge.wrapImport controls handler) := by
  refine Keeps.bind (keeps_requireBound h.stuck) fun _ => Keeps.bind (hc.state h.stuck) ?_
  intro state m hm
  rw [bind_of_ok (Bridge.getPhase_apply m), bind_of_ok (Bridge.log_apply _ _)]
  cases state with
  | rewinding => exact Keeps.bind hc.stopRewind (fun _ => h.keeps_give) _ (h.consult .rewinding hm)
  | unwinding => exact h.stuck _ (h.consult .unwinding hm)
  | normal => exact Ends.bind hh (h.ends_answer hc) _ (h.handle hm)

theorem keeps_disciplined {α : Type} (h : Wrapping I I (fun _ => I) E) (hb : OnBridge I E) (hc : controls.Keep I E)
    {x : Exec (Hosted κ η) α} (hx : Disciplined controls x) : Keeps I E x :=
  hx.keeps hb fun _ hh => h.keeps_wrapped hc hh

end Wrapping

namespace Driving

/-- The driver goes from `I` to `I`: what it takes from the bridge it puts back as a value. -/
theorem ends_driven (h : Driving J I W V E) (hc : controls.Keep I E) (hready : controls.Keep J E)
    {complete : κ → Exec (Hosted κ η) UInt32} (hcomplete : ∀ work, Ends (W work) (complete work) V E)
    {entry : Exec (Hosted κ η) Unit} (hentry : Keeps I E entry) (fuel : Nat) :
    Keeps I E (Bridge.drive controls entry complete fuel) := by
  induction fuel with
  | zero =>
    unfold Bridge.drive
    refine Keeps.bind (hc.state h.stuck) ?_
    intro state
    cases state with
    | normal | rewinding => exact Keeps.pure _
    | unwinding => exact Ends.throw fun _ => h.spent
  | succ fuel ih =>
    have hagain : Ends J (do
        controls.expectNormal
        controls.startRewind unwindDataStart
        Bridge.log .entered
        entry
        Bridge.log .left
        Bridge.drive controls entry complete fuel) (fun _ => I) E :=
      Ends.bind (hready.expectNormal h.unready) fun _ => Ends.bind (hready.startRewind _) fun _ =>
        Ends.bind (ends_log _ h.enter) fun _ => Ends.bind hentry fun _ => Ends.bind (ends_log _ h.leave) fun _ => ih
    unfold Bridge.drive
    refine Keeps.bind (hc.state h.stuck) ?_
    intro state
    cases state with
    | normal | rewinding => exact Keeps.pure _
    | unwinding =>
      refine Keeps.bind hc.stopUnwind ?_
      intro _ m hm
      rw [bind_of_ok (Bridge.takePhase_apply m)]
      cases hp : m.outer.bridge.phase with
      | normal | rewinding value => exact h.missing hm
      | unwinding work =>
        exact Ends.bind (hcomplete work) (fun value m' hm' => hagain _ (h.complete hm')) _ (h.await hm hp)

/-- A call of the entry point goes from `J` to `I`, and does not return with a value left over. -/
theorem ends_called (h : Driving J I W V E) (hc : controls.Keep I E) (hready : controls.Keep J E)
    {complete : κ → Exec (Hosted κ η) UInt32} (hcomplete : ∀ work, Ends (W work) (complete work) V E)
    {entry : Exec (Hosted κ η) Unit} (hentry : Keeps I E entry) (fuel : Nat) :
    Ends J (Bridge.callEntrypoint controls entry complete fuel)
      (fun _ m => I m ∧ ∀ value, m.outer.bridge.phase ≠ .rewinding value) E := by
  refine Ends.bind (keeps_requireBound h.unready) fun _ => Ends.bind (hready.expectNormal h.unready) fun _ => ?_
  refine Ends.bind (ends_log _ h.enter) fun _ => Ends.bind hentry fun _ => Ends.bind (ends_log _ h.leave) fun _ => ?_
  refine Ends.bind (h.ends_driven hc hready hcomplete hentry fuel) fun _ => Ends.bind (hc.expectNormal h.stuck) ?_
  intro _ m hm
  rw [bind_of_ok (Bridge.getPhase_apply m)]
  cases hp : m.outer.bridge.phase with
  | rewinding value => exact h.stuck _ hm
  | normal | unwinding work => exact ⟨hm, fun _ h => by rw [hp] at h; cases h⟩

end Driving

/-! ## Guests -/

namespace Guest

theorem keep_controlsWith {τ : Type} {I : Machine τ → Prop} {E : Failure → Machine τ → Prop}
    (h : Undisturbed I E fun _ => True) (g : Guest) (limits : Limits)
    {call : ImportName → List Value → Exec τ (List Value)} (hc : ∀ target args, Keeps I E (call target args)) :
    (g.controlsWith limits call).Keep I E := by
  have hrun (body : Stmt) (params : List Value) : Keeps I E (body.run (g.setting limits false call) params) :=
    Stmt.keeps_run h hc body fun _ _ => trivial
  have hunit (body : Stmt) (params : List Value) :
      Keeps I E (do let _ ← body.run (g.setting limits false call) params : Exec τ Unit) :=
    Keeps.bind (hrun body params) fun _ => Keeps.pure _
  exact {
    startUnwind := fun _ => hunit _ _
    stopUnwind := hunit _ _
    startRewind := fun _ => hunit _ _
    stopRewind := hunit _ _
    getState := Keeps.bind (hrun _ _) fun locals => Expr.keeps_eval h hc locals _ }

variable (g : Guest) (limits : Limits) (host : Host κ η)

theorem keeps_import (h : Undisturbed I E fun _ => True)
    (hhost : ∀ controls : Controls (Hosted κ η), controls.Keep I E →
      ∀ target args, Keeps I E (host.answer controls target args)) :
    ∀ target args, Keeps I E (g.callImport limits host limits.depth target args) :=
  keeps_callImport h g limits host (fun _ hc => hhost _ (g.keep_controlsWith h limits hc)) limits.depth

/-- Every guest goes from `J` to `I`, if its host keeps both, and does not return with a value left over. -/
theorem ends_runBridged (h : Driving J I W V E) (hI : Undisturbed I E fun _ => True)
    (hJ : Undisturbed J E fun _ => True) (hcomplete : ∀ work, Ends (W work) (host.complete work) V E)
    (hinside : ∀ controls : Controls (Hosted κ η), controls.Keep I E →
      ∀ target args, Keeps I E (host.answer controls target args))
    (hready : ∀ controls : Controls (Hosted κ η), controls.Keep J E →
      ∀ target args, Keeps J E (host.answer controls target args)) :
    Ends J (g.runBridged limits host) (fun _ m => I m ∧ ∀ value, m.outer.bridge.phase ≠ .rewinding value) E := by
  have hcall := g.keeps_import limits host hI hinside
  have hcontrols := g.keep_controlsWith hJ limits (g.keeps_import limits host hJ hready)
  have hentry := g.keeps_entryWith hI limits hcall fun _ _ => trivial
  exact h.ends_called (g.keep_controlsWith hI limits hcall) hcontrols hcomplete hentry limits.turns

end Guest

end

end GuestHost
