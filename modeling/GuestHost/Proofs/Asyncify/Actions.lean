/-
  GuestHost.Proofs.Asyncify.Actions — the bridge's actions as functions of the state, and the usual controls.

  The usual controls do nothing but set the state global and read it, so the state that such a guest gives is
  the one that the global holds.

  Proved:
  - `Bridge.wrapImport_eq`, `Guest.wrapImport_rewound`: what a wrapped import comes to.
  - `Guest.answer_suspend`: what becomes of a handler's work.
-/

import GuestHost.Proofs.Program.Keeping

namespace GuestHost

open Exec

section

variable {κ η τ : Type}

def Bridge.logged (b : Bridge κ) (e : Milestone κ) : Bridge κ := { b with journal := b.journal.push e }

def Bridge.inPhase (b : Bridge κ) (phase : Phase κ) : Bridge κ := { b with phase }

@[simp] theorem Bridge.phase_logged (b : Bridge κ) (e : Milestone κ) : (b.logged e).phase = b.phase := rfl

@[simp] theorem Bridge.phase_inPhase (b : Bridge κ) (phase : Phase κ) : (b.inPhase phase).phase = phase := rfl

namespace Machine

def onBridge (m : Machine (Hosted κ η)) (f : Bridge κ → Bridge κ) : Machine (Hosted κ η) :=
  { m with outer := { m.outer with bridge := f m.outer.bridge } }

def setGlobal (m : Machine τ) (k : Nat) (w : UInt32) : Machine τ := { m with globals := m.globals.set k w }

@[simp] theorem bridge_onBridge (m : Machine (Hosted κ η)) (f : Bridge κ → Bridge κ) :
    (m.onBridge f).outer.bridge = f m.outer.bridge := rfl

@[simp] theorem globals_onBridge (m : Machine (Hosted κ η)) (f : Bridge κ → Bridge κ) :
    (m.onBridge f).globals = m.globals := rfl

@[simp] theorem globals_setGlobal (m : Machine τ) (k : Nat) (w : UInt32) :
    (m.setGlobal k w).globals = m.globals.set k w := rfl

@[simp] theorem outer_setGlobal (m : Machine τ) (k : Nat) (w : UInt32) : (m.setGlobal k w).outer = m.outer := rfl

@[simp] theorem core_setGlobal (m : Machine τ) (k : Nat) (w : UInt32) :
    (m.setGlobal k w).core = m.core.setGlobal k w := rfl

@[simp] theorem globals_core (m : Machine τ) : m.core.globals = m.globals := rfl

end Machine

theorem Core.setGlobal_same {c : Core} {k : Nat} {w : UInt32} (h : c.globals.getD k 0 = w) : c.setGlobal k w = c := by
  have hset : c.globals.set k w = c.globals := by
    by_cases hk : k < c.globals.length
    · rw [List.getD_eq_getElem?_getD, List.getElem?_eq_getElem hk, Option.getD_some] at h
      rw [← h]
      exact List.set_getElem_self hk
    · exact List.set_eq_of_length_le (Nat.le_of_not_lt hk)
  simp only [Machine.setGlobal, hset]

theorem Core.setGlobal_twice (c : Core) (k : Nat) (v w : UInt32) :
    (c.setGlobal k v).setGlobal k w = c.setGlobal k w := by
  simp only [Machine.setGlobal, List.set_set]

theorem Core.getD_setGlobal {c : Core} {k : Nat} {w : UInt32} (hk : k < c.globals.length) :
    (c.setGlobal k w).globals.getD k 0 = w := by
  simp only [Machine.globals_setGlobal, List.getD_eq_getElem?_getD, List.getElem?_set_self hk, Option.getD_some]

namespace Bridge

variable (m : Machine (Hosted κ η))

theorem getPhase_apply : getPhase m = .ok m.outer.bridge.phase m := rfl

theorem setPhase_apply (phase : Phase κ) : setPhase phase m = .ok () (m.onBridge (·.inPhase phase)) := rfl

theorem takePhase_apply : takePhase m = .ok m.outer.bridge.phase (m.onBridge (·.inPhase .normal)) := rfl

theorem log_apply (e : Milestone κ) : log e m = .ok () (m.onBridge (·.logged e)) := rfl

theorem requireBound_apply :
    requireBound m = if m.outer.bridge.bound then .ok () m else .error (.bridge .uninitialized) m := by
  simp only [requireBound, bind_apply, get_apply]
  split <;> rfl

def answer (controls : Controls (Hosted κ η)) : Reply κ → Exec (Hosted κ η) UInt32
  | .ready value => return value
  | .suspend work => do
    match ← getPhase with
    | .normal =>
      setPhase (.unwinding work)
      log (.accepted work)
      controls.startUnwind unwindDataStart
      return 0
    | _ => throw (.bridge .reentered)

/-- An import that is called in the state `normal`: its handler decides. -/
theorem wrapImport_eq {controls : Controls (Hosted κ η)} (handler : Exec (Hosted κ η) (Reply κ))
    {m m₀ : Machine (Hosted κ η)} (hbound : m.outer.bridge.bound = true) (hstate : controls.state m = .ok .normal m₀) :
    wrapImport controls handler m = (handler >>= answer controls)
      ((m₀.onBridge (·.logged (.consulted .normal m₀.outer.bridge.phase))).onBridge (·.logged .handled)) := by
  unfold wrapImport
  rw [bind_of_ok (by rw [requireBound_apply, if_pos hbound]), bind_of_ok hstate, bind_of_ok (getPhase_apply m₀),
    bind_of_ok (log_apply _ _)]
  dsimp only
  rw [bind_of_ok (log_apply _ _)]
  rfl

/-- What the driver asks of a guest that has returned. -/
def settle (controls : Controls (Hosted κ η)) : Exec (Hosted κ η) Unit := do
  controls.expectNormal
  match ← getPhase with
  | .rewinding _ => throw (.bridge .noSavedValue)
  | _ => return

theorem callEntrypoint_eq (controls : Controls (Hosted κ η)) (entry : Exec (Hosted κ η) Unit)
    (complete : κ → Exec (Hosted κ η) UInt32) (fuel : Nat) :
    callEntrypoint controls entry complete fuel = (do
      requireBound
      controls.expectNormal
      log .entered
      entry
      log .left
      drive controls entry complete fuel
      settle controls) := rfl

end Bridge

/-! ## The usual controls -/

namespace Guest

variable {g : Guest} (h : g.controls = {}) (limits : Limits) (call : ImportName → List Value → Exec τ (List Value))
  (m : Machine τ)
include h

theorem getState_usual : (g.controlsWith limits call).getState m = .ok (m.globals.getD stateGlobal 0) m := by
  simp only [controlsWith, h]
  rfl

theorem state_usual : (g.controlsWith limits call).state m = match GuestState.ofWord (m.globals.getD stateGlobal 0) with
    | .ok s => .ok s m
    | .error e => .error (.bridge e) m := by
  simp only [Controls.state, bind_apply, getState_usual h]
  split <;> simp_all <;> rfl

theorem expectNormal_usual (s : GuestState) : GuestState.ofWord (m.globals.getD stateGlobal 0) = .ok s →
    (g.controlsWith limits call).expectNormal m = match s with
      | .normal => .ok () m
      | .unwinding => .error (.bridge (.invalidState 1)) m
      | .rewinding => .error (.bridge (.invalidState 2)) m := by
  intro hs
  simp only [Controls.expectNormal, bind_apply, state_usual h, hs]
  cases s <;> rfl

theorem startUnwind_usual (addr : UInt32) :
    (g.controlsWith limits call).startUnwind addr m = .ok () (m.setGlobal stateGlobal 1) := by
  simp only [controlsWith, h]
  rfl

theorem stopUnwind_usual : (g.controlsWith limits call).stopUnwind m = .ok () (m.setGlobal stateGlobal 0) := by
  simp only [controlsWith, h]
  rfl

theorem startRewind_usual (addr : UInt32) :
    (g.controlsWith limits call).startRewind addr m = .ok () (m.setGlobal stateGlobal 2) := by
  simp only [controlsWith, h]
  rfl

theorem stopRewind_usual : (g.controlsWith limits call).stopRewind m = .ok () (m.setGlobal stateGlobal 0) := by
  simp only [controlsWith, h]
  rfl

omit h in
/-- Work is stored if nothing is stored yet, and the guest then unwinds. -/
theorem answer_suspend {κ η : Type} (h : g.controls = {})
    (call : ImportName → List Value → Exec (Hosted κ η) (List Value)) (work : κ) {m : Machine (Hosted κ η)}
    (hphase : m.outer.bridge.phase = .normal) :
    Bridge.answer (g.controlsWith limits call) (.suspend work) m =
      .ok 0 (((m.onBridge (·.inPhase (.unwinding work))).onBridge
        (·.logged (.accepted work))).setGlobal stateGlobal 1) := by
  show (Bridge.getPhase >>= _) m = _
  rw [bind_of_ok (Bridge.getPhase_apply m)]
  simp only [hphase]
  rw [bind_of_ok (Bridge.setPhase_apply _ _), bind_of_ok (Bridge.log_apply _ _),
    bind_of_ok (startUnwind_usual h limits call _ _)]
  rfl

omit h in
/-- An import that is called while the guest neither unwinds nor rewinds: its handler decides. -/
theorem wrapImport_normal (h : g.controls = {}) (call : ImportName → List Value → Exec (Hosted κ η) (List Value))
    (handler : Exec (Hosted κ η) (Reply κ)) {m : Machine (Hosted κ η)} (hbound : m.outer.bridge.bound = true)
    (hstate : m.globals.getD stateGlobal 0 = 0) :
    Bridge.wrapImport (g.controlsWith limits call) handler m =
      (handler >>= Bridge.answer (g.controlsWith limits call))
        (m.core.within
          ⟨(m.outer.bridge.logged (.consulted .normal m.outer.bridge.phase)).logged .handled, m.outer.host⟩) := by
  have hguest : (g.controlsWith limits call).state m = .ok .normal m := by rw [state_usual h, hstate]; rfl
  exact Bridge.wrapImport_eq handler hbound hguest

omit h in
/-- An import that is called while the guest rewinds takes the value. -/
theorem wrapImport_rewinding (h : g.controls = {}) (call : ImportName → List Value → Exec (Hosted κ η) (List Value))
    (handler : Exec (Hosted κ η) (Reply κ)) {m : Machine (Hosted κ η)} {w : UInt32}
    (hbound : m.outer.bridge.bound = true) (hphase : m.outer.bridge.phase = .rewinding w)
    (hstate : m.globals.getD stateGlobal 0 = 2) :
    ∃ b : Bridge κ, b.phase = .normal ∧ b.bound = true ∧
      Bridge.wrapImport (g.controlsWith limits call) handler m =
        .ok w ((m.core.setGlobal stateGlobal 0).within ⟨b, m.outer.host⟩) := by
  have hguest : (g.controlsWith limits call).state m = .ok .rewinding m := by rw [state_usual h, hstate]; rfl
  refine ⟨((m.outer.bridge.logged (.consulted .rewinding (.rewinding w))).inPhase .normal).logged (.returned w), rfl,
    hbound, ?_⟩
  unfold Bridge.wrapImport
  rw [bind_of_ok (by rw [Bridge.requireBound_apply, if_pos hbound]), bind_of_ok hguest,
    bind_of_ok (Bridge.getPhase_apply m), bind_of_ok (Bridge.log_apply _ _)]
  dsimp only
  rw [bind_of_ok (stopRewind_usual h limits call _), bind_of_ok (Bridge.takePhase_apply _)]
  simp only [Machine.outer_setGlobal, Machine.bridge_onBridge, Bridge.phase_logged, hphase]
  rw [bind_of_ok (Bridge.log_apply _ _)]
  rfl

omit h in
/-- A guest that is rewound to a call is as it was before the rewind when the call returns. -/
theorem wrapImport_rewound (h : g.controls = {}) (call : ImportName → List Value → Exec (Hosted κ η) (List Value))
    (handler : Exec (Hosted κ η) (Reply κ)) {c : Core} {b : Bridge κ} (host : η) {w : UInt32}
    (hstate : c.globals.getD stateGlobal 0 = 0) (hroom : stateGlobal < c.globals.length)
    (hphase : b.phase = .rewinding w) (hbound : b.bound = true) :
    ∃ b' : Bridge κ, b'.phase = .normal ∧ b'.bound = true ∧
      Bridge.wrapImport (g.controlsWith limits call) handler ((c.setGlobal stateGlobal 2).within ⟨b, host⟩) =
        .ok w (c.within ⟨b', host⟩) := by
  let m : Machine (Hosted κ η) := (c.setGlobal stateGlobal 2).within ⟨b, host⟩
  have hset : m.globals.getD stateGlobal 0 = 2 := Core.getD_setGlobal hroom
  have hback : (c.setGlobal stateGlobal 2).setGlobal stateGlobal 0 = c := by
    rw [Core.setGlobal_twice, Core.setGlobal_same hstate]
  obtain ⟨b', hphase', hbound', hwrap⟩ := wrapImport_rewinding limits h call handler hbound hphase hset
  simp only [m, Machine.core_within, Machine.outer_within, hback] at hwrap
  exact ⟨b', hphase', hbound', hwrap⟩

end Guest

end

end GuestHost
