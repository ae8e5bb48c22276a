/-
  GuestHost.Proofs.Asyncify.Course — the guest's state and the bridge's phase, for guests with the usual
  controls.

  The guest keeps its state in a global and the host keeps its phase; nothing ties the one to the other but
  that both change in the same places. `Standing` names the places, and `Next` what may happen at each: the
  journal of a call is a path through them. Inside the guest the two agree (`Running`). Between a suspension
  and the return of its value the driver parts and rejoins them.

      outside ─▶ inside normal ─▶ called ─▶ inside normal
                     │                          │
                     ▼                          ▼
                over normal              inside unwinding ─▶ refused
                                                │
        resumed ◀─ inside rewinding ◀─ ready ◀─ working ◀─ over unwinding

  The body may do anything else: ignore the unwind, loop, trap, call imports in any order. It must not set
  the state global itself.

  Proved:
  - `running_wrapImport`, `ends_entry`, `ends_drive`: the agreement holds at every call of an import, on every
    pass.
  - `Guest.ends_runBridged_fitting`: so every call of the entry point follows a path, to its end or to a failure.
  - `Called.phase`: where a handler has just begun, the bridge holds nothing.
  - `phase_follows_state`: what follows of every call of the entry point.
-/

import GuestHost.Proofs.Asyncify.Ledger

namespace GuestHost

open Exec

section

variable {κ η : Type}

/-- The guest's state that belongs to a phase. -/
def Phase.state : Phase κ → GuestState
  | normal => .normal
  | unwinding _ => .unwinding
  | rewinding _ => .rewinding

def GuestState.word : GuestState → UInt32
  | normal => 0
  | unwinding => 1
  | rewinding => 2

@[simp] theorem GuestState.ofWord_word (s : GuestState) : GuestState.ofWord s.word = .ok s := by cases s <;> rfl

/-! ## Journals -/

inductive Standing (κ : Type) where
  /-- The guest was not entered yet. -/
  | outside
  /-- The guest runs, or a handler, and the bridge is in this phase. -/
  | inside (phase : Phase κ)
  /-- An import was called; its handler is to begin. -/
  | called
  /-- An import was called while the guest unwinds. Nothing comes after this. -/
  | refused
  /-- An import was called while the guest rewinds; it is to return the value. -/
  | resumed (value : UInt32)
  /-- The entry point has returned. -/
  | over (phase : Phase κ)
  /-- The driver finishes work. -/
  | working (work : κ)
  /-- The work is finished; the guest is to be entered again. -/
  | ready (value : UInt32)

inductive Standing.Next : Standing κ → Milestone κ → Standing κ → Prop
  | enter : Next .outside .entered (.inside .normal)
  | call : Next (.inside .normal) (.consulted .normal .normal) .called
  | handle : Next .called .handled (.inside .normal)
  | accept (work : κ) : Next (.inside .normal) (.accepted work) (.inside (.unwinding work))
  | refuse (work : κ) : Next (.inside (.unwinding work)) (.consulted .unwinding (.unwinding work)) .refused
  | resume (value : UInt32) :
      Next (.inside (.rewinding value)) (.consulted .rewinding (.rewinding value)) (.resumed value)
  | give (value : UInt32) : Next (.resumed value) (.returned value) (.inside .normal)
  | leave (phase : Phase κ) : Next (.inside phase) .left (.over phase)
  | await (work : κ) : Next (.over (.unwinding work)) (.awaited work) (.working work)
  | complete (work : κ) (value : UInt32) : Next (.working work) (.completed value) (.ready value)
  | reenter (value : UInt32) : Next (.ready value) .entered (.inside (.rewinding value))

/-- A journal leads from one standing to another. -/
def Course : Standing κ → List (Milestone κ) → Standing κ → Prop
  | s, [], u => s = u
  | s, e :: l, u => ∃ t, s.Next e t ∧ Course t l u

namespace Course

variable {s t u : Standing κ} {l rest : List (Milestone κ)} {e : Milestone κ}

theorem append_iff : Course s (l ++ rest) u ↔ ∃ t, Course s l t ∧ Course t rest u := by
  induction l generalizing s with
  | nil => simp [Course]
  | cons e l ih =>
    simp only [List.cons_append, Course, ih]
    constructor
    · rintro ⟨t, hnext, t', hl, hrest⟩
      exact ⟨t', ⟨t, hnext, hl⟩, hrest⟩
    · rintro ⟨t', ⟨t, hnext, hl⟩, hrest⟩
      exact ⟨t, hnext, t', hl, hrest⟩

theorem snoc (h : Course s l t) (hnext : t.Next e u) : Course s (l ++ [e]) u :=
  append_iff.2 ⟨t, h, u, hnext, rfl⟩

/-- Every import is called in the state that belongs to the phase. -/
theorem corresponds (h : Course s l u) {state : GuestState} {phase : Phase κ} (hmem : .consulted state phase ∈ l) :
    state = phase.state := by
  obtain ⟨pre, post, rfl⟩ := List.append_of_mem hmem
  obtain ⟨t, -, t', hnext, -⟩ := append_iff.1 h
  cases hnext <;> rfl

/-- A handler begins right after its import was called in the normal state. -/
theorem before_handled {pre post : List (Milestone κ)} (h : Course .outside (pre ++ .handled :: post) u) :
    ∃ pre', pre = pre' ++ [.consulted .normal .normal] := by
  obtain ⟨t, hpre, t', hnext, -⟩ := append_iff.1 h
  cases hnext
  -- the start is not the place where handlers begin, so something came before
  rcases List.eq_nil_or_concat pre with rfl | ⟨pre', e, rfl⟩
  · cases hpre
  · rw [List.concat_eq_append] at hpre ⊢
    obtain ⟨t, -, t', hnext, rfl⟩ := append_iff.1 hpre
    cases hnext
    exact ⟨pre', rfl⟩

/-- Nothing comes after an import that was called during an unwind. -/
theorem after_refused {pre post : List (Milestone κ)} {phase : Phase κ}
    (h : Course s (pre ++ .consulted .unwinding phase :: post) u) : post = [] ∧ u = .refused := by
  obtain ⟨t, -, t', hnext, hpost⟩ := append_iff.1 h
  cases hnext
  cases post with
  | nil => exact ⟨rfl, hpost.symm⟩
  | cons e post => obtain ⟨_, hnext, -⟩ := hpost; cases hnext

/-- If the entry point returns before an import has taken the value, that is the end. -/
theorem after_missed {pre mid post : List (Milestone κ)} {value : UInt32}
    (h : Course s (pre ++ .completed value :: mid ++ .left :: post) u)
    (hmid : ∀ state phase, .consulted state phase ∉ mid) : post = [] ∧ u = .over (.rewinding value) := by
  rw [List.append_assoc] at h
  obtain ⟨t, -, t', hnext, h⟩ := append_iff.1 h
  cases hnext
  obtain ⟨t, hmid', t', hleft, hpost⟩ := append_iff.1 h
  have hat : t = .inside (.rewinding value) := by
    cases mid with
    | nil => cases hmid'; cases hleft
    | cons e mid =>
      obtain ⟨_, hnext, hrest⟩ := hmid'
      cases hnext
      cases mid with
      | nil => exact hrest.symm
      | cons e mid =>
        obtain ⟨_, hnext, hrest⟩ := hrest
        cases hnext with
        | resume => exact absurd (List.mem_cons_of_mem _ List.mem_cons_self) (hmid _ _)
        | leave =>
          -- what follows the return of the entry point is not its return
          cases mid with
          | nil => cases hrest; cases hleft
          | cons e mid => obtain ⟨_, hnext, -⟩ := hrest; cases hnext
  subst hat
  cases hleft
  cases post with
  | nil => exact ⟨rfl, hpost.symm⟩
  | cons e post => obtain ⟨_, hnext, -⟩ := hpost; cases hnext

end Course

/-! ## Runs -/

variable (before : List (Milestone κ))

/-- What the journal has in addition leads from the start to this standing. -/
def At (s : Standing κ) (m : Machine (Hosted κ η)) : Prop :=
  ∃ added, m.outer.bridge.journal.toList = before ++ added ∧ Course .outside added s

/-- The state global holds the state that belongs to the phase. -/
def Matched (m : Machine (Hosted κ η)) : Prop := m.globals[stateGlobal]? = some m.outer.bridge.phase.state.word

/-- The guest runs, and its state and the phase agree. -/
def Running (m : Machine (Hosted κ η)) : Prop := At before (.inside m.outer.bridge.phase) m ∧ Matched m

/-- The entry point has returned, and the guest's state and the phase agree. -/
def Returned (m : Machine (Hosted κ η)) : Prop := At before (.over m.outer.bridge.phase) m ∧ Matched m

structure Standing.Fits (s : Standing κ) (e : Failure) : Prop where
  kind : e.Outside ∨ e = .bridge .reentered ∨ e = .bridge (.invalidState 2)
  refused : s = .refused → e = .bridge .reentered
  missed : ∀ value, s = .over (.rewinding value) → e = .bridge (.invalidState 2)

/-- A failure at a standing that it fits. -/
def Fitting (e : Failure) (m : Machine (Hosted κ η)) : Prop := ∃ s, At before s m ∧ s.Fits e

variable {before}

theorem At.log {s u : Standing κ} {e : Milestone κ} {m : Machine (Hosted κ η)} (h : At before s m)
    (hnext : s.Next e u) : At before u (m.onBridge (·.logged e)) := by
  obtain ⟨added, hj, hcourse⟩ := h
  exact ⟨added ++ [e], by simp [Bridge.logged, hj], hcourse.snoc hnext⟩

theorem Standing.fits_of {s : Standing κ} {e : Failure} (hrefused : s ≠ .refused)
    (hmissed : ∀ value, s ≠ .over (.rewinding value))
    (h : e.Outside ∨ e = .bridge .reentered ∨ e = .bridge (.invalidState 2)) : s.Fits e :=
  ⟨h, fun hs => absurd hs hrefused, fun value hs => absurd hs (hmissed value)⟩

theorem Standing.fits_inside {phase : Phase κ} {e : Failure}
    (h : e.Outside ∨ e = .bridge .reentered ∨ e = .bridge (.invalidState 2)) : (inside phase).Fits e :=
  fits_of (by simp) (by simp) h

theorem onBridge_running : OnBridge (Running before) (Fitting (η := η) before) where
  stays h hm := by
    obtain ⟨hb, hg⟩ := h
    simpa only [Running, At, Matched, hb, hg] using hm
  failed h hm := by simpa only [Fitting, At, h.1] using hm
  fails he hm := ⟨_, hm.1, Standing.fits_inside (.inl he)⟩

theorem undisturbed_running :
    Undisturbed (Running before) (Fitting (η := η) before) fun k => k ≠ stateGlobal where
  own ho hg _ hm := onBridge_running.stays ⟨congrArg _ ho, hg⟩ hm
  setGlobal w hk hm := ⟨hm.1, by rw [Matched, List.getElem?_set_ne hk]; exact hm.2⟩
  fails he hm := onBridge_running.fails he.outside hm

theorem getElem?_stateGlobal {m : Machine (Hosted κ η)} (h : Matched m) (w : UInt32) :
    (m.setGlobal stateGlobal w).globals[stateGlobal]? = some w := by
  have hlen : stateGlobal < m.globals.length := (List.getElem?_eq_some_iff.1 h).1
  simp [hlen]

theorem getD_stateGlobal {m : Machine (Hosted κ η)} {w : UInt32} (h : m.globals[stateGlobal]? = some w) :
    m.globals.getD stateGlobal 0 = w := by
  rw [List.getD_eq_getElem?_getD, h]
  rfl

theorem ends_entry {entry : Exec (Hosted κ η) Unit} (hentry : Keeps (Running before) (Fitting before) entry) {α : Type}
    {rest : Exec (Hosted κ η) α} {Q : α → Machine (Hosted κ η) → Prop} {s : Standing κ} {m : Machine (Hosted κ η)}
    (hat : At before s m) (hnext : s.Next .entered (.inside m.outer.bridge.phase)) (hmatched : Matched m)
    (hrest : Ends (Returned before) rest Q (Fitting before)) :
    After Q (Fitting before)
      ((Bridge.log .entered >>= fun _ => entry >>= fun _ => Bridge.log .left >>= fun _ => rest) m) := by
  have hrunning : Running before (m.onBridge (·.logged .entered)) := ⟨hat.log hnext, hmatched⟩
  refine Ends.bind hentry (fun _ m' hm' => ?_) _ hrunning
  exact hrest (m'.onBridge (·.logged .left)) ⟨hm'.1.log (.leave _), hm'.2⟩

section

variable {g : Guest} (hcontrols : g.controls = {}) (limits : Limits)
  (call : ImportName → List Value → Exec (Hosted κ η) (List Value))
include hcontrols

theorem state_of_matched {m : Machine (Hosted κ η)} (h : Matched m) :
    (g.controlsWith limits call).state m = .ok m.outer.bridge.phase.state m := by
  rw [Guest.state_usual hcontrols, getD_stateGlobal h, GuestState.ofWord_word]

theorem running_reply (reply : Reply κ) :
    Keeps (Running before) (Fitting before) (Bridge.answer (g.controlsWith limits call) reply) := by
  cases reply with
  | ready value => exact Keeps.pure value
  | suspend work =>
    intro m hm
    cases hp : m.outer.bridge.phase with
    | unwinding other | rewinding value =>
      show After _ _ ((Bridge.getPhase >>= _) m)
      rw [bind_of_ok (Bridge.getPhase_apply m)]
      simp only [hp]
      exact ⟨_, hm.1, Standing.fits_inside (.inr (.inl rfl))⟩
    | normal =>
      rw [Guest.answer_suspend limits hcontrols call work hp]
      exact ⟨At.log (hp ▸ hm.1 : At before (.inside .normal) m) (.accept work), getElem?_stateGlobal hm.2 1⟩

theorem running_wrapImport {handler : Exec (Hosted κ η) (Reply κ)}
    (hh : Keeps (Running before) (Fitting before) handler) :
    Keeps (Running before) (Fitting before) (Bridge.wrapImport (g.controlsWith limits call) handler) := by
  intro m hm
  unfold Bridge.wrapImport
  rw [bind_apply, Bridge.requireBound_apply]
  by_cases hbound : m.outer.bridge.bound
  · rw [if_pos hbound]
    dsimp only
    rw [bind_apply, state_of_matched hcontrols limits call hm.2]
    dsimp only
    rw [bind_apply, Bridge.getPhase_apply]
    dsimp only
    rw [bind_apply, Bridge.log_apply]
    cases hp : m.outer.bridge.phase with
    | normal =>
      have hcalled : At before .called (m.onBridge (·.logged (.consulted .normal .normal))) :=
        At.log (hp ▸ hm.1 : At before (.inside .normal) m) .call
      have hrunning : Running before
          ((m.onBridge (·.logged (.consulted .normal .normal))).onBridge (·.logged .handled)) := by
        refine ⟨?_, hm.2⟩
        show At before (.inside m.outer.bridge.phase) _
        rw [hp]
        exact hcalled.log .handle
      exact Ends.bind hh (running_reply hcontrols limits call) _ hrunning
    | unwinding work =>
      have hrefused : At before .refused (m.onBridge (·.logged (.consulted .unwinding (.unwinding work)))) :=
        At.log (hp ▸ hm.1 : At before (.inside (.unwinding work)) m) (.refuse work)
      exact ⟨_, hrefused, .inr (.inl rfl), fun _ => rfl, by simp⟩
    | rewinding value =>
      have hresumed : At before (.resumed value) (m.onBridge (·.logged (.consulted .rewinding (.rewinding value)))) :=
        At.log (hp ▸ hm.1 : At before (.inside (.rewinding value)) m) (.resume value)
      let m₁ := (m.onBridge (·.logged (.consulted .rewinding (.rewinding value)))).setGlobal stateGlobal 0
      let m₂ := m₁.onBridge (·.inPhase .normal)
      have hrunning : Running before (m₂.onBridge (·.logged (.returned value))) :=
        ⟨At.log (m := m₂) hresumed (.give value), getElem?_stateGlobal hm.2 0⟩
      show After _ _ (((g.controlsWith limits call).stopRewind >>= _) (m.onBridge _))
      rw [bind_apply, Guest.stopRewind_usual hcontrols]
      dsimp only
      rw [bind_apply, Bridge.takePhase_apply]
      simp only [Machine.outer_setGlobal, Machine.bridge_onBridge, Bridge.phase_logged, hp]
      exact hrunning
  · rw [if_neg hbound]
    exact ⟨_, hm.1, Standing.fits_inside (.inl fun b h => by cases h; rfl)⟩

theorem ends_rewind {entry : Exec (Hosted κ η) Unit} (hentry : Keeps (Running before) (Fitting before) entry)
    {rest : Exec (Hosted κ η) Unit} {Q : Unit → Machine (Hosted κ η) → Prop}
    (hrest : Ends (Returned before) rest Q (Fitting before)) (work : κ) (value : UInt32) :
    Ends (fun m => At before (.working work) m ∧ m.globals[stateGlobal]? = some 0)
      (do
        Bridge.log (.completed value)
        Bridge.setPhase (.rewinding value)
        (g.controlsWith limits call).expectNormal
        (g.controlsWith limits call).startRewind unwindDataStart
        Bridge.log .entered
        entry
        Bridge.log .left
        rest) Q (Fitting before) := by
  intro m ⟨hat, hzero⟩
  let m₁ := (m.onBridge (·.logged (.completed value))).onBridge (·.inPhase (.rewinding value))
  have hready : At before (.ready value) m₁ := hat.log (.complete work value)
  have hmatched : Matched (m₁.setGlobal stateGlobal 2) := by
    have hlen : stateGlobal < m.globals.length := (List.getElem?_eq_some_iff.1 hzero).1
    show (m.globals.set stateGlobal 2)[stateGlobal]? = some 2
    simp [hlen]
  have hnormal : GuestState.ofWord (m₁.globals.getD stateGlobal 0) = .ok .normal := by
    rw [getD_stateGlobal (m := m₁) hzero]
    rfl
  show After _ _ (((g.controlsWith limits call).expectNormal >>= _) m₁)
  rw [bind_apply, Guest.expectNormal_usual hcontrols limits call m₁ .normal hnormal]
  dsimp only
  rw [bind_apply, Guest.startRewind_usual hcontrols]
  exact ends_entry hentry (m := m₁.setGlobal stateGlobal 2) hready (.reenter value) hmatched hrest

/-- The driver goes on until the guest has returned and does not unwind. -/
theorem ends_drive {complete : κ → Exec (Hosted κ η) UInt32} (hcomplete : ∀ work, Passive (complete work))
    {entry : Exec (Hosted κ η) Unit} (hentry : Keeps (Running before) (Fitting before) entry) (fuel : Nat) :
    Ends (Returned before) (Bridge.drive (g.controlsWith limits call) entry complete fuel)
      (fun _ m => Returned before m ∧ ∀ work, m.outer.bridge.phase ≠ .unwinding work) (Fitting before) := by
  induction fuel with
  | zero =>
    intro m hm
    unfold Bridge.drive
    rw [bind_apply, state_of_matched hcontrols limits call hm.2]
    cases hp : m.outer.bridge.phase with
    | normal | rewinding value => exact ⟨hm, fun _ h => by rw [hp] at h; cases h⟩
    | unwinding work =>
      have hat : At before (.over (.unwinding work)) m := hp ▸ hm.1
      exact ⟨_, hat, Standing.fits_of (by simp) (by simp) (.inl Failure.Own.outOfFuel.outside)⟩
  | succ fuel ih =>
    intro m hm
    unfold Bridge.drive
    rw [bind_apply, state_of_matched hcontrols limits call hm.2]
    cases hp : m.outer.bridge.phase with
    | normal | rewinding value => exact ⟨hm, fun _ h => by rw [hp] at h; cases h⟩
    | unwinding work =>
      let m₁ := ((m.setGlobal stateGlobal 0).onBridge (·.inPhase .normal)).onBridge (·.logged (.awaited work))
      have hworking : At before (.working work) m₁ :=
        At.log (m := m) (hp ▸ hm.1 : At before (.over (.unwinding work)) m) (.await work)
      have hzero : m₁.globals[stateGlobal]? = some 0 := getElem?_stateGlobal hm.2 0
      have hfinish : Ends (Still m₁.outer.bridge m₁.globals) (complete work)
          (fun _ m => At before (.working work) m ∧ m.globals[stateGlobal]? = some 0) (Fitting before) := by
        refine Ends.mono (hcomplete work _ _) (fun _ m' h => ?_) fun e m' h => ?_
        · exact ⟨by simpa only [At, h.1] using hworking, by rw [h.2]; exact hzero⟩
        · exact ⟨.working work, by simpa only [At, h.1.1] using hworking,
            Standing.fits_of (by simp) (by simp) (.inl h.2)⟩
      show After _ _ (((g.controlsWith limits call).stopUnwind >>= _) m)
      rw [bind_apply, Guest.stopUnwind_usual hcontrols]
      dsimp only
      rw [bind_apply, Bridge.takePhase_apply]
      simp only [Machine.outer_setGlobal, hp]
      exact Ends.bind hfinish (fun value => ends_rewind hcontrols limits call hentry ih work value) m₁ ⟨rfl, rfl⟩

/-- A call of the entry point ends with both in their normal state, or with a failure that fits. -/
theorem ends_callEntrypoint {complete : κ → Exec (Hosted κ η) UInt32} (hcomplete : ∀ work, Passive (complete work))
    {entry : Exec (Hosted κ η) Unit} (hentry : Keeps (Running before) (Fitting before) entry) (fuel : Nat) :
    Ends (fun m => At before .outside m ∧ Matched m ∧ m.outer.bridge.phase = .normal)
      (Bridge.callEntrypoint (g.controlsWith limits call) entry complete fuel)
      (fun _ m => Returned before m ∧ m.outer.bridge.phase = .normal) (Fitting before) := by
  intro m ⟨hat, hmatched, hphase⟩
  have hlast : Ends (fun m => Returned before m ∧ ∀ work, m.outer.bridge.phase ≠ .unwinding work)
      (Bridge.settle (g.controlsWith limits call))
      (fun _ m => Returned before m ∧ m.outer.bridge.phase = .normal) (Fitting before) := by
    intro m ⟨hm, hdone⟩
    have hstate := Guest.expectNormal_usual hcontrols limits call m m.outer.bridge.phase.state
      (by rw [getD_stateGlobal hm.2, GuestState.ofWord_word])
    unfold Bridge.settle
    rw [bind_apply, hstate]
    cases hp : m.outer.bridge.phase with
    | normal =>
      show After _ _ ((Bridge.getPhase >>= _) m)
      rw [bind_apply, Bridge.getPhase_apply]
      simp only [hp]
      exact ⟨hm, hp⟩
    | unwinding work => exact absurd hp (hdone work)
    | rewinding value =>
      exact ⟨.over (.rewinding value), hp ▸ hm.1, .inr (.inr rfl), by simp, fun _ _ => rfl⟩
  have hnormal : GuestState.ofWord (m.globals.getD stateGlobal 0) = .ok .normal := by
    rw [getD_stateGlobal hmatched, hphase]
    rfl
  rw [Bridge.callEntrypoint_eq, bind_apply, Bridge.requireBound_apply]
  by_cases hbound : m.outer.bridge.bound
  · rw [if_pos hbound]
    show After _ _ (((g.controlsWith limits call).expectNormal >>= _) m)
    rw [bind_apply, Guest.expectNormal_usual hcontrols limits call m .normal hnormal]
    refine ends_entry hentry hat (hphase ▸ .enter) hmatched ?_
    exact Ends.bind (ends_drive hcontrols limits call hcomplete hentry fuel) fun _ => hlast
  · rw [if_neg hbound]
    exact ⟨.outside, hat, Standing.fits_of (by simp) (by simp) (.inl fun b h => by cases h; rfl)⟩

end

/-! ## Guests with the usual controls -/

structure Orderly (result : Except Failure Unit) (added : List (Milestone κ)) : Prop where
  /-- Whenever an import is called, the guest's state belongs to the phase. -/
  corresponds : ∀ state phase, .consulted state phase ∈ added → state = phase.state
  /-- A handler begins only where its import was called in the normal state. -/
  handled : ∀ pre post, added = pre ++ .handled :: post → ∃ pre', pre = pre' ++ [.consulted .normal .normal]
  /-- An import that is called during an unwind is the last thing that happens. -/
  refused : ∀ pre phase post, added = pre ++ .consulted .unwinding phase :: post →
    post = [] ∧ result = .error (.bridge .reentered)
  /-- The bridge fails in these ways only. -/
  failures : ∀ b, result = .error (.bridge b) → b = .uninitialized ∨ b = .reentered ∨ b = .invalidState 2
  /-- A guest that was rewound and returns before it calls an import fails the run. -/
  missed : ∀ pre value mid post, added = pre ++ .completed value :: mid ++ .left :: post →
    (∀ state phase, .consulted state phase ∉ mid) → result = .error (.bridge (.invalidState 2))

theorem orderly_ok {added : List (Milestone κ)} (h : Course .outside added (.over .normal)) :
    Orderly (.ok ()) added where
  corresponds _ _ hmem := h.corresponds hmem
  handled _ _ hadded := Course.before_handled (hadded ▸ h)
  refused _ _ _ hadded := by cases (Course.after_refused (hadded ▸ h)).2
  failures _ hb := by cases hb
  missed _ _ _ _ hadded hmid := by cases (Course.after_missed (hadded ▸ h) hmid).2

theorem orderly_error {added : List (Milestone κ)} {s : Standing κ} {e : Failure} (h : Course .outside added s)
    (he : s.Fits e) : Orderly (.error e) added where
  corresponds _ _ hmem := h.corresponds hmem
  handled _ _ hadded := Course.before_handled (hadded ▸ h)
  refused _ _ _ hadded := by
    obtain ⟨hpost, hs⟩ := Course.after_refused (hadded ▸ h)
    exact ⟨hpost, congrArg _ (he.refused hs)⟩
  failures b hb := by
    cases hb
    rcases he.kind with h | h | h
    · exact .inl (h b rfl)
    · cases h; exact .inr (.inl rfl)
    · cases h; exact .inr (.inr rfl)
  missed _ _ _ _ hadded hmid := congrArg _ (he.missed _ (Course.after_missed (hadded ▸ h) hmid).2)

/-- Guests with the usual controls that leave their state global alone follow a path, to its end or to a failure that
fits. -/
theorem Guest.ends_runBridged_fitting (g : Guest) (before : List (Milestone κ)) (limits : Limits) {host : Host κ η}
    (hcontrols : g.controls = {}) (hbody : ∀ stmt ∈ g.body, stateGlobal ∉ stmt.globalsSet)
    (hhost : host.Disciplined) :
    Ends (fun m => At before .outside m ∧ Matched m ∧ m.outer.bridge.phase = .normal) (g.runBridged limits host)
      (fun _ m => Returned before m ∧ m.outer.bridge.phase = .normal) (Fitting before) := by
  have hcall : ∀ target args, Keeps (Running before) (Fitting before)
      (g.callImport limits host limits.depth target args) :=
    g.keeps_callImport undisturbed_running limits host (fun call _ target args =>
      (hhost.answer _ target args).keeps onBridge_running fun _ hh => running_wrapImport hcontrols limits call hh) _
  have hfree : ∀ k ∈ g.globalsSet, k ≠ stateGlobal := by
    intro k hk
    rcases List.mem_cons.1 hk with rfl | hk
    · decide
    · obtain ⟨stmt, hstmt, hset⟩ := List.mem_flatMap.1 hk
      rintro rfl
      exact hbody stmt hstmt hset
  have hentry := g.keeps_entryWith undisturbed_running limits hcall hfree
  exact ends_callEntrypoint hcontrols limits (g.callImport limits host limits.depth) hhost.complete hentry limits.turns

/-- The last that happened on the bridge: an import was called in the normal state, and its handler began. -/
def Called (m : Machine (Hosted κ η)) : Prop :=
  ∃ earlier, m.outer.bridge.journal.toList = earlier ++ [.consulted .normal m.outer.bridge.phase, .handled]

/-- On a path, the bridge holds nothing when a handler has just begun. -/
theorem Called.phase {m : Machine (Hosted κ η)} (h : Called m) {s : Standing κ} (hat : At [] s m) :
    m.outer.bridge.phase = .normal := by
  obtain ⟨earlier, hlast⟩ := h
  obtain ⟨added, hjournal, hcourse⟩ := hat
  have hmem : .consulted .normal m.outer.bridge.phase ∈ added := by
    rw [List.nil_append] at hjournal
    rw [← hjournal, hlast]
    simp
  have hstate := hcourse.corresponds hmem
  cases hp : m.outer.bridge.phase with
  | normal => rfl
  | unwinding work | rewinding value =>
    rw [hp] at hstate
    cases hstate

/-- The state and the phase agree at every call of an import, on every pass of a guest with the usual controls
that leaves its state global alone; a call that returns has both in their normal state, and has taken every
suspension through its four milestones. -/
theorem phase_follows_state (g : Guest) (limits : Limits) (host : Host κ η) (m : Machine (Hosted κ η))
    (hcontrols : g.controls = {}) (hbody : ∀ stmt ∈ g.body, stateGlobal ∉ stmt.globalsSet) (hhost : host.Disciplined)
    (hphase : m.outer.bridge.phase = .normal) (hzero : m.globals[stateGlobal]? = some 0) :
    match g.runBridged limits host m with
    | .ok _ m' =>
      (∃ added, m'.outer.bridge.journal.toList = m.outer.bridge.journal.toList ++ added ∧ Orderly (.ok ()) added) ∧
        m'.globals[stateGlobal]? = some 0 ∧ m'.outer.bridge.phase = .normal ∧
        ∃ cycles : List (Cycle κ), m'.outer.bridge.ledger = m.outer.bridge.ledger ++ cycles.flatMap Cycle.milestones
    | .error e m' =>
      ∃ added, m'.outer.bridge.journal.toList = m.outer.bridge.journal.toList ++ added ∧ Orderly (.error e) added := by
  have hrun := g.ends_runBridged_fitting m.outer.bridge.journal.toList limits hcontrols hbody hhost
  have hstart : At m.outer.bridge.journal.toList .outside m ∧ Matched m ∧ m.outer.bridge.phase = .normal :=
    ⟨⟨[], (List.append_nil _).symm, rfl⟩, by rw [Matched, hphase]; exact hzero, hphase⟩
  cases hr : g.runBridged limits host m with
  | error e m' =>
    obtain ⟨s, ⟨added, hjournal, hcourse⟩, hfits⟩ := hrun.error hstart hr
    exact ⟨added, hjournal, orderly_error hcourse hfits⟩
  | ok _ m' =>
    obtain ⟨⟨cycles, rest, hopen, hledger⟩, -⟩ := g.account_runBridged limits hhost hphase hr
    obtain ⟨⟨⟨added, hjournal, hcourse⟩, hmatched⟩, hnormal⟩ := hrun.ok hstart hr
    rw [hnormal] at hcourse hopen
    cases hopen
    refine ⟨⟨added, hjournal, orderly_ok hcourse⟩, ?_, hnormal, cycles, by simpa using hledger⟩
    rw [Matched, hnormal] at hmatched
    exact hmatched

end

/-- A guest that suspends twice. -/
def restlessGuest : Guest where
  body := [.call ⟨hostNamespace, "later"⟩ [.lit 5], .note (.call ⟨hostNamespace, "later"⟩ [.lit 7])]
  instrumented := true

def restlessMachine : Machine (Hosted Practice.Chore Practice.Log) :=
  { memory := Memory.zeroed pageSize, outer := { bridge := { bound := true }, host := #[] } }

set_option maxRecDepth 4000 in
theorem a_guest_that_suspends_twice_is_orderly :
    restlessGuest.controls = {} ∧ (∀ stmt ∈ restlessGuest.body, stateGlobal ∉ stmt.globalsSet) ∧
      Practice.host.Disciplined ∧ ∃ m, restlessGuest.runBridged ⟨100, 10⟩ Practice.host restlessMachine = .ok () m ∧
        (∃ added, m.outer.bridge.journal.toList = [] ++ added ∧ Orderly (.ok ()) added) ∧
        m.globals[stateGlobal]? = some 0 ∧ m.outer.bridge.phase = .normal ∧
        ∃ cycles : List (Cycle Practice.Chore), m.outer.bridge.ledger = [] ++ cycles.flatMap Cycle.milestones := by
  have hbody : ∀ stmt ∈ restlessGuest.body, stateGlobal ∉ stmt.globalsSet := by
    simp [restlessGuest, Stmt.globalsSet]
  have hr : okWith (fun m => m.outer.bridge.journal.size == 20)
      (restlessGuest.runBridged ⟨100, 10⟩ Practice.host restlessMachine) := by decide +kernel
  obtain ⟨m, hr, -⟩ := exists_of_okWith hr
  have h := phase_follows_state restlessGuest ⟨100, 10⟩ Practice.host restlessMachine rfl hbody
    Practice.host_disciplined rfl rfl
  rw [hr] at h
  exact ⟨rfl, hbody, Practice.host_disciplined, m, hr, h⟩

end GuestHost
