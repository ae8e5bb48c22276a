/-
  GuestHost.Proofs.Asyncify.OneByOne — suspensions come one at a time, whatever the guest does.

  A guest's controls are code of its own: the bridge calls them when its phase is half updated, and from there
  they may call imports, take the value that another import was to return, or unwind without cause. The journal
  still shows one suspension at a time. Its books (`Books`) balance at every moment: of what was accepted, all
  is awaited but for the work that the bridge holds; of what was awaited, all is completed but for the work that
  the driver is at; of what was completed, all is returned but for the value that the bridge holds. At most one
  of the three is open (`Progress`), and a milestone comes only at the stage that permits it
  (`Progress.Next`).

      nothing ──accepted──▶ accepted w ──awaited──▶ awaited ──completed──▶ completed v ──returned──▶ nothing

  Proved:
  - `Books.snoc`, `OneAtATime.snoc`: one milestone.
  - `wrapping_chronicle`, `driving_chronicle`: the moves of imports and of the driver.
  - `suspensions_come_one_at_a_time`: every call of the entry point, however it ends, and every import that
    would suspend out of turn.
-/

import GuestHost.Proofs.Asyncify.Course

namespace GuestHost

open Exec

section

variable {κ η : Type}

/-! ## The books of a journal -/

namespace Milestone

@[simp] def accepted? : Milestone κ → Option κ
  | accepted work => some work
  | _ => none

@[simp] def awaited? : Milestone κ → Option κ
  | awaited work => some work
  | _ => none

@[simp] def completed? : Milestone κ → Option UInt32
  | completed value => some value
  | _ => none

@[simp] def returned? : Milestone κ → Option UInt32
  | returned value => some value
  | _ => none

@[simp] def isEntry : Milestone κ → Bool
  | entered => true
  | _ => false

end Milestone

abbrev acceptedWorks (l : List (Milestone κ)) : List κ := l.filterMap Milestone.accepted?

abbrev awaitedWorks (l : List (Milestone κ)) : List κ := l.filterMap Milestone.awaited?

abbrev completedValues (l : List (Milestone κ)) : List UInt32 := l.filterMap Milestone.completed?

abbrev returnedValues (l : List (Milestone κ)) : List UInt32 := l.filterMap Milestone.returned?

abbrev entries (l : List (Milestone κ)) : Nat := l.countP Milestone.isEntry

/-- How far the one open suspension has come, if one is open. -/
inductive Progress (κ : Type) where
  | nothing
  | accepted (work : κ)
  | awaited
  | completed (value : UInt32)

/-- The stage that a phase stands for. While work is awaited, the bridge holds nothing. -/
def Phase.progress : Phase κ → Progress κ
  | normal => .nothing
  | unwinding work => .accepted work
  | rewinding value => .completed value

namespace Progress

/-- Accepted and not awaited. -/
def works : Progress κ → List κ
  | accepted work => [work]
  | _ => []

/-- How many are awaited and not completed. -/
def pending : Progress κ → Nat
  | awaited => 1
  | _ => 0

/-- Completed and not returned. -/
def values : Progress κ → List UInt32
  | completed value => [value]
  | _ => []

/-- Which milestones a stage permits, and where they lead. -/
inductive Next : Progress κ → Milestone κ → Progress κ → Prop
  | accept (work : κ) : Next nothing (.accepted work) (accepted work)
  | await (work : κ) : Next (accepted work) (.awaited work) awaited
  | complete (value : UInt32) : Next awaited (.completed value) (completed value)
  | give (value : UInt32) : Next (completed value) (.returned value) nothing
  | pass {s : Progress κ} {e : Milestone κ} : e.ofSuspension = false → Next s e s

end Progress

structure Books (l : List (Milestone κ)) (s : Progress κ) : Prop where
  works : acceptedWorks l = awaitedWorks l ++ s.works
  awaits : (awaitedWorks l).length = (completedValues l).length + s.pending
  values : completedValues l = returnedValues l ++ s.values

theorem Books.empty : Books ([] : List (Milestone κ)) .nothing := ⟨rfl, rfl, rfl⟩

theorem Books.snoc {l : List (Milestone κ)} {s u : Progress κ} {e : Milestone κ} (h : Books l s) (hnext : s.Next e u) :
    Books (l ++ [e]) u := by
  obtain ⟨hworks, hawaits, hvalues⟩ := h
  cases hnext with
  | accept work | await work | complete value | give value =>
    constructor <;> simp_all [List.filterMap_cons, Progress.works, Progress.pending, Progress.values]
  | pass he =>
    cases e with
    | entered | left | consulted state phase | handled =>
      constructor <;> simpa [List.filterMap_cons]
    | accepted work | awaited work | completed value | returned value => cases he

/-- After the journal `history`, suspensions come one at a time in `added`. -/
structure OneAtATime (history added : List (Milestone κ)) : Prop where
  /-- The k-th work that is awaited is the k-th that was accepted, and no work is awaited twice. -/
  awaited : ∀ now, now <+: added → awaitedWorks (history ++ now) <+: acceptedWorks (history ++ now)
  /-- No work is finished twice. -/
  completed : ∀ now, now <+: added →
    (completedValues (history ++ now)).length ≤ (awaitedWorks (history ++ now)).length
  /-- The k-th value that is returned is the k-th that a work was finished with, and no value is returned twice. -/
  returned : ∀ now, now <+: added → returnedValues (history ++ now) <+: completedValues (history ++ now)
  /-- When work is accepted, every work before it has had its value returned. -/
  accepted : ∀ pre work post, added = pre ++ .accepted work :: post →
    (returnedValues (history ++ pre)).length = (acceptedWorks (history ++ pre)).length

variable {history added : List (Milestone κ)} {s u : Progress κ} {e : Milestone κ}

theorem Books.settled {l : List (Milestone κ)} (h : Books l .nothing) :
    (returnedValues l).length = (acceptedWorks l).length := by
  have hworks := congrArg List.length h.works
  have hvalues := congrArg List.length h.values
  have hawaits := h.awaits
  simp only [List.length_append, List.length_nil, Progress.works, Progress.values] at hworks hvalues
  simp only [Progress.pending] at hawaits
  omega

theorem OneAtATime.start (h : Books history s) : OneAtATime history [] := by
  have hnow (now : List (Milestone κ)) (hp : now <+: []) : Books (history ++ now) s := by
    rw [List.prefix_nil.1 hp, List.append_nil]
    exact h
  refine ⟨fun now hp => ?_, fun now hp => ?_, fun now hp => ?_, fun pre work post he => by simp at he⟩
  · exact ⟨_, (hnow now hp).works.symm⟩
  · rw [(hnow now hp).awaits]
    exact Nat.le_add_right _ _
  · exact ⟨_, (hnow now hp).values.symm⟩

theorem OneAtATime.snoc (h : OneAtATime history added) (hbooks : Books (history ++ added) s) (hnext : s.Next e u) :
    OneAtATime history (added ++ [e]) := by
  have hlast : Books (history ++ (added ++ [e])) u := by
    rw [← List.append_assoc]
    exact hbooks.snoc hnext
  refine ⟨fun now hp => ?_, fun now hp => ?_, fun now hp => ?_, fun pre work post he => ?_⟩
  · rcases List.prefix_concat_iff.1 hp with rfl | hp
    · exact ⟨_, hlast.works.symm⟩
    · exact h.awaited now hp
  · rcases List.prefix_concat_iff.1 hp with rfl | hp
    · rw [hlast.awaits]
      exact Nat.le_add_right _ _
    · exact h.completed now hp
  · rcases List.prefix_concat_iff.1 hp with rfl | hp
    · exact ⟨_, hlast.values.symm⟩
    · exact h.returned now hp
  · -- the acceptance is the new milestone, or one that was there
    rcases List.eq_nil_or_concat post with rfl | ⟨post, e', rfl⟩
    · obtain ⟨rfl, hwork⟩ := List.append_inj' he rfl
      cases hwork
      cases hnext with
      | accept => exact hbooks.settled
      | pass hpass => cases hpass
    · rw [List.concat_eq_append, ← List.cons_append, ← List.append_assoc] at he
      exact h.accepted pre work post (List.append_inj' he rfl).1

/-! ## Runs -/

variable (before history : List (Milestone κ))

/-- What the journal has in addition is in turn and leaves this much open. The guest was entered once for each
work awaited and once at the start, but for the `due` entries that are still to come. -/
def Chronicle (s : Progress κ) (due : Nat) (m : Machine (Hosted κ η)) : Prop :=
  ∃ added, m.outer.bridge.journal.toList = before ++ added ∧ OneAtATime history added ∧ Books (history ++ added) s ∧
    entries added + due = (awaitedWorks added).length + 1

/-- The chronicle has come to the stage that the phase stands for. -/
def Chronicled (due : Nat) (m : Machine (Hosted κ η)) : Prop :=
  Chronicle before history m.outer.bridge.phase.progress due m

/-- The chronicle up to a failure. -/
def Broken (_ : Failure) (m : Machine (Hosted κ η)) : Prop := ∃ s due, Chronicle before history s due m

variable {before history} {due : Nat} {m : Machine (Hosted κ η)}

theorem Chronicle.log (h : Chronicle before history s due m) (hnext : s.Next e u) {due' : Nat}
    (hdue : entries [e] + due' = (awaitedWorks [e]).length + due) :
    Chronicle before history u due' (m.onBridge (·.logged e)) := by
  obtain ⟨added, hjournal, hturn, hbooks, hcount⟩ := h
  refine ⟨added ++ [e], by simp [Bridge.logged, hjournal], hturn.snoc hbooks hnext, ?_, ?_⟩
  · rw [← List.append_assoc]
    exact hbooks.snoc hnext
  · have hentries : entries (added ++ [e]) = entries added + entries [e] := List.countP_append
    have hawaits : awaitedWorks (added ++ [e]) = awaitedWorks added ++ awaitedWorks [e] := List.filterMap_append
    rw [hentries, hawaits, List.length_append]
    omega

theorem wrapping_chronicle : Wrapping (Chronicled (η := η) before history due) (Chronicled before history due)
    (fun _ => Chronicled before history due) (Broken before history) where
  consult _ h := h.log (.pass rfl) rfl
  handle {m} h := Chronicle.log (m := m.onBridge _) (h.log (.pass rfl) rfl) (.pass rfl) rfl
  answer h := h
  accept {m work} h hp := by
    have hm : Chronicle before history .nothing due (m.onBridge (·.inPhase (.unwinding work))) := by
      rw [Chronicled, hp] at h
      exact h
    exact hm.log (.accept work) rfl
  refuse h _ := ⟨_, _, h⟩
  give {m value} h hp := by
    have hm : Chronicle before history (.completed value) due (m.onBridge (·.inPhase .normal)) := by
      rw [Chronicled, hp] at h
      exact h
    exact hm.log (.give value) rfl
  missing h := ⟨_, _, h⟩
  stuck _ h := ⟨_, _, h⟩

theorem driving_chronicle : Driving (Chronicled (η := η) before history 1) (Chronicled before history 0)
    (fun _ => Chronicle before history .awaited 1) (fun _ => Chronicle before history .awaited 1)
    (Broken before history) where
  enter h := h.log (.pass rfl) rfl
  leave h := h.log (.pass rfl) rfl
  await {m work} h hp := by
    have hm : Chronicle before history (.accepted work) 0 (m.onBridge (·.inPhase .normal)) := by
      rw [Chronicled, hp] at h
      exact h
    exact hm.log (.await work) rfl
  complete h := Chronicle.log h (.complete _) rfl
  missing h := ⟨_, _, h⟩
  stuck _ h := ⟨_, _, h⟩
  unready _ h := ⟨_, _, h⟩
  spent h := ⟨_, _, h⟩

theorem onBridge_chronicle : OnBridge (Chronicle (η := η) before history s due) (Broken before history) where
  stays h hm := by simpa only [Chronicle, h.1] using hm
  failed h hm := by simpa only [Broken, Chronicle, h.1] using hm
  fails _ hm := ⟨_, _, hm⟩

theorem onBridge_chronicled : OnBridge (Chronicled (η := η) before history due) (Broken before history) where
  stays h hm := by simpa only [Chronicled, Chronicle, h.1] using hm
  failed h hm := by simpa only [Broken, Chronicle, h.1] using hm
  fails _ hm := ⟨_, _, hm⟩

theorem undisturbed_chronicled :
    Undisturbed (Chronicled (η := η) before history due) (Broken before history) fun _ => True where
  own ho hg _ hm := onBridge_chronicled.stays ⟨congrArg _ ho, hg⟩ hm
  setGlobal _ _ hm := hm
  fails _ hm := ⟨_, _, hm⟩

theorem Guest.chronicled_runBridged (g : Guest) (limits : Limits) {host : Host κ η} (hhost : host.Disciplined) :
    Ends (Chronicled before history 1) (g.runBridged limits host) (fun _ => Chronicled before history 0)
      (Broken before history) := by
  have hanswer (due : Nat) (controls : Controls (Hosted κ η))
      (hc : controls.Keep (Chronicled before history due) (Broken before history)) (target : ImportName)
      (args : List Value) :
      Keeps (Chronicled before history due) (Broken before history) (host.answer controls target args) :=
    wrapping_chronicle.keeps_disciplined onBridge_chronicled hc (hhost.answer controls target args)
  have hcomplete (work : κ) :
      Keeps (Chronicle before history .awaited 1) (Broken before history) (host.complete work) :=
    onBridge_chronicle.passive (hhost.complete work)
  have hrun := g.ends_runBridged limits host driving_chronicle undisturbed_chronicled undisturbed_chronicled hcomplete
    (hanswer 0) (hanswer 1)
  exact Ends.mono hrun (fun _ _ h => h.1) fun _ _ h => h

/-! ## Out of turn -/

/-- An import whose handler would suspend while the bridge holds work or a value fails, and the bridge keeps what
it holds. -/
theorem wrapImport_occupied {controls : Controls (Hosted κ η)} {handler : Exec (Hosted κ η) (Reply κ)}
    {m m₀ m₁ : Machine (Hosted κ η)} {work : κ} (hbound : m.outer.bridge.bound = true)
    (hstate : controls.state m = .ok .normal m₀)
    (hhandler : handler ((m₀.onBridge (·.logged (.consulted .normal m₀.outer.bridge.phase))).onBridge
      (·.logged .handled)) = .ok (.suspend work) m₁) (hphase : m₁.outer.bridge.phase ≠ .normal) :
    Bridge.wrapImport controls handler m = .error (.bridge .reentered) m₁ := by
  have hanswer : Bridge.answer controls (.suspend work) m₁ = .error (.bridge .reentered) m₁ := by
    show (Bridge.getPhase >>= _) m₁ = _
    rw [bind_of_ok (Bridge.getPhase_apply m₁)]
    cases hp : m₁.outer.bridge.phase with
    | normal => exact absurd hp hphase
    | unwinding other | rewinding value => rfl
  rw [Bridge.wrapImport_eq handler hbound hstate, bind_of_ok hhandler]
  exact hanswer

/-- An import that is called in the state `unwinding` fails before its handler begins. -/
theorem wrapImport_unwinding {controls : Controls (Hosted κ η)} (handler : Exec (Hosted κ η) (Reply κ))
    {m m₀ : Machine (Hosted κ η)} (hbound : m.outer.bridge.bound = true)
    (hstate : controls.state m = .ok .unwinding m₀) :
    Bridge.wrapImport controls handler m =
      .error (.bridge .reentered) (m₀.onBridge (·.logged (.consulted .unwinding m₀.outer.bridge.phase))) := by
  unfold Bridge.wrapImport
  rw [bind_of_ok (by rw [Bridge.requireBound_apply, if_pos hbound]), bind_of_ok hstate,
    bind_of_ok (Bridge.getPhase_apply m₀), bind_of_ok (Bridge.log_apply _ _)]
  rfl

/-- Whatever a guest and its controls do, suspensions come one at a time: every call of the entry point, ended
as it may be, adds milestones to the journal in turn, and enters the guest once more than it awaits work if it
returns, and no more often if it fails. `history` is what the bridge went through before, and ends at the stage
where the call begins. An import that would suspend while a suspension is open fails with `reentered`. -/
theorem suspensions_come_one_at_a_time (g : Guest) (limits : Limits) (host : Host κ η) (hhost : host.Disciplined) :
    (∀ (m : Machine (Hosted κ η)) (history : List (Milestone κ)), Books history m.outer.bridge.phase.progress →
      match g.runBridged limits host m with
      | .ok _ m' =>
        ∃ added, m'.outer.bridge.journal.toList = m.outer.bridge.journal.toList ++ added ∧
          OneAtATime history added ∧ entries added = (awaitedWorks added).length + 1 ∧
          Books (history ++ added) m'.outer.bridge.phase.progress
      | .error _ m' =>
        ∃ added, m'.outer.bridge.journal.toList = m.outer.bridge.journal.toList ++ added ∧
          OneAtATime history added ∧ entries added ≤ (awaitedWorks added).length + 1) ∧
    ∀ (controls : Controls (Hosted κ η)) (handler : Exec (Hosted κ η) (Reply κ)) (m m₀ : Machine (Hosted κ η)),
      m.outer.bridge.bound = true →
      (controls.state m = .ok .unwinding m₀ →
        ∃ m₁, m₁.outer.bridge.phase = m₀.outer.bridge.phase ∧
          Bridge.wrapImport controls handler m = .error (.bridge .reentered) m₁) ∧
      ∀ (m₁ : Machine (Hosted κ η)) (work : κ), controls.state m = .ok .normal m₀ →
        handler ((m₀.onBridge (·.logged (.consulted .normal m₀.outer.bridge.phase))).onBridge (·.logged .handled)) =
          .ok (.suspend work) m₁ → m₁.outer.bridge.phase ≠ .normal →
        Bridge.wrapImport controls handler m = .error (.bridge .reentered) m₁ := by
  refine ⟨fun m history hbooks => ?_, fun controls handler m m₀ hbound => ⟨fun hstate => ?_, ?_⟩⟩
  · have hstart : Chronicled m.outer.bridge.journal.toList history 1 m :=
      ⟨[], (List.append_nil _).symm, .start hbooks, by rwa [List.append_nil], rfl⟩
    have hrun := g.chronicled_runBridged limits hhost m hstart
    cases hr : g.runBridged limits host m with
    | ok _ m' =>
      rw [hr] at hrun
      obtain ⟨added, hjournal, hturn, hbooks', hcount⟩ := hrun
      exact ⟨added, hjournal, hturn, hcount, hbooks'⟩
    | error e m' =>
      rw [hr] at hrun
      obtain ⟨s, due, added, hjournal, hturn, -, hcount⟩ := hrun
      exact ⟨added, hjournal, hturn, by omega⟩
  · exact ⟨m₀.onBridge (·.logged (.consulted .unwinding m₀.outer.bridge.phase)), rfl,
      wrapImport_unwinding handler hbound hstate⟩
  · intro m₁ work hstate hhandler hphase
    exact wrapImport_occupied hbound hstate hhandler hphase

end

/-- A guest that suspends twice. Whenever it is to be rewound, it first calls an import, with the value of the
last suspension still to be returned. -/
def meddlingGuest : Guest where
  body := [.call ⟨hostNamespace, "later"⟩ [.lit 5], .note (.call ⟨hostNamespace, "later"⟩ [.lit 7])]
  instrumented := true
  controls := { startRewind := .seq (.drop (.call ⟨hostNamespace, "now"⟩ [.lit 1])) (.setGlobal stateGlobal (.lit 2)) }

def owedMachine : Machine (Hosted Practice.Chore Practice.Log) := restlessMachine.onBridge (·.inPhase (.rewinding 10))

set_option maxRecDepth 4000 in
theorem a_meddling_guest_suspends_one_at_a_time :
    Practice.host.Disciplined ∧ Books [] restlessMachine.outer.bridge.phase.progress ∧
      (∃ m, meddlingGuest.runBridged ⟨100, 10⟩ Practice.host restlessMachine = .ok () m ∧
        awaitedWorks m.outer.bridge.journal.toList = [.later 5, .later 7] ∧
        ∃ added, m.outer.bridge.journal.toList = [] ++ added ∧ OneAtATime [] added ∧
          entries added = (awaitedWorks added).length + 1 ∧ Books ([] ++ added) m.outer.bridge.phase.progress) ∧
      ∃ m, m.outer.bridge.phase ≠ .normal ∧
        Bridge.wrapImport (meddlingGuest.controlsOf ⟨100, 10⟩ Practice.host) (return .suspend (.later 5)) owedMachine =
          .error (.bridge .reentered) m := by
  have hr : okWith (fun m => decide (awaitedWorks m.outer.bridge.journal.toList = [.later 5, .later 7]))
      (meddlingGuest.runBridged ⟨100, 10⟩ Practice.host restlessMachine) := by decide +kernel
  obtain ⟨m, hr, hawaited⟩ := exists_of_okWith hr
  obtain ⟨hcalls, hrefused⟩ :=
    suspensions_come_one_at_a_time meddlingGuest ⟨100, 10⟩ Practice.host Practice.host_disciplined
  have hcall := hcalls restlessMachine [] .empty
  rw [hr] at hcall
  let m₁ := (owedMachine.onBridge (·.logged (.consulted .normal (.rewinding 10)))).onBridge (·.logged .handled)
  have hphase : m₁.outer.bridge.phase ≠ .normal := nofun
  exact ⟨Practice.host_disciplined, .empty, ⟨m, hr, of_decide_eq_true hawaited, hcall⟩, m₁, hphase,
    (hrefused _ _ owedMachine owedMachine rfl).2 m₁ (.later 5) rfl rfl hphase⟩

end GuestHost
