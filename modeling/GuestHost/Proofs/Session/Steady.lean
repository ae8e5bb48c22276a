/-
  GuestHost.Proofs.Session.Steady — what every run keeps of its session, and how it fails.

  A guest reaches its session through imports only, and behind these there are few things that are done to it:
  the log and the list of deeds grow, random bytes are drawn, the adapters are used, and the filesystem module is
  entered and left. A property of the session that survives each of them (`Steady`) survives every run of every
  guest, whatever its controls do. A run that fails does so because a stream failed, because the guest asked to
  exit, or for a reason that leaves the property as it is.

  Proved:
  - `Steady.upholds_handle`, `Steady.upholds_finish`, `Steady.upholds_answer`: imports uphold it.
  - `Steady.upholds_runGuest`, `Steady.of_start`: so do runs, streaming or not, and cleaning up.
-/

import GuestHost.Proofs.Asyncify.Moves
import GuestHost.Proofs.Session.Discipline
import GuestHost.Proofs.Session.Ending

namespace GuestHost

open Exec

/-- Called with these arguments, the service is the guest's exit, with this word for its code. -/
def Service.Exits (s : Service) (args : List Value) (w : UInt32) : Prop :=
  wordArg args 0 = .ok w ∧ (s = .host .procExit ∨ s = .byDescriptor .procExit ∧ w < firstFilesystemDescriptor)

/-- A property of the session that survives whatever is done to it, and what it leaves of a failure. Handlers begin
where `B` says. -/
structure Steady (B : Entry → Machine (Hosted Work Session) → Prop) (P : Session → Prop)
    (E : Failure → Machine (Hosted Work Session) → Prop) : Prop where
  log : ∀ {s : Session} (log : Array LogLine), P s → P { s with log }
  drawn : ∀ {s : Session} (drawn : Nat), P s → P { s with drawn }
  /-- A handler begins, and it is no exit. -/
  handled : ∀ {m : Machine (Hosted Work Session)} {e : Entry} {args : List Value}, B e m →
    (∀ w, ¬ e.service.Exits args w) → P m.outer.host → P (m.noting (.handled e.signature.name args)).outer.host
  moved : ∀ {s : Session} {fd : Nat} {d d' : Descriptor}, s.stdio.get? fd = some d → d.Moves d' → P s →
    P { s with stdio := s.stdio.put d' fd }
  offered : ∀ {s : Session} {fd : Nat} {views : List View} {t : Transfer UInt32 PendingWrite} {d d' : Descriptor},
    s.stdio.get? fd = some d → d.writev views = .ok t d' → P s →
      P { s with deeds := s.deeds.push (.offered fd views), stdio := s.stdio.put d' fd }
  /-- The filesystem module is entered, and left after some journey. -/
  visit : ∀ {m : Machine (Hosted Work Session)} {f : Machine Linkage}, P m.outer.host →
    Journey (Session.entered m) f → P (Session.leaving m f).outer.host
  fails : ∀ {e : Failure} {m : Machine (Hosted Work Session)}, e.exitCode? = none → P m.outer.host → E e m
  /-- A stream failed. -/
  broken : ∀ {m : Machine (Hosted Work Session)} {e : StreamError} {fd : Nat} {d d' : Descriptor},
    m.outer.host.stdio.get? fd = some d → d.Breaks e d' → P m.outer.host → E (.stream e) (m.putStream fd d')
  /-- A stream failed that was given bytes. -/
  refused : ∀ {m : Machine (Hosted Work Session)} {e : StreamError} {fd : Nat} {views : List View}
    {d d' : Descriptor}, m.outer.host.stdio.get? fd = some d → d.writev views = .error e d' → P m.outer.host →
      E (.stream e) ((m.noting (.offered fd views)).putStream fd d')
  exits : ∀ {m : Machine (Hosted Work Session)} {e : Entry} {args : List Value} {w : UInt32}, B e m →
    e.service.Exits args w → P m.outer.host →
      E (.exit w.toInt32) ((m.noting (.handled e.signature.name args)).noting (.exiting w.toInt32 m.core))
  /-- The log does not matter to a failure. -/
  traced : ∀ {e : Failure} {m : Machine (Hosted Work Session)} (log : Array LogLine), E e m →
    E e { m with outer := { m.outer with host := { m.outer.host with log } } }

structure Linked.BeginsAt (l : Linked) (B : Entry → Machine (Hosted Work Session) → Prop) : Prop where
  wrapped : ∀ e ∈ l.table, e.bridged = true → ∀ m : Machine (Hosted Work Session),
    B e ((m.onBridge (·.logged (.consulted .normal m.outer.bridge.phase))).onBridge (·.logged .handled))
  direct : ∀ e ∈ l.table, e.bridged = false → ∀ m, B e m

/-- Where the property holds of the session, it still does when the action has ended or failed. -/
abbrev Upholds {α : Type} (P : Session → Prop) (x : Act α) : Prop :=
  Keeps (fun m => P m.outer.host) (fun _ m => P m.outer.host) x

theorem Stdio.get?_isSome (s : Stdio) {fd : Nat} (h : ¬ 3 ≤ fd) : ∃ d, s.get? fd = some d := by
  rcases fd with _ | _ | _ | fd
  · exact ⟨_, rfl⟩
  · exact ⟨_, rfl⟩
  · exact ⟨_, rfl⟩
  · omega

theorem Failure.Own.exitCode?_eq {e : Failure} (h : e.Own) : e.exitCode? = none := by cases h <;> rfl

theorem Failure.OfModule.exitCode?_eq {e : Failure} (h : e.OfModule) : e.exitCode? = none := by
  cases h with
  | own h => exact h.exitCode?_eq
  | marshal | memoryAccess | filesystem | engine => rfl

section

variable {B : Entry → Machine (Hosted Work Session) → Prop} {P : Session → Prop}
  {E : Failure → Machine (Hosted Work Session) → Prop} {α : Type}

theorem upholds_marshal (act : Marshal Unit) : Keeps (fun m => P m.outer.host) E (HostCall.marshal act) := by
  intro m hm
  obtain ⟨e, memory, hr⟩ := HostCall.marshal_apply act m
  rw [hr]
  exact hm

theorem upholds_marshalled (act : Marshal Unit) :
    Keeps (fun m => P m.outer.host) E (do HostCall.answer (← HostCall.marshal act)) :=
  Keeps.bind (upholds_marshal act) fun _ => Keeps.pure _

namespace Steady

variable (h : Steady B P E)
include h

theorem upholds_throw {e : Failure} (he : e.exitCode? = none) :
    Keeps (fun m => P m.outer.host) E (throw e : Act α) := fun _ hm => h.fails he hm

theorem upholds_onStream (fd : Nat) (absent : α) {act : EStateM StreamError Descriptor α}
    (hmoves : ∀ {d a d'}, act d = .ok a d' → d.Moves d')
    (hbreaks : ∀ {d e d'}, act d = .error e d' → d.Breaks e d') :
    Keeps (fun m => P m.outer.host) E (Session.onStream fd absent act) := by
  intro m hm
  cases hd : m.outer.host.stdio.get? fd with
  | none =>
    rw [Session.onStream_none absent act hd]
    exact hm
  | some d =>
    rw [Session.onStream_some absent act hd]
    cases hr : act d with
    | ok a d' => exact h.moved hd (hmoves hr) hm
    | error e d' => exact h.broken hd (hbreaks hr) hm

/-- Bytes are given to a descriptor that is there. -/
theorem upholds_offer {fd : Nat} (hfd : ¬ 3 ≤ fd) (views : List View) :
    Keeps (fun m => P m.outer.host) E (do
      Session.mark (.offered fd views)
      Session.onStream fd (.ready 0) (Descriptor.writev views)) := by
  intro m hm
  obtain ⟨d, hd⟩ := m.outer.host.stdio.get?_isSome hfd
  show After _ _ (Session.onStream fd _ _ (m.noting (.offered fd views)))
  rw [Session.onStream_some (m := m.noting (.offered fd views)) _ _ hd]
  cases hr : Descriptor.writev views d with
  | ok t d' => exact h.offered hd hr hm
  | error e d' => exact h.refused hd hr hm

theorem upholds_onFilesystem {act : FilesystemAct α} (hact : ∀ m₀, Travels m₀ act) :
    Keeps (fun m => P m.outer.host) E (Session.onFilesystem act) := by
  intro m hm
  have htravels := hact (Session.entered m) (Session.entered m) .here
  rw [Session.onFilesystem_apply]
  cases hr : act (Session.entered m) with
  | ok a f =>
    rw [hr] at htravels
    exact h.visit hm htravels
  | error e f =>
    rw [hr] at htravels
    obtain ⟨hjourney, hmodule⟩ := htravels
    exact h.fails hmodule.exitCode?_eq (h.visit hm hjourney)

theorem upholds_draw (around : Surroundings) (n : Nat) :
    Keeps (fun m => P m.outer.host) E (HostCall.draw around n) := fun _ hm => h.drawn _ hm

/-! ## Imports -/

theorem upholds_run (around : Surroundings) {c : HostCall} (hc : c ≠ .procExit) (args : List Value) :
    Keeps (fun m => P m.outer.host) E (c.run around args) := by
  refine HostCall.run_of_steps around c args (fun hx => ?_) fun _ hplan _ => Keeps.bind (fun _ hm => hm) hplan
  induction hx with
  | answer e => exact Keeps.pure _
  | refused => exact h.upholds_throw rfl
  | marshal act _ _ ih => exact Keeps.bind (upholds_marshal act) ih
  | draw n _ ih => exact Keeps.bind (h.upholds_draw around n) ih
  | read =>
    refine Keeps.bind (h.upholds_onStream _ _ .readv .readv) fun t => ?_
    cases t with
    | ready bs => exact upholds_marshalled _
    | pending lens => exact Keeps.pure _
  | write _ _ hstandard views =>
    rw [← bind_assoc]
    refine Keeps.bind (h.upholds_offer hstandard views) fun t => ?_
    cases t with
    | ready n => exact upholds_marshalled _
    | pending chunks => exact Keeps.pure _
  | exit hexit => exact absurd hexit hc

theorem upholds_finish (work : Work) : Keeps (fun m => P m.outer.host) E work.finish := by
  cases work with
  | read fd lens buffers result =>
    exact Keeps.bind (h.upholds_onStream _ _ .finishRead .finishRead) fun _ => Keeps.bind (upholds_marshal _) fun _ =>
      Keeps.pure _
  | write fd chunks result =>
    exact Keeps.bind (h.upholds_onStream _ _ .finishWrite .finishWrite) fun _ => Keeps.bind (upholds_marshal _) fun _ =>
      Keeps.pure _
  | value w => exact Keeps.pure _

/-- A call of the host that has just begun. The exit is marked right after its beginning. -/
theorem upholds_begun (around : Surroundings) {m : Machine (Hosted Work Session)} (hm : P m.outer.host) {e : Entry}
    (hbegins : B e m) {c : HostCall} {args : List Value}
    (hexits : ∀ w, e.service.Exits args w ↔ c = .procExit ∧ wordArg args 0 = .ok w) :
    After (fun _ m => P m.outer.host) E (c.run around args (m.noting (.handled e.signature.name args))) := by
  by_cases hc : c = .procExit
  · subst hc
    simp only [HostCall.run, HostCall.word]
    cases hw : wordArg args 0 with
    | error e' => exact h.fails rfl (h.handled hbegins (fun w => by simp [hexits, hw]) hm)
    | ok w => exact h.exits hbegins ((hexits w).2 ⟨rfl, hw⟩) hm
  · exact h.upholds_run around hc args _ (h.handled hbegins (fun w => by simp [hexits, hc]) hm)

theorem upholds_handle (l : Linked) (e : Entry) (args : List Value) :
    Ends (fun m => P m.outer.host ∧ B e m) (l.handle e args) (fun _ m => P m.outer.host) E := by
  have hforward : Keeps (fun m => P m.outer.host) E (l.forward e.signature.name args) :=
    Keeps.bind (h.upholds_onFilesystem fun _ => l.filesystem.travels_forward _ _) fun _ => Keeps.pure _
  rintro m ⟨hm, hbegins⟩
  unfold Linked.handle
  rw [bind_of_ok (show Session.mark (.handled e.signature.name args) m = .ok () (m.noting _) from rfl)]
  cases hservice : e.service with
  | host c => exact h.upholds_begun l.around hm hbegins fun w => by simp [Service.Exits, hservice, and_comm]
  | filesystem => exact hforward _ (h.handled hbegins (fun w => by simp [Service.Exits, hservice]) hm)
  | byDescriptor c =>
    dsimp only
    unfold HostCall.word
    cases hw : wordArg args 0 with
    | error e' => exact h.fails rfl (h.handled hbegins (fun w => by simp [Service.Exits, hw]) hm)
    | ok fd =>
      simp only [pure_bind]
      split
      · next hfd =>
        refine h.upholds_begun l.around hm hbegins fun w => ?_
        simp only [Service.Exits, hservice, hw]
        constructor
        · rintro ⟨hfd', h | ⟨h, -⟩⟩
          · cases h
          · cases h
            exact ⟨rfl, hfd'⟩
        · rintro ⟨rfl, hfd'⟩
          cases hfd'
          exact ⟨rfl, .inr ⟨rfl, hfd⟩⟩
      · next hfd =>
        refine hforward _ (h.handled hbegins (fun w => ?_) hm)
        rintro ⟨hfd', h | ⟨-, h⟩⟩
        · rw [hservice] at h
          cases h
        · rw [hw] at hfd'
          cases hfd'
          exact hfd h
  | scripted s =>
    have hmarked : P (m.noting (.handled e.signature.name args)).outer.host :=
      h.handled hbegins (fun w => by simp [Service.Exits, hservice]) hm
    cases s with
    | ready w | suspend w => exact hmarked
    | fail => exact h.fails rfl hmarked

/-- The bridge is no matter of the session. -/
theorem wrapping {e : Entry} (hbegins : ∀ m : Machine (Hosted Work Session),
      B e ((m.onBridge (·.logged (.consulted .normal m.outer.bridge.phase))).onBridge (·.logged .handled))) :
    Wrapping (fun m : Machine (Hosted Work Session) => P m.outer.host) (fun m => P m.outer.host ∧ B e m)
      (fun _ m => P m.outer.host) E where
  consult _ hm := hm
  handle {m} hm := ⟨hm, hbegins m⟩
  answer hm := hm
  accept hm _ := hm
  refuse hm _ := h.fails rfl hm
  give hm _ := hm
  missing hm := h.fails rfl hm
  stuck _ hm := h.fails rfl hm

theorem driving : Driving (fun m : Machine (Hosted Work Session) => P m.outer.host) (fun m => P m.outer.host)
    (fun _ m => P m.outer.host) (fun _ m => P m.outer.host) E where
  enter hm := hm
  leave hm := hm
  await hm _ := hm
  complete hm := hm
  missing hm := h.fails rfl hm
  stuck _ hm := h.fails rfl hm
  unready _ hm := h.fails rfl hm
  spent hm := h.fails rfl hm

theorem undisturbed : Undisturbed (fun m : Machine (Hosted Work Session) => P m.outer.host) E fun _ => True where
  own ho _ _ hm := by
    rw [ho]
    exact hm
  setGlobal _ _ hm := hm
  fails he hm := h.fails he.exitCode?_eq hm

theorem upholds_value {l : Linked} (hl : l.BeginsAt B) {controls : Controls (Hosted Work Session)}
    (hc : controls.Keep (fun m => P m.outer.host) E) {e : Entry} (he : e ∈ l.table) (args : List Value) :
    Keeps (fun m => P m.outer.host) E (l.value controls e args) := by
  unfold Linked.value
  by_cases hbridged : e.bridged = true
  · rw [if_pos hbridged]
    exact (h.wrapping (hl.wrapped e he hbridged)).keeps_wrapped hc (h.upholds_handle l e args)
  · rw [if_neg hbridged]
    have hdirect := hl.direct e he (Bool.eq_false_iff.2 hbridged)
    refine Ends.bind (fun m hm => h.upholds_handle l e args m ⟨hm, hdirect m⟩) fun reply => ?_
    cases reply with
    | ready w => exact Keeps.pure _
    | suspend work => exact h.upholds_throw rfl

/-- Imports uphold the property, if the guest's controls do, which may call imports themselves. -/
theorem upholds_answer {l : Linked} (hl : l.BeginsAt B) {controls : Controls (Hosted Work Session)}
    (hc : controls.Keep (fun m => P m.outer.host) E) (target : ImportName) (args : List Value) :
    Keeps (fun m => P m.outer.host) E (l.host.answer controls target args) := by
  simp only [Linked.host]
  split
  · next e hfind =>
    rw [Linked.call_eq]
    refine Keeps.bind ?_ fun _ => Keeps.pure _
    refine Ends.bind (Ends.attempt (h.upholds_value hl hc (List.mem_of_find?_eq_some hfind) args)) fun r => ?_
    intro m hm
    obtain ⟨log, hlog⟩ : ∃ log, Linked.traced e args r m =
        { m with outer := { m.outer with host := { m.outer.host with log } } } := by
      unfold Linked.traced Linked.tracing
      split
      · exact ⟨_, rfl⟩
      · exact ⟨m.outer.host.log, rfl⟩
    rw [bind_of_ok (modify_apply _ m), hlog]
    cases r with
    | ok w => exact h.log log hm
    | error failure => exact h.traced log hm
  · exact h.upholds_throw rfl

/-! ## Runs -/

theorem upholds_bindBridge (g : Guest) : Keeps (fun m => P m.outer.host) E (g.bindBridge : Act Unit) := by
  intro m hm
  rcases g.bindBridge_cases m with ⟨memory, hr⟩ | ⟨e, he, hr⟩
  · rw [hr]
    exact hm
  · rw [hr]
    exact h.fails he hm

theorem upholds_preRun : Keeps (fun m => P m.outer.host) E Session.preRun := by
  have hprime (fd : Nat) : Keeps (fun m => P m.outer.host) E (Session.onStream fd () Descriptor.preRun) :=
    h.upholds_onStream _ _ .preRun .preRun
  exact Keeps.bind (hprime 0) fun _ => Keeps.bind (hprime 1) fun _ => hprime 2

/-- Every run of every guest upholds the property. -/
theorem upholds_runGuest (g : Guest) {l : Linked} (hl : l.BeginsAt B) (streaming : Bool) (limits : Limits) :
    Keeps (fun m => P m.outer.host) E (Session.runGuest g l streaming limits) := by
  have hanswer (controls : Controls (Hosted Work Session)) (hc : controls.Keep (fun m => P m.outer.host) E)
      (target : ImportName) (args : List Value) :
      Keeps (fun m => P m.outer.host) E (l.host.answer controls target args) := h.upholds_answer hl hc target args
  cases streaming with
  | true =>
    have hrun := g.ends_runBridged limits l.host h.driving h.undisturbed h.undisturbed h.upholds_finish hanswer hanswer
    rw [Session.runGuest_streaming]
    refine Keeps.ite (Keeps.bind (h.upholds_bindBridge g) fun _ => Keeps.bind h.upholds_preRun fun _ => ?_)
      (h.upholds_throw rfl)
    exact Ends.mono hrun (fun _ _ hm => hm.1) fun _ _ hm => hm
  | false =>
    have hentry : Keeps (fun m => P m.outer.host) E
        (settle (g.requireExport Guest.entryName ⟨[], []⟩ (.guestMissingExport Guest.entryName)) : Act Unit) := by
      rcases g.requireExport_cases Guest.entryName ⟨[], []⟩ (.guestMissingExport Guest.entryName) rfl with
        hr | ⟨e, he, hr⟩
      · rw [hr]
        exact Keeps.pure _
      · rw [hr]
        exact h.upholds_throw he
    rw [Session.runGuest_buffering]
    refine Keeps.ite (Keeps.bind h.upholds_preRun fun _ => Keeps.bind hentry fun _ => ?_) (h.upholds_throw rfl)
    have hcall := g.keeps_import limits l.host h.undisturbed hanswer
    exact g.keeps_entryWith h.undisturbed limits hcall fun _ _ => trivial

end Steady

end

/-- A property that no failure and nothing that is done to a stream can end holds also when the run was cleaned up. -/
theorem Steady.of_start {B : Entry → Machine (Hosted Work Session) → Prop} {P : Session → Prop}
    (h : Steady B P fun _ m => P m.outer.host) (hstdio : ∀ {s : Session} (stdio : Stdio), P s → P { s with stdio })
    {l : Linked} (hl : l.BeginsAt B) {m : Machine (Hosted Work Session)} (hm : P m.outer.host) (g : Guest)
    (streaming returnOnExit : Bool) (limits : Limits) :
    P (Session.start g l streaming returnOnExit limits m).machine.outer.host := by
  have hrun := h.upholds_runGuest g hl streaming limits m hm
  rw [Session.start_eq]
  cases hr : Session.runGuest g l streaming limits m with
  | ok _ m' =>
    rw [hr] at hrun
    exact hstdio _ hrun
  | error e m' =>
    rw [hr] at hrun
    exact hstdio _ hrun

end GuestHost
