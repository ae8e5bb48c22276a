/-
  GuestHost.Proofs.Session.Discipline — the host of a session touches the bridge through wrapped imports only,
  whatever its import table.

  Most of what a session does is quiet: it leaves the bridge, the guest's globals and the standard descriptors
  alone (`Quiet`). Reads and writes of the standard descriptors are passive all the same.

  Proved:
  - `HostCall.passive_run`, `Linked.passive_handle`: what stands behind imports is passive.
  - `Linked.host_disciplined`: so the host is disciplined.
-/

import GuestHost.Session.Start
import GuestHost.Proofs.Asyncify.Discipline
import GuestHost.Proofs.Filesystem.Journey
import GuestHost.Proofs.Session.Steps
import GuestHost.Proofs.Stream.Taken

namespace GuestHost

open Exec

theorem Failure.OfModule.outside {e : Failure} (h : e.OfModule) : e.Outside := by
  cases h with
  | own h => exact h.outside
  | marshal | memoryAccess | filesystem | engine => exact nofun

/-! ## Quiet actions -/

/-- The bytes that a deed offers to a descriptor. -/
def Deed.bytesFor (fd : Nat) : Deed → List UInt8
  | offered other views => if other = fd then views.flatMap View.toList else []
  | handled _ _ | exiting _ _ => []

def Session.offered (s : Session) (fd : Nat) : List UInt8 := s.deeds.toList.flatMap (Deed.bytesFor fd)

/-- The bridge, the globals, the descriptors and what was offered to them are as in `m`. -/
structure Untouched (m m' : Machine (Hosted Work Session)) : Prop where
  bridge : m'.outer.bridge = m.outer.bridge
  globals : m'.globals = m.globals
  stdio : m'.outer.host.stdio = m.outer.host.stdio
  offered : m'.outer.host.offered = m.outer.host.offered

/-- Leaves the bridge, the globals, the descriptors and what was offered to them alone. -/
def Quiet {α : Type} (x : Act α) : Prop := ∀ m, Keeps (Untouched m) (fun e m' => Untouched m m' ∧ e.Outside) x

namespace Quiet

variable {α β : Type}

theorem pure (a : α) : Quiet (Pure.pure a) := fun _ => Keeps.pure a

theorem throw {e : Failure} (h : e.Outside) : Quiet (throw e : Act α) := fun _ _ hm => ⟨hm, h⟩

theorem get : Quiet (get : Act _) := fun _ _ hm => hm

theorem bind {x : Act α} {f : α → Act β} (hx : Quiet x) (hf : ∀ a, Quiet (f a)) : Quiet (x >>= f) :=
  fun m => Keeps.bind (hx m) fun a => hf a m

theorem passive {x : Act α} (h : Quiet x) : Passive x := by
  intro b globals m hm
  have hx := h m m ⟨rfl, rfl, rfl, rfl⟩
  cases hr : x m with
  | ok a m' => rw [hr] at hx; exact ⟨hx.bridge.trans hm.1, hx.globals.trans hm.2⟩
  | error e m' => rw [hr] at hx; exact ⟨⟨hx.1.bridge.trans hm.1, hx.1.globals.trans hm.2⟩, hx.2⟩

end Quiet

namespace Stdio

theorem get?_put {s : Stdio} {fd : Nat} {d₀ : Descriptor} (h : s.get? fd = some d₀) (d : Descriptor) :
    (s.put d fd).get? fd = some d := by
  match fd, h with
  | 0, _ | 1, _ | 2, _ => rfl

theorem put_same {s : Stdio} {fd : Nat} {d : Descriptor} (h : s.get? fd = some d) : s.put d fd = s := by
  rcases fd with _ | _ | _ | fd
  · cases h; rfl
  · cases h; rfl
  · cases h; rfl
  · rfl

theorem get?_put_ne (s : Stdio) {fd other : Nat} (h : other ≠ fd) (d : Descriptor) :
    (s.put d fd).get? other = s.get? other := by
  match fd with
  | 0 | 1 | 2 =>
    match other with
    | 0 | 1 | 2 => first | rfl | exact absurd rfl h
    | _ + 3 => rfl
  | _ + 3 => rfl

end Stdio

def Machine.putStream (m : Machine (Hosted Work Session)) (fd : Nat) (d : Descriptor) :
    Machine (Hosted Work Session) :=
  { m with outer := { m.outer with host := { m.outer.host with stdio := m.outer.host.stdio.put d fd } } }

def Machine.noting (m : Machine (Hosted Work Session)) (deed : Deed) : Machine (Hosted Work Session) :=
  { m with outer := { m.outer with host := { m.outer.host with deeds := m.outer.host.deeds.push deed } } }

theorem Machine.putStream_same {m : Machine (Hosted Work Session)} {fd : Nat} {d : Descriptor}
    (h : m.outer.host.stdio.get? fd = some d) : m.putStream fd d = m := by
  unfold putStream
  rw [Stdio.put_same h]

namespace Session

theorem offered_deed (s : Session) {deed : Deed} (h : ∀ fd, deed.bytesFor fd = []) :
    { s with deeds := s.deeds.push deed }.offered = s.offered := by
  funext fd
  simp [offered, h]

/-- What holds of every descriptor with what was offered to it still does when one of them was put, if it holds of
that one. -/
theorem streams_put (R : Nat → List UInt8 → Descriptor → Prop) {s s' : Session} {fd : Nat} {d d' : Descriptor}
    (h : ∀ fd d, s.stdio.get? fd = some d → R fd (s.offered fd) d) (hd : s.stdio.get? fd = some d)
    (hstdio : s'.stdio = s.stdio.put d' fd) (hother : ∀ other ≠ fd, s'.offered other = s.offered other)
    (hput : R fd (s'.offered fd) d') (other : Nat) (d₁ : Descriptor) (hget : s'.stdio.get? other = some d₁) :
    R other (s'.offered other) d₁ := by
  rw [hstdio] at hget
  by_cases heq : other = fd
  · subst heq
    rw [Stdio.get?_put hd] at hget
    cases hget
    exact hput
  · rw [Stdio.get?_put_ne _ heq] at hget
    rw [hother other heq]
    exact h other d₁ hget

theorem quiet_mark {deed : Deed} (h : ∀ fd, deed.bytesFor fd = []) : Quiet (mark deed) := fun _ m hm =>
  ⟨hm.bridge, hm.globals, hm.stdio, (offered_deed m.outer.host h).trans hm.offered⟩

theorem quiet_handled (name : String) (args : List Value) : Quiet (mark (.handled name args)) := quiet_mark fun _ => rfl

theorem passive_mark (deed : Deed) : Passive (mark deed) := Passive.modify fun _ => ⟨rfl, rfl⟩

theorem onStream_none {α : Type} {fd : Nat} (absent : α) (act : EStateM StreamError Descriptor α)
    {m : Machine (Hosted Work Session)} (h : m.outer.host.stdio.get? fd = none) :
    onStream fd absent act m = .ok absent m := by
  simp only [onStream, h]

theorem onStream_some {α : Type} {fd : Nat} (absent : α) (act : EStateM StreamError Descriptor α)
    {m : Machine (Hosted Work Session)} {d : Descriptor} (h : m.outer.host.stdio.get? fd = some d) :
    onStream fd absent act m = match act d with
      | .ok a d => .ok a (m.putStream fd d)
      | .error e d => .error (.stream e) (m.putStream fd d) := by
  simp only [onStream, h]
  rfl

theorem passive_onStream {α : Type} (fd : Nat) (absent : α) (act : EStateM StreamError Descriptor α) :
    Passive (onStream fd absent act) := by
  intro b globals m hm
  cases h : m.outer.host.stdio.get? fd with
  | none => rw [onStream_none absent act h]; exact hm
  | some d =>
    rw [onStream_some absent act h]
    split
    · exact hm
    · exact ⟨hm, nofun⟩

/-- The filesystem machine as it is entered: with the guest's memory bound. -/
def entered (m : Machine (Hosted Work Session)) : Machine Linkage :=
  { m.outer.host.filesystem with
    outer := { m.outer.host.filesystem.outer with guest := m.memory, guestBound := true } }

/-- The machine as it is when the filesystem machine is left as `f`. -/
def leaving (m : Machine (Hosted Work Session)) (f : Machine Linkage) : Machine (Hosted Work Session) :=
  { m with
    memory := f.outer.guest
    outer := { m.outer with host := { m.outer.host with filesystem := f }.takeReports } }

theorem onFilesystem_apply {α : Type} (act : FilesystemAct α) (m : Machine (Hosted Work Session)) :
    onFilesystem act m = match act (entered m) with
      | .ok a f => .ok a (leaving m f)
      | .error e f => .error e (leaving m f) := rfl

theorem quiet_onFilesystem {α : Type} {act : FilesystemAct α} (h : ∀ m₀, Travels m₀ act) :
    Quiet (onFilesystem act) := by
  intro m₀ m hm
  have hact := h (entered m) (entered m) .here
  have hleft (f : Machine Linkage) : Untouched m₀ (leaving m f) := ⟨hm.bridge, hm.globals, hm.stdio, hm.offered⟩
  rw [onFilesystem_apply]
  cases hr : act (entered m) with
  | ok a f => exact hleft f
  | error e f =>
    rw [hr] at hact
    exact ⟨hleft f, hact.2.outside⟩

end Session

/-! ## The host of a session -/

namespace HostCall

theorem quiet_word (args : List Value) (i : Nat) : Quiet (word args i) := by
  unfold word
  split
  · exact .pure _
  · exact .throw nofun

/-- Marshaling answers in any case, sees nothing but the memory, and changes nothing else. -/
theorem marshal_within (act : Marshal Unit) (c : Core) :
    ∃ e memory, ∀ o, marshal act (c.within o) = .ok e (Machine.within { c with memory } o) := by
  cases h : act c.memory with
  | ok _ memory => exact ⟨.success, memory, fun o => by unfold marshal; simp only [Machine.within, h]⟩
  | error e memory => exact ⟨e.errno, memory, fun o => by unfold marshal; simp only [Machine.within, h]⟩

theorem marshal_apply (act : Marshal Unit) (m : Machine (Hosted Work Session)) :
    ∃ e memory, marshal act m = .ok e { m with memory } := by
  obtain ⟨e, memory, h⟩ := marshal_within act m.core
  exact ⟨e, memory, h m.outer⟩

theorem quiet_marshal (act : Marshal Unit) : Quiet (marshal act) := by
  intro m₀ m hm
  obtain ⟨e, memory, hr⟩ := marshal_apply act m
  rw [hr]
  exact ⟨hm.bridge, hm.globals, hm.stdio, hm.offered⟩

theorem quiet_draw (around : Surroundings) (n : Nat) : Quiet (draw around n) := fun _ _ hm =>
  ⟨hm.bridge, hm.globals, hm.stdio, hm.offered⟩

theorem quiet_answer (e : Errno) : Quiet (answer e) := .pure _

theorem quiet_marshalled (act : Marshal Unit) : Quiet (do answer (← marshal act)) :=
  .bind (quiet_marshal act) fun _ => quiet_answer _

theorem passive_word (args : List Value) (i : Nat) : Passive (word args i) := (quiet_word args i).passive

theorem passive_readInto (fd : Nat) (buffers : List IoVec) (result : UInt32) :
    Passive (readInto fd buffers result) := by
  refine .bind (Session.passive_onStream _ _ _) fun t => ?_
  cases t with
  | ready bs => exact (quiet_marshalled _).passive
  | pending lens => exact .pure _

theorem passive_conclude (fd : Nat) (result : UInt32) (t : Transfer UInt32 PendingWrite) :
    Passive (conclude fd result t) := by
  cases t with
  | ready n => exact (quiet_marshalled _).passive
  | pending chunks => exact .pure _

theorem passive_run (around : Surroundings) (c : HostCall) (args : List Value) : Passive (c.run around args) := by
  refine run_of_steps around c args (fun hx => ?_) fun _ hplan _ => .bind Quiet.get.passive hplan
  induction hx with
  | answer e => exact .pure _
  | refused => exact .throw nofun
  | marshal act _ _ ih => exact .bind (quiet_marshal act).passive ih
  | draw n _ ih => exact .bind (quiet_draw around n).passive ih
  | read => exact passive_readInto _ _ _
  | write =>
    exact .bind (Session.passive_mark _) fun _ => .bind (Session.passive_onStream _ _ _) fun t =>
      passive_conclude _ _ t
  | exit => exact .bind Quiet.get.passive fun _ => .bind (Session.passive_mark _) fun _ => .throw nofun

end HostCall

theorem Work.passive_finish (w : Work) : Passive w.finish := by
  cases w with
  | read fd lens buffers result =>
    exact .bind (Session.passive_onStream _ _ _) fun _ => .bind (HostCall.quiet_marshal _).passive fun _ => .pure _
  | write fd chunks result =>
    exact .bind (Session.passive_onStream _ _ _) fun _ => .bind (HostCall.quiet_marshal _).passive fun _ => .pure _
  | value w => exact .pure _

namespace Linked

theorem quiet_forward (l : Linked) (name : String) (args : List Value) : Quiet (l.forward name args) :=
  .bind (Session.quiet_onFilesystem fun _ => l.filesystem.travels_forward name args) fun _ => .pure _

theorem passive_handle (l : Linked) (e : Entry) (args : List Value) : Passive (l.handle e args) := by
  refine .bind (Session.passive_mark _) fun _ => ?_
  split
  · exact HostCall.passive_run _ _ _
  · exact (l.quiet_forward _ _).passive
  · exact .bind (HostCall.passive_word _ _) fun _ => .ite (HostCall.passive_run _ _ _) (l.quiet_forward _ _).passive
  · exact .pure _
  · exact .pure _
  · exact .throw nofun

theorem disciplined_value (l : Linked) (controls : Controls (Hosted Work Session)) (e : Entry) (args : List Value) :
    Disciplined controls (l.value controls e args) := by
  unfold value
  split
  · exact .wrapped (.passive (l.passive_handle e args))
  · refine .passive (.bind (l.passive_handle e args) fun r => ?_)
    cases r with
    | ready w => exact .pure w
    | suspend work => exact .throw fun _ h => by cases h; rfl

/-- The session with what a call adds to the log once its outcome is there. -/
def tracing (e : Entry) (args : List Value) (outcome : Except Failure UInt32) (s : Session) : Session :=
  if e.traced then { s with log := s.log.push (traceLine e.signature.name args outcome) } else s

def traced (e : Entry) (args : List Value) (outcome : Except Failure UInt32) (m : Machine (Hosted Work Session)) :
    Machine (Hosted Work Session) :=
  { m with outer := { m.outer with host := tracing e args outcome m.outer.host } }

theorem call_eq (l : Linked) (controls : Controls (Hosted Work Session)) (e : Entry) (args : List Value) :
    l.call controls e args =
      (attempt (l.value controls e args) >>= fun r => modify (traced e args r) >>= fun _ => settle r) >>= fun w =>
        pure (if e.signature.result then [.i32 w] else []) := by
  by_cases h : e.traced
  · have hnote r : modify (traced e args r) = Session.write (traceLine e.signature.name args r) := by
      funext m
      simp only [Session.write, modify_apply, traced, tracing, h, ↓reduceIte]
    simp only [call, bind_assoc, hnote, h, ↓reduceIte]
  · have hnote r : modify (traced e args r) = (pure () : Act Unit) := by
      funext m
      simp only [modify_apply, traced, tracing, h, pure_apply]
      rfl
    simp only [call, bind_assoc, hnote, h, pure_bind]
    rfl

variable {l : Linked} {controls : Controls (Hosted Work Session)} {e : Entry} {args : List Value}
  {m m' : Machine (Hosted Work Session)}

theorem call_of_ok {w : UInt32} (h : l.value controls e args m = .ok w m') :
    l.call controls e args m = .ok (if e.signature.result then [.i32 w] else []) (traced e args (.ok w) m') := by
  have hattempt : attempt (l.value controls e args) m = .ok (.ok w) m' := by unfold attempt; rw [h]
  rw [call_eq]
  exact bind_of_ok (bind_of_ok hattempt)

theorem call_of_error {f : Failure} (h : l.value controls e args m = .error f m') :
    l.call controls e args m = .error f (traced e args (.error f) m') := by
  have hattempt : attempt (l.value controls e args) m = .ok (.error f) m' := by unfold attempt; rw [h]
  rw [call_eq]
  exact bind_of_error (bind_of_ok hattempt)

theorem host_disciplined (l : Linked) : l.host.Disciplined where
  answer controls target args := by
    simp only [host]
    split
    · rw [call_eq]
      exact .bind (.observed (l.disciplined_value _ _ _) fun r m => ⟨rfl, rfl⟩) fun w => .passive (.pure _)
    · exact .passive (.throw nofun)
  complete := Work.passive_finish

end Linked

end GuestHost
