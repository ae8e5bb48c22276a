/-
  GuestHost.Proofs.Session.Exit — a guest that exits, and what a run says of it.

  The exit travels as a failure from its handler through the wrapper of the import, the guest's code and the
  driver to the end of the run. Until a guest asks to exit its session is underway: no exit is among the deeds,
  and every descriptor can be cleaned up. So when it asks, its handler's beginning is the last thing that
  happened to the session and on the bridge, and nothing but cleaning up comes after it (`Parting`).

  Proved:
  - `Session.steady_underway`: every run keeps the session underway, or fails as `Stopped` says.
  - `Session.handed_of_exit`: when a guest exits that was suspended before, nothing of its output is held back.
  - `an_exit_is_final`: what a run comes to whose guest exits, and which runs come to an exit.
-/

import GuestHost.Proofs.Asyncify.Course
import GuestHost.Proofs.Session.Loss
import GuestHost.Proofs.Session.Routing
import GuestHost.Proofs.Session.Steady
import GuestHost.Proofs.Stream.Faultless

namespace GuestHost

open Exec

def Options.plan? (o : Options) : Nat → Option SinkPlan
  | 1 => o.stdout
  | 2 => o.stderr
  | _ => none

/-- The code of the exit whose handler began. -/
def Deed.exitCode? : Deed → Option Int32
  | handled "proc_exit" args => (wordArg args 0).toOption.map UInt32.toInt32
  | _ => none

/-- The guest executed an exit with this code. -/
def Session.Exited (s : Session) (code : Int32) : Prop := ∃ d ∈ s.deeds.toList, d.exitCode? = some code

/-- A guest whose suspension state is a matter of its controls alone: they are the usual ones, and the guest itself
leaves the global that they keep it in alone, which is zero at the start. -/
structure Guest.KeepsState (g : Guest) : Prop where
  controls : g.controls = {}
  body : ∀ stmt ∈ g.body, stateGlobal ∉ stmt.globalsSet
  zero : (initialGlobals g.globals)[stateGlobal]? = some 0

/-! ## While the guest runs -/

/-- All descriptors can be cleaned up. -/
def Session.StreamsReady (o : Options) (s : Session) : Prop :=
  ∀ fd d, s.stdio.get? fd = some d → d.Ready (s.offered fd) o.streaming (o.plan? fd)

/-- The guest has not asked to exit, and its descriptors can be cleaned up. -/
structure Session.Underway (o : Options) (s : Session) : Prop where
  deeds : ∀ d ∈ s.deeds.toList, d.exitCode? = none
  streams : s.StreamsReady o

/-- The guest has asked to exit, and nothing happened since. -/
structure Parting (o : Options) (code : Int32) (m : Machine (Hosted Work Session)) : Prop where
  last : ∃ earlier args w,
    m.outer.host.deeds.toList = earlier ++ [.handled "proc_exit" args, .exiting code m.core] ∧
      (∀ d ∈ earlier, d.exitCode? = none) ∧ wordArg args 0 = .ok w ∧ w.toInt32 = code
  streams : m.outer.host.StreamsReady o
  called : o.streaming = true → Called m

inductive Stopped (o : Options) : Failure → Machine (Hosted Work Session) → Prop
  | exit {code : Int32} {m : Machine (Hosted Work Session)} : Parting o code m → Stopped o (.exit code) m
  | stream {m : Machine (Hosted Work Session)} (e : StreamError) :
      (∀ d ∈ m.outer.host.deeds.toList, d.exitCode? = none) → Stopped o (.stream e) m
  | other {e : Failure} {m : Machine (Hosted Work Session)} : e.exitCode? = none → m.outer.host.Underway o →
      Stopped o e m

/-- A handler begins right after its import was called, and exits are known by their name. -/
structure Entry.Begins (o : Options) (e : Entry) (m : Machine (Hosted Work Session)) : Prop where
  exits : ∀ args w, e.service.Exits args w ↔ e.signature.name = "proc_exit" ∧ wordArg args 0 = .ok w
  called : o.streaming = true → Called m

theorem Signature.route_of_exit : ∀ s ∈ table, s.name = "proc_exit" → s.route = .host := by decide

/-- Of the imports of the surface, exactly the one named so exits. -/
theorem ImportTable.exits_iff {s : Signature} (hs : s ∈ Signature.table) {service : Service}
    (h : serviceOf s = some service) (args : List Value) (w : UInt32) :
    service.Exits args w ↔ s.name = "proc_exit" ∧ wordArg args 0 = .ok w := by
  constructor
  · rintro ⟨hw, hservice⟩
    refine ⟨?_, hw⟩
    have hkind := Signature.kind_of_serviceOf h
    rcases hservice with rfl | ⟨rfl, -⟩
    · cases hkind with
      | host hsplits hroute =>
        have hread : s.name ≠ "fd_read" := fun hname => hsplits (.inl hname)
        have hwrite : s.name ≠ "fd_write" := fun hname => hsplits (.inr hname)
        have hname : HostCall.ofName? s.name = some .procExit := by simpa [serviceOf, hread, hwrite, hroute] using h
        unfold HostCall.ofName? at hname
        split at hname <;> first | assumption | cases hname
    · cases hkind with
      | split hname => rcases hname with ⟨-, hc⟩ | ⟨-, hc⟩ <;> cases hc
  · rintro ⟨hname, hw⟩
    have hroute := Signature.route_of_exit s hs hname
    have hservice : some (.host .procExit) = some service := by
      rw [← h]
      simp [serviceOf, hname, hroute, HostCall.ofName?]
    exact ⟨hw, .inl (Option.some.inj hservice).symm⟩

/-- Handlers of a table that was installed begin so. -/
theorem Linked.beginsAt_of_install {fs : Filesystem} (around : Surroundings) {o : Options} {t : ImportTable}
    (h : ImportTable.install fs.module o.streaming o.traceImports [] = .ok t) :
    (⟨t, fs, around⟩ : Linked).BeginsAt (Entry.Begins o) := by
  obtain ⟨hsignatures, hinstalled⟩ := ImportTable.install_installed h
  have hexits (e : Entry) (he : e ∈ t) := ImportTable.exits_iff (hsignatures ▸ List.mem_map_of_mem he)
    (hinstalled e he).service
  constructor
  · intro e he hbridged m
    refine ⟨hexits e he, fun _ => ?_⟩
    exact ⟨m.outer.bridge.journal.toList, by simp [Bridge.logged]⟩
  · intro e he hdirect m
    refine ⟨hexits e he, fun hstreaming => ?_⟩
    rw [(hinstalled e he).bridged, hstreaming] at hdirect
    cases hdirect

/-- A handler that begins is no exit if its name or its argument is another. -/
theorem Deed.exitCode?_handled {name : String} {args : List Value}
    (h : ∀ w, ¬ (name = "proc_exit" ∧ wordArg args 0 = .ok w)) : exitCode? (.handled name args) = none := by
  unfold exitCode?
  split
  · next heq =>
    cases heq
    cases hw : wordArg args 0 with
    | error e => rfl
    | ok w => exact absurd ⟨rfl, hw⟩ (h w)
  · rfl

namespace Session

namespace Underway

variable {o : Options} {s : Session} {fd : Nat} {d d' : Descriptor}

theorem deeds_push (h : s.Underway o) {deed : Deed} (hdeed : deed.exitCode? = none) :
    ∀ d ∈ (s.deeds.push deed).toList, d.exitCode? = none := by
  intro d hd
  rw [Array.toList_push, List.mem_append, List.mem_singleton] at hd
  rcases hd with hd | rfl
  · exact h.deeds d hd
  · exact hdeed

theorem handled (h : s.Underway o) {name : String} {args : List Value}
    (hname : ∀ w, ¬ (name = "proc_exit" ∧ wordArg args 0 = .ok w)) :
    Underway o { s with deeds := s.deeds.push (.handled name args) } := by
  refine ⟨h.deeds_push (Deed.exitCode?_handled hname), fun fd d hd => ?_⟩
  rw [offered_deed s fun _ => rfl]
  exact h.streams fd d hd

theorem streams_put (h : s.Underway o) {s' : Session} (hd : s.stdio.get? fd = some d)
    (hstdio : s'.stdio = s.stdio.put d' fd) (hother : ∀ other ≠ fd, s'.offered other = s.offered other)
    (hready : d'.Ready (s'.offered fd) o.streaming (o.plan? fd)) : s'.StreamsReady o :=
  Session.streams_put (fun fd offered d => d.Ready offered o.streaming (o.plan? fd)) h.streams hd hstdio hother hready

theorem moved (h : s.Underway o) (hd : s.stdio.get? fd = some d) (hmoves : d.Moves d') :
    Underway o { s with stdio := s.stdio.put d' fd } :=
  ⟨h.deeds, h.streams_put hd rfl (fun _ _ => rfl) ((h.streams fd d hd).turns hmoves.turns)⟩

theorem offered {views : List View} {t : Transfer UInt32 PendingWrite} (h : s.Underway o)
    (hd : s.stdio.get? fd = some d) (hw : d.writev views = .ok t d') :
    Underway o { s with deeds := s.deeds.push (.offered fd views), stdio := s.stdio.put d' fd } := by
  have hpush (other : Nat) :
      Session.offered { s with deeds := s.deeds.push (.offered fd views), stdio := s.stdio.put d' fd } other =
        s.offered other ++ if fd = other then views.flatMap View.toList else [] := offered_push s fd other views
  refine ⟨h.deeds_push rfl, h.streams_put hd rfl (fun other hne => ?_) ?_⟩
  · rw [hpush, if_neg (Ne.symm hne), List.append_nil]
  · rw [hpush, if_pos rfl]
    exact (h.streams fd d hd).writev hw

theorem of_setUp {fs : Filesystem} (hout : ∀ p, o.stdout = some p → p.Faultless)
    (herr : ∀ p, o.stderr = some p → p.Faultless) (h : setUp o fs = (.ok (), s)) : s.Underway o := by
  obtain ⟨hstdio, hdeeds⟩ := Session.of_setUp h
  have hoffered (fd : Nat) : s.offered fd = [] := by simp [Session.offered, hdeeds]
  refine ⟨by simp [hdeeds], fun fd d hd => ?_⟩
  rw [hstdio] at hd
  rw [hoffered]
  rcases fd with _ | _ | _ | fd
  · cases hd
    exact Descriptor.ready_ofSource _ _
  · cases hd
    exact Descriptor.ready_ofSink hout _
  · cases hd
    exact Descriptor.ready_ofSink herr _
  · cases hd

end Underway

/-- Every run keeps its session underway, or stops. -/
theorem steady_underway (o : Options) : Steady (Entry.Begins o) (Underway o) (Stopped o) where
  log _ h := ⟨h.deeds, h.streams⟩
  drawn _ h := ⟨h.deeds, h.streams⟩
  handled hbegins hexits h := h.handled fun w hw => hexits w ((hbegins.exits _ w).2 hw)
  moved hd hmoves h := h.moved hd hmoves
  offered hd hw h := h.offered hd hw
  visit h _ := ⟨h.deeds, h.streams⟩
  fails he h := .other he h
  broken _ _ h := .stream _ h.deeds
  refused _ _ h := .stream _ (h.deeds_push rfl)
  exits {m e args w} hbegins hexits h := by
    obtain ⟨hname, hw⟩ := (hbegins.exits args w).1 hexits
    refine .exit ⟨⟨m.outer.host.deeds.toList, args, w, ?_, h.deeds, hw, rfl⟩, fun fd d hd => ?_, hbegins.called⟩
    · simp [Machine.noting, hname, Machine.core]
    · let n := m.noting (.handled e.signature.name args)
      have hoffered : (n.noting (.exiting w.toInt32 m.core)).outer.host.offered = m.outer.host.offered :=
        (offered_deed n.outer.host fun _ => rfl).trans (offered_deed m.outer.host fun _ => rfl)
      rw [hoffered]
      exact h.streams fd d hd
  traced log h := by
    cases h with
    | exit h => exact .exit ⟨h.last, h.streams, h.called⟩
    | stream e h => exact .stream e h
    | other he h => exact .other he ⟨h.deeds, h.streams⟩

/-! ## The exit of a guest that may have been suspended -/

/-- Whatever a streaming run comes to, its journal is a path. -/
theorem path_runGuest {g : Guest} (hg : g.KeepsState) (l : Linked) (limits : Limits) :
    Ends (fun m => At [] .outside m ∧ Matched m ∧ m.outer.bridge.phase = .normal) (runGuest g l true limits)
      (fun _ _ => True) (fun _ m => ∃ s, At [] s m) := by
  have hbefore : OnBridge
      (fun m : Machine (Hosted Work Session) => At [] .outside m ∧ Matched m ∧ m.outer.bridge.phase = .normal)
      (fun _ m => ∃ s, At [] s m) :=
    { stays := fun h hm => by
        obtain ⟨hb, hglobals⟩ := h
        simpa only [At, Matched, hb, hglobals] using hm
      failed := fun h hm => by simpa only [At, h.1] using hm
      fails := fun _ hm => ⟨_, hm.1⟩ }
  have hpre : Passive preRun := .bind (passive_onStream _ _ _) fun _ => .bind (passive_onStream _ _ _) fun _ =>
    passive_onStream _ _ _
  have hrun := g.ends_runBridged_fitting [] limits hg.controls hg.body l.host_disciplined
  rw [runGuest_streaming]
  split
  · refine Ends.bind ?_ fun _ => Ends.bind (hbefore.passive hpre) fun _ =>
      Ends.mono hrun (fun _ _ _ => trivial) fun _ _ h => h.imp fun _ hs => hs.1
    intro m hm
    rcases g.bindBridge_cases m with ⟨memory, hr⟩ | ⟨e, -, hr⟩
    · rw [hr]
      exact ⟨hm.1, by simpa only [Matched, hm.2.2] using hm.2.1, rfl⟩
    · rw [hr]
      exact ⟨_, hm.1⟩
  · exact Ends.throw fun m hm => ⟨_, hm.1⟩

section

variable {o : Options} {fs : Filesystem} {g : Guest} {l : Linked} {limits : Limits} {s : Session}
  {m m' : Machine (Hosted Work Session)} {code : Int32}

/-- A guest that exits in a streaming run owes nothing: the bridge holds no work, and each sink has taken all that was
offered to its descriptor. -/
theorem handed_of_exit (hg : g.KeepsState) (hs : setUp o fs = (.ok (), s)) (ho : o.streaming = true)
    (hm : g.instantiate l.host ({ host := s } : Hosted Work Session) = .ok m) (hcalled : Called m')
    (hr : runGuest g l true limits m = .error (.exit code) m') :
    m'.outer.bridge.phase = .normal ∧ Handed o.sinkNumbers .normal m'.outer.host := by
  obtain ⟨houter, hglobals⟩ := Guest.of_instantiate hm
  have hstart : At [] .outside m ∧ Matched m ∧ m.outer.bridge.phase = .normal := by
    rw [At, Matched, houter, hglobals]
    exact ⟨⟨[], rfl, rfl⟩, hg.zero, rfl⟩
  obtain ⟨standing, hat⟩ := (path_runGuest hg l limits).error hstart hr
  have hphase := hcalled.phase hat
  refine ⟨hphase, ?_⟩
  rcases (keeps_runGuest g l limits).error (balanced_instantiate hs ho hm) hr with ⟨b, he⟩ | ⟨x, he⟩ | hbalanced
  · cases he
  · cases he
  · rw [← hphase]
    exact hbalanced.2

/-- Descriptors that are ready clean up without a failure. -/
theorem StreamsReady.cleanUp (h : s.StreamsReady o) : s.stdio.cleanUp.1 = .ok () := by
  rw [Stdio.cleanUp_eq (h 0 _ rfl).cleansUp (h 1 _ rfl).cleansUp (h 2 _ rfl).cleansUp]

theorem plan?_lt {fd : Nat} {p : SinkPlan} (h : o.plan? fd = some p) : ¬ 3 ≤ fd ∧ fd ∈ o.sinkNumbers := by
  match fd, h with
  | 1, h =>
    have hout : o.stdout = some p := h
    simp [Options.sinkNumbers, hout]
  | 2, h =>
    have herr : o.stderr = some p := h
    simp [Options.sinkNumbers, herr]

/-- What was offered to a sink is delivered to it by the end of the run, and then it is shut down. -/
theorem StreamsReady.delivered (h : s.StreamsReady o)
    (hhanded : o.streaming = true → Handed o.sinkNumbers .normal s) {fd : Nat} {p : SinkPlan}
    (hplan : o.plan? fd = some p) :
    ∃ d, s.stdio.cleanUp.2.get? fd = some d ∧ SinkEvent.taken d.events = s.offered fd ∧ ShutDownLast d.events := by
  obtain ⟨hlt, hsink⟩ := plan?_lt hplan
  obtain ⟨d, hd⟩ := s.stdio.get?_isSome hlt
  have hready := h fd d hd
  rw [hplan] at hready
  refine ⟨d.cleaned, by rw [Stdio.get?_cleanUp, hd]; rfl, ?_⟩
  cases hstreaming : o.streaming with
  | false =>
    rw [hstreaming] at hready
    exact hready.delivered_buffered
  | true =>
    rw [hstreaming] at hready
    obtain ⟨w, rfl, htaken, hlast⟩ := hready.delivered_streaming
    obtain ⟨w', hw', hoffered⟩ := hhanded hstreaming fd hsink
    rw [hd] at hw'
    cases hw'
    refine ⟨?_, hlast⟩
    rw [htaken, hoffered]
    simp [Phase.held]

end

end Session

/-! ## Whole runs -/

structure Session.Ended.Parted (t : Session.Ended) (o : Options) (code : Int32) : Prop where
  result : t.result = if o.returnOnExit then .ok (some code) else .error (.exit code)
  /-- No handler began after the exit's, which was the only one, and the guest is as it was when it executed it. -/
  last : ∃ earlier args w,
    t.machine.outer.host.deeds.toList = earlier ++ [.handled "proc_exit" args, .exiting code t.machine.core] ∧
      (∀ d ∈ earlier, d.exitCode? = none) ∧ wordArg args 0 = .ok w ∧ w.toInt32 = code
  /-- On the bridge, the exit's handler is the last thing, too: the guest was not entered again, and no read or write
  was finished. -/
  bridge : o.streaming = true →
    ∃ earlier, t.machine.outer.bridge.journal.toList = earlier ++ [.consulted .normal .normal, .handled]
  /-- Every sink has taken all that was written to it, and was shut down after that. -/
  delivered : ∀ fd p, o.plan? fd = some p → ∃ d, t.machine.outer.host.stdio.get? fd = some d ∧
    SinkEvent.taken d.events = t.machine.outer.host.offered fd ∧ ShutDownLast d.events

/-- What the guest's exit makes of a run, and what the result tells of the guest's end. -/
structure Session.Ended.TellsExits (t : Session.Ended) (o : Options)
    (run : EStateM.Result Failure (Machine (Hosted Work Session)) Unit) : Prop where
  parted : ∀ code, t.machine.outer.host.Exited code →
    t.Parted o code ∧ ∃ m, run = .error (.exit code) m ∧ t.machine = Session.cleanedUp m
  returned : t.result = .ok none ↔ ∃ m, run = .ok () m
  exited : ∀ code, t.result = .error (.exit code) ↔ o.returnOnExit = false ∧ t.machine.outer.host.Exited code
  status : ∀ code, t.result = .ok (some code) ↔ o.returnOnExit = true ∧
    (t.machine.outer.host.Exited code ∨
      code = unreachableStatus ∧ ∃ e m, run = .error e m ∧ Outcome.classify (.error e) = .trapped .unreachable)

theorem Session.not_exited {s : Session} (h : ∀ d ∈ s.deeds.toList, d.exitCode? = none) (code : Int32) :
    ¬ s.Exited code := by
  rintro ⟨d, hd, hcode⟩
  rw [h d hd] at hcode
  cases hcode

section

variable {o : Options} {m : Machine (Hosted Work Session)} {code : Int32}

/-- The exit is the only one. -/
theorem Parting.exited_iff (h : Parting o code m) (code' : Int32) : m.outer.host.Exited code' ↔ code = code' := by
  obtain ⟨earlier, args, w, hdeeds, hearlier, hw, rfl⟩ := h.last
  have hcode : (Deed.handled "proc_exit" args).exitCode? = some w.toInt32 := by
    simp [Deed.exitCode?, hw, Except.toOption]
  unfold Session.Exited
  rw [hdeeds]
  constructor
  · rintro ⟨d, hd, hexit⟩
    rcases List.mem_append.1 hd with hd | hd
    · rw [hearlier d hd] at hexit
      cases hexit
    · rcases List.mem_cons.1 hd with rfl | hd
      · rw [hcode] at hexit
        exact Option.some.inj hexit
      · cases List.mem_singleton.1 hd
        cases hexit
  · rintro rfl
    exact ⟨_, by simp, hcode⟩

theorem Parting.parted (h : Parting o code m) (hphase : o.streaming = true → m.outer.bridge.phase = .normal)
    (hhanded : o.streaming = true → Handed o.sinkNumbers .normal m.outer.host) :
    (⟨Session.ending o.returnOnExit (.error (.exit code)) m, Session.cleanedUp m⟩ : Session.Ended).Parted o code where
  result := Session.ending_of_clean h.streams.cleanUp _ _
  last := h.last
  bridge ho := by
    obtain ⟨earlier, hjournal⟩ := h.called ho
    rw [hphase ho] at hjournal
    exact ⟨earlier, hjournal⟩
  delivered _ _ hplan := h.streams.delivered hhanded hplan

/-- What the result of a run tells whose guest returned. -/
theorem tellsExits_of_ok (h : m.outer.host.Underway o) :
    (⟨Session.ending o.returnOnExit (.ok ()) m, Session.cleanedUp m⟩ : Session.Ended).TellsExits o (.ok () m) := by
  have hnone := Session.not_exited h.deeds
  have hresult : Session.ending o.returnOnExit (.ok ()) m = .ok none :=
    Session.ending_of_clean h.streams.cleanUp _ _
  constructor
  case parted => exact fun code hexited => absurd hexited (hnone code)
  case returned => exact ⟨fun _ => ⟨m, rfl⟩, fun _ => hresult⟩
  case exited =>
    intro code
    constructor
    · intro h
      cases hresult.symm.trans h
    · rintro ⟨-, hexited⟩
      exact absurd hexited (hnone code)
  case status =>
    intro code
    constructor
    · intro h
      cases hresult.symm.trans h
    · rintro ⟨-, hexited | ⟨-, e, n, h, -⟩⟩
      · exact absurd hexited (hnone code)
      · cases h

/-- What the result of a run that failed tells, where it is settled by the failure alone. -/
theorem tellsExits_of_error {e : Failure}
    (hresult : Session.ending o.returnOnExit (.error e) m = (Outcome.classify (.error e)).settle o.returnOnExit
      m.outer.host.stdio.output.buffered m.outer.host.stdio.error.buffered)
    (hexits : ∀ code, m.outer.host.Exited code ↔ e.exitCode? = some code)
    (hparted : ∀ code, m.outer.host.Exited code → e = .exit code ∧
      (⟨Session.ending o.returnOnExit (.error e) m, Session.cleanedUp m⟩ : Session.Ended).Parted o code) :
    (⟨Session.ending o.returnOnExit (.error e) m, Session.cleanedUp m⟩ : Session.Ended).TellsExits o (.error e m) := by
  constructor
  case parted =>
    intro code hexited
    obtain ⟨rfl, h⟩ := hparted code hexited
    exact ⟨h, m, rfl, rfl⟩
  case returned =>
    dsimp only
    rw [hresult, Outcome.settle_none]
    constructor
    · intro h
      exact absurd h (Outcome.ofFailure_ne_returned e e)
    · rintro ⟨_, h⟩
      cases h
  case exited =>
    intro code
    dsimp only
    rw [hresult, Outcome.settle_exit]
    exact and_congr_right fun _ => (Outcome.ofFailure_exited e e code).trans (hexits code).symm
  case status =>
    intro code
    dsimp only
    rw [hresult, Outcome.settle_status]
    refine and_congr_right fun _ => or_congr ((Outcome.ofFailure_exited e e code).trans (hexits code).symm) ?_
    refine and_congr_right fun _ => ?_
    constructor
    · intro h
      exact ⟨e, m, rfl, h⟩
    · rintro ⟨_, _, ⟨⟩, h⟩
      exact h

end

/-- Whatever the guest, the filesystem module and the sinks that do not fail, streaming or not: when the guest exits,
nothing but cleaning up comes after it, all that was written is delivered, and the exit is the result. And the result
tells of a return, of an exit or of an unreachable instruction only where that is how the guest ended. -/
theorem an_exit_is_final (o : Options) (fs : Filesystem) (around : Surroundings) (g : Guest) (limits : Limits)
    {s : Session} {table : ImportTable} {m : Machine (Hosted Work Session)}
    (hout : ∀ p, o.stdout = some p → p.Faultless) (herr : ∀ p, o.stderr = some p → p.Faultless)
    (hs : Session.setUp o fs = (.ok (), s))
    (htable : ImportTable.install fs.module o.streaming o.traceImports [] = .ok table)
    (hm : g.instantiate (⟨table, fs, around⟩ : Linked).host ({ host := s } : Hosted Work Session) = .ok m)
    (hg : o.streaming = true → g.KeepsState) :
    (Session.start g ⟨table, fs, around⟩ o.streaming o.returnOnExit limits m).TellsExits o
      (Session.runGuest g ⟨table, fs, around⟩ o.streaming limits m) := by
  have houter : m.outer = { host := s } := (Guest.of_instantiate hm).1
  have hstart : m.outer.host.Underway o := by
    rw [houter]
    exact .of_setUp hout herr hs
  have hbegins := Linked.beginsAt_of_install around htable
  have hrun := (Session.steady_underway o).upholds_runGuest g hbegins o.streaming limits m hstart
  rw [Session.start_eq]
  cases hr : Session.runGuest g ⟨table, fs, around⟩ o.streaming limits m with
  | ok _ m' =>
    rw [hr] at hrun
    exact tellsExits_of_ok hrun
  | error e m' =>
    rw [hr] at hrun
    cases hrun with
    | @exit code _ hparting =>
      have hsettled (ho : o.streaming = true) :
          m'.outer.bridge.phase = .normal ∧ Handed o.sinkNumbers .normal m'.outer.host := by
        rw [ho] at hr
        exact Session.handed_of_exit (hg ho) hs ho hm (hparting.called ho) hr
      refine tellsExits_of_error (Session.ending_of_clean hparting.streams.cleanUp _ _) ?_ ?_
      · intro code'
        rw [hparting.exited_iff]
        exact ⟨congrArg some, Option.some.inj⟩
      · intro code' hexited
        obtain rfl := (hparting.exited_iff code').1 hexited
        exact ⟨rfl, hparting.parted (fun ho => (hsettled ho).1) fun ho => (hsettled ho).2⟩
    | stream e hdeeds =>
      have hnone := Session.not_exited hdeeds
      exact tellsExits_of_error rfl (fun code => by simp [hnone, Failure.exitCode?]) fun code hexited =>
        absurd hexited (hnone code)
    | other he hunderway =>
      have hnone := Session.not_exited hunderway.deeds
      exact tellsExits_of_error (Session.ending_of_clean hunderway.streams.cleanUp _ _)
        (fun code => by simp [hnone, he]) fun code hexited => absurd hexited (hnone code)

/-- The herald, which brings its message along. -/
def partingHerald : Guest :=
  { herald with
    data := [(2048, wordBytes 2064 ++ wordBytes 3 ++ wordBytes 2065 ++ wordBytes 2), (2064, [104, 101, 121])] }

def partingSession : Session := (Session.setUp heraldOptions heraldFilesystem).2

def partingEnd (m : Machine (Hosted Work Session)) : Session.Ended :=
  Session.start partingHerald (heraldLinked true) true heraldOptions.returnOnExit ⟨4, 1⟩ m

set_option maxRecDepth 4000

/-- The herald was suspended twice when it exits with 7. Both sinks have all of the message, and the status is 7. -/
theorem a_herald_exits_for_good :
    ∃ m, partingHerald.instantiate (heraldLinked true).host ({ host := partingSession } : Hosted Work Session) =
        .ok m ∧
      (partingEnd m).result = .ok (some 7) ∧ (partingEnd m).Parted heraldOptions 7 ∧
      (partingEnd m).machine.outer.host.stdio.output.events =
        [.wrote [104, 101], .wrote [121], .flushed, .shutDown] := by
  have hrun : (partingHerald.instantiate (heraldLinked true).host
      ({ host := partingSession } : Hosted Work Session)).toOption.any
      (fun m => decide ((partingEnd m).result.toOption = some (some 7) ∧
        (partingEnd m).machine.outer.host.stdio.output.events =
          [.wrote [104, 101], .wrote [121], .flushed, .shutDown])) := by decide +kernel
  obtain ⟨m, hm, hend⟩ := (Option.any_eq_true ..).1 hrun
  obtain ⟨hresult, hevents⟩ := of_decide_eq_true hend
  have hresult := eq_ok_of_toOption hresult
  have hset : Session.setUp heraldOptions heraldFilesystem = (.ok (), partingSession) :=
    Prod.ext (eq_ok_of_toOption (by decide +kernel)) rfl
  have hout (p : SinkPlan) (h : heraldOptions.stdout = some p) : p.Faultless := by
    cases h
    exact ⟨rfl, rfl, by decide, rfl, rfl⟩
  have herr (p : SinkPlan) (h : heraldOptions.stderr = some p) : p.Faultless := by
    cases h
    exact ⟨rfl, rfl, by decide, rfl, rfl⟩
  have hkeeps : partingHerald.KeepsState :=
    ⟨rfl, by simp [partingHerald, herald, Stmt.globalsSet], rfl⟩
  have htells := an_exit_is_final heraldOptions heraldFilesystem ⟨0, fun _ => some 0⟩ partingHerald ⟨4, 1⟩ hout herr
    hset
    (installed_heraldTable true) (eq_ok_of_toOption hm) fun _ => hkeeps
  obtain ⟨-, hexited | ⟨hcode, -⟩⟩ := (htells.status 7).1 hresult
  · exact ⟨m, eq_ok_of_toOption hm, hresult, (htells.parted 7 hexited).1, hevents⟩
  · exact absurd hcode (by decide)

end GuestHost
