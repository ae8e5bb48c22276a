/-
  GuestHost.Proofs.Session.Outputs — the outputs of a run whose streams may fail in any way, and how their sinks
  are shut down.

  However the guest ends, its descriptors are then still those of a running guest (`Session.StreamsOpen`): nothing
  but cleaning up shuts a sink down. Cleaning up reaches every descriptor, also after another one failed. A
  streaming output is shut down by being closed. A buffered one is delivered, and when its sink does not take all of
  it the delivery ends there: the sink is dropped without being shut down.

  Proved:
  - `Session.steady_open`: no action on the session, failed or not, shuts a sink down.
  - `sinks_are_shut_down_unless_a_delivery_fails`: which sinks are shut down, in every run.
  - `not_every_sink_is_shut_down`: so there are runs that leave one without it.
-/

import GuestHost.Proofs.Session.Exit
import GuestHost.Proofs.Stream.Open

namespace GuestHost

open Exec

namespace Session

/-- The descriptors are those of a running guest, whatever their sinks do. -/
def StreamsOpen (o : Options) (s : Session) : Prop :=
  ∀ fd d, s.stdio.get? fd = some d → d.Open (s.offered fd) o.streaming (o.plan? fd)

namespace StreamsOpen

variable {o : Options} {s : Session} {fd : Nat} {d d' : Descriptor}

/-- A deed that offers nothing does not matter. -/
theorem noted (h : s.StreamsOpen o) {deed : Deed} (hdeed : ∀ fd, deed.bytesFor fd = []) :
    StreamsOpen o { s with deeds := s.deeds.push deed } := by
  intro fd d hd
  rw [offered_deed s hdeed]
  exact h fd d hd

theorem put (h : s.StreamsOpen o) {s' : Session} (hd : s.stdio.get? fd = some d)
    (hstdio : s'.stdio = s.stdio.put d' fd) (hother : ∀ other ≠ fd, s'.offered other = s.offered other)
    (hopen : d'.Open (s'.offered fd) o.streaming (o.plan? fd)) : s'.StreamsOpen o :=
  streams_put (fun fd offered d => d.Open offered o.streaming (o.plan? fd)) h hd hstdio hother hopen

/-- The descriptors after one of them was given views, where `hopen` says what became of that one. -/
theorem given {views : List View} (h : s.StreamsOpen o) (hd : s.stdio.get? fd = some d)
    (hopen : d'.Open (s.offered fd ++ views.flatMap View.toList) o.streaming (o.plan? fd)) :
    StreamsOpen o { s with deeds := s.deeds.push (.offered fd views), stdio := s.stdio.put d' fd } := by
  have hpush (other : Nat) :
      Session.offered { s with deeds := s.deeds.push (.offered fd views), stdio := s.stdio.put d' fd } other =
        s.offered other ++ if fd = other then views.flatMap View.toList else [] := offered_push s fd other views
  refine h.put hd rfl (fun other hne => ?_) ?_
  · rw [hpush, if_neg (Ne.symm hne), List.append_nil]
  · rw [hpush, if_pos rfl]
    exact hopen

theorem of_setUp {fs : Filesystem} (h : setUp o fs = (.ok (), s)) : s.StreamsOpen o := by
  obtain ⟨hstdio, hdeeds⟩ := Session.of_setUp h
  have hoffered (fd : Nat) : s.offered fd = [] := by simp [Session.offered, hdeeds]
  intro fd d hd
  rw [hstdio] at hd
  rw [hoffered]
  rcases fd with _ | _ | _ | fd
  · cases hd
    exact Descriptor.open_ofSource _ _
  · cases hd
    exact Descriptor.open_ofSink _ _
  · cases hd
    exact Descriptor.open_ofSink _ _
  · cases hd

end StreamsOpen

/-- No action on a session shuts a sink down, or loses what is kept for one, also if it fails. -/
theorem steady_open (o : Options) :
    Steady (fun _ _ => True) (StreamsOpen o) fun _ m => m.outer.host.StreamsOpen o where
  log _ h := h
  drawn _ h := h
  handled _ _ h := h.noted fun _ => rfl
  moved hd hmoves h := h.put hd rfl (fun _ _ => rfl) ((h _ _ hd).turns hmoves.turns)
  offered hd hw h := h.given hd ((h _ _ hd).writev hw)
  visit h _ := h
  fails _ h := h
  broken hd hbreaks h := h.put hd rfl (fun _ _ => rfl) ((h _ _ hd).turns hbreaks.turns)
  refused hd hw h := h.given hd ((h _ _ hd).writev_refused hw)
  exits _ _ h := (h.noted fun _ => rfl).noted fun _ => rfl
  traced _ h := h

section

variable {o : Options} {fs : Filesystem} {g : Guest} {l : Linked} {limits : Limits} {s : Session}
  {m m' : Machine (Hosted Work Session)}

/-- However the guest ended, its descriptors are those of a running guest. -/
theorem streamsOpen_of_leads (hs : setUp o fs = (.ok (), s))
    (hm : g.instantiate l.host ({ host := s } : Hosted Work Session) = .ok m)
    (hr : Leads (runGuest g l o.streaming limits) m m') : m'.outer.host.StreamsOpen o := by
  have houter : m.outer = { host := s } := (Guest.of_instantiate hm).1
  have hstart : m.outer.host.StreamsOpen o := by
    rw [houter]
    exact .of_setUp hs
  have hanywhere : l.BeginsAt fun _ _ => True := ⟨fun _ _ _ _ => trivial, fun _ _ _ _ => trivial⟩
  have hrun := (steady_open o).upholds_runGuest g hanywhere o.streaming limits
  rcases hr with ⟨_, hr⟩ | ⟨e, hr⟩
  · exact hrun.ok hstart hr
  · exact hrun.error hstart hr

/-- The descriptor of a sink, before and after cleaning up. -/
theorem StreamsOpen.descriptor (h : m'.outer.host.StreamsOpen o) {fd : Nat} {p : SinkPlan}
    (hplan : o.plan? fd = some p) :
    ∃ d, m'.outer.host.stdio.get? fd = some d ∧ d.Open (m'.outer.host.offered fd) o.streaming (some p) ∧
      (cleanedUp m').outer.host.stdio.get? fd = some d.cleaned := by
  obtain ⟨d, hd⟩ := m'.outer.host.stdio.get?_isSome (plan?_lt hplan).1
  refine ⟨d, hd, hplan ▸ h fd d hd, ?_⟩
  simp only [cleanedUp, Stdio.get?_cleanUp, hd, Option.map_some]

end

structure Ended.ShutsDown (t : Ended) (o : Options) : Prop where
  /-- A streaming output's sink was, and a buffered one's that takes all that was written to it. -/
  once : ∀ fd p, o.plan? fd = some p →
    (o.streaming = true ∨ ∃ s, Sink.writeAll (t.machine.outer.host.offered fd) ⟨p, 0, #[]⟩ = .ok () s) →
      ∃ d, t.machine.outer.host.stdio.get? fd = some d ∧ ShutDownOnce d.events
  /-- A buffered output's sink that does not was not. -/
  never : ∀ fd p, o.plan? fd = some p → o.streaming = false →
    (∃ e s, Sink.writeAll (t.machine.outer.host.offered fd) ⟨p, 0, #[]⟩ = .error e s) →
      ∃ d, t.machine.outer.host.stdio.get? fd = some d ∧ NeverShutDown d.events

end Session

/-- Whatever the guest, the filesystem module and the streams, and however the run ends: every sink is shut down once,
as the last thing that happens to it, but for the sink of a buffered output that fails while what was kept is written
to it. That one is never shut down. -/
theorem sinks_are_shut_down_unless_a_delivery_fails (o : Options) (fs : Filesystem) (g : Guest) (l : Linked)
    (limits : Limits) {s : Session} {m : Machine (Hosted Work Session)} (hs : Session.setUp o fs = (.ok (), s))
    (hm : g.instantiate l.host ({ host := s } : Hosted Work Session) = .ok m) :
    (Session.start g l o.streaming o.returnOnExit limits m).ShutsDown o := by
  obtain ⟨result, m', hgives, hstart⟩ := Session.start_cases g l o.streaming limits m
  have hopen := Session.streamsOpen_of_leads hs hm hgives.leads
  rw [hstart]
  constructor
  case once =>
    intro fd p hplan htaken
    obtain ⟨d, -, hd, hcleaned⟩ := hopen.descriptor hplan
    refine ⟨d.cleaned, hcleaned, ?_⟩
    cases hstreaming : o.streaming with
    | true =>
      rw [hstreaming] at hd
      exact hd.shutDownOnce
    | false =>
      rw [hstreaming] at hd htaken
      obtain htaken | ⟨s, hw⟩ := htaken
      · cases htaken
      · exact hd.delivery.shutDownOnce hw
  case never =>
    intro fd p hplan hstreaming hfails
    obtain ⟨e, s, hw⟩ := hfails
    obtain ⟨d, -, hd, hcleaned⟩ := hopen.descriptor hplan
    rw [hstreaming] at hd
    exact ⟨d.cleaned, hcleaned, hd.delivery.neverShutDown hw⟩

/-! ## A sink that is not shut down -/

/-- The parting herald's streams: the one sink refuses its first write, the other one cannot be shut down. -/
def stubbornOptions : Options where
  streaming := false
  stdout := some { failWrite := some 0 }
  stderr := some { failShutDown := true }

def stubbornSession : Session := (Session.setUp stubbornOptions heraldFilesystem).2

/-- How its run ends, where an exit becomes a status or not. -/
def stubbornEnd (returnOnExit : Bool) (m : Machine (Hosted Work Session)) : Session.Ended :=
  Session.start partingHerald (heraldLinked false) stubbornOptions.streaming returnOnExit ⟨4, 1⟩ m

set_option maxRecDepth 4000

theorem setUp_stubborn : Session.setUp stubbornOptions heraldFilesystem = (.ok (), stubbornSession) :=
  Prod.ext (eq_ok_of_toOption (by decide +kernel)) rfl

/-- The sink that refused its bytes saw nothing else. The other one took them, and its shutdown came and failed. -/
theorem a_stubborn_sink_stays_open :
    ∃ m, partingHerald.instantiate (heraldLinked false).host ({ host := stubbornSession } : Hosted Work Session) =
        .ok m ∧
      (stubbornEnd false m).machine.outer.host.stdio.output.events = [.writeFailed] ∧
      (stubbornEnd false m).machine.outer.host.stdio.error.events = [.wrote [101, 121], .shutDownFailed] := by
  have h : (partingHerald.instantiate (heraldLinked false).host
      ({ host := stubbornSession } : Hosted Work Session)).toOption.any
      (fun m => decide ((stubbornEnd false m).machine.outer.host.stdio.output.events = [.writeFailed] ∧
        (stubbornEnd false m).machine.outer.host.stdio.error.events = [.wrote [101, 121], .shutDownFailed])) := by
    decide +kernel
  obtain ⟨m, hm, hlast⟩ := (Option.any_eq_true ..).1 h
  exact ⟨m, eq_ok_of_toOption hm, of_decide_eq_true hlast⟩

/-- Of the stubborn sinks, the one is shut down and the other is not. -/
theorem stubborn_sinks_are_shut_down_as_said :
    ∃ m, partingHerald.instantiate (heraldLinked false).host ({ host := stubbornSession } : Hosted Work Session) =
        .ok m ∧
      (stubbornEnd false m).ShutsDown stubbornOptions ∧
      NeverShutDown (stubbornEnd false m).machine.outer.host.stdio.output.events ∧
      ShutDownOnce (stubbornEnd false m).machine.outer.host.stdio.error.events := by
  obtain ⟨m, hm, houtput, herror⟩ := a_stubborn_sink_stays_open
  refine ⟨m, hm, sinks_are_shut_down_unless_a_delivery_fails stubbornOptions heraldFilesystem partingHerald
    (heraldLinked false) ⟨4, 1⟩ setUp_stubborn hm, ?_, [.wrote [101, 121]], _, herror, rfl, ?_⟩
  · rw [houtput]
    simp [NeverShutDown, SinkEvent.isShutDown]
  · simp [SinkEvent.isShutDown]

/-- So not every sink is shut down when the run has ended. -/
theorem not_every_sink_is_shut_down :
    ¬ ∀ (o : Options) (fs : Filesystem) (around : Surroundings) (g : Guest) (limits : Limits) (s : Session)
      (table : ImportTable) (m : Machine (Hosted Work Session)), Session.setUp o fs = (.ok (), s) →
      ImportTable.install fs.module o.streaming o.traceImports [] = .ok table →
      g.instantiate (⟨table, fs, around⟩ : Linked).host ({ host := s } : Hosted Work Session) = .ok m →
      ∀ fd p, o.plan? fd = some p →
        ∃ d, (Session.start g ⟨table, fs, around⟩ o.streaming o.returnOnExit limits
          m).machine.outer.host.stdio.get? fd = some d ∧ ShutDownOnce d.events := by
  intro h
  obtain ⟨m, hm, houtput, -⟩ := a_stubborn_sink_stays_open
  obtain ⟨d, hd, honce⟩ := h stubbornOptions heraldFilesystem ⟨0, fun _ => some 0⟩ partingHerald ⟨4, 1⟩ stubbornSession
    (heraldTable false) m setUp_stubborn (installed_heraldTable false) hm 1 _ rfl
  obtain rfl : (stubbornEnd false m).machine.outer.host.stdio.output = d := Option.some.inj hd
  refine honce.not_never ?_
  rw [houtput]
  simp [NeverShutDown, SinkEvent.isShutDown]

end GuestHost
