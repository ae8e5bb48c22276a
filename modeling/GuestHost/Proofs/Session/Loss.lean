/-
  GuestHost.Proofs.Session.Loss — what a run that succeeds may have lost.

  The bridge looks at its phase when the entry point has returned for good, and refuses a value that no import
  took. Work that nobody took up it does not look at. A guest whose state is `normal` all the while, because
  its `start_unwind` does nothing, so loses its last suspension: the import answered with a placeholder, which
  reads as success, and the work was never begun.

  Proved:
  - `only_a_leftover_unwind_is_lost`: this is the only loss, for every guest and all bodies of its controls. If
    the phase is `normal` at the end, every suspension went through its four milestones and every byte that
    was offered to a sink was taken by it; else the last one stands at its acceptance, and its bytes are the
    ones that the sink lacks.
  - `a_deaf_guest_loses_its_suspension`, `a_deaf_guest_loses_its_output`: the loss happens, so that
    `not_every_accepted_work_is_awaited`.
-/

import GuestHost.Proofs.Session.Delivery
import GuestHost.Proofs.Session.Ending

namespace GuestHost

open Exec

theorem Guest.of_instantiate {κ η τ : Type} {g : Guest} {host : Host κ η} {outer : τ} {m : Machine τ}
    (h : g.instantiate host outer = .ok m) : m.outer = outer ∧ m.globals = initialGlobals g.globals := by
  unfold instantiate at h
  split at h
  · cases h
  · cases hd : applyData g.data (Memory.zeroed (g.pages * pageSize)) with
    | error e => rw [hd] at h; cases h
    | ok memory => rw [hd] at h; cases h; exact ⟨rfl, rfl⟩

/-! ## Sessions -/

/-- A guest that was loaded owes nothing. -/
theorem balanced_instantiate {o : Options} {fs : Filesystem} {s : Session} {g : Guest} {l : Linked}
    {m : Machine (Hosted Work Session)} (hs : Session.setUp o fs = (.ok (), s)) (ho : o.streaming = true)
    (hm : g.instantiate l.host ({ host := s } : Hosted Work Session) = .ok m) :
    Balanced [] (Handed o.sinkNumbers) m ∧ m.outer.bridge.phase = .normal := by
  have houter : m.outer = { host := s } := (Guest.of_instantiate hm).1
  rw [Balanced, houter]
  exact ⟨⟨Account.start, handed_setUp hs ho⟩, rfl⟩

namespace Session

/-- In a session that succeeds, what the sinks lack is what the bridge still holds. -/
theorem handed_of_start {o : Options} {fs : Filesystem} {s : Session} {g : Guest} {l : Linked} {limits : Limits}
    {m : Machine (Hosted Work Session)} {code : Option Int32} (hs : setUp o fs = (.ok (), s))
    (ho : o.streaming = true) (hm : g.instantiate l.host ({ host := s } : Hosted Work Session) = .ok m)
    (hr : (start g l true o.returnOnExit limits m).result = .ok code) :
    Handed o.sinkNumbers (start g l true o.returnOnExit limits m).machine.outer.bridge.phase
      (start g l true o.returnOnExit limits m).machine.outer.host := by
  have hbalanced : ∃ m₁, Balanced [] (Handed o.sinkNumbers) m₁ ∧
      (start g l true o.returnOnExit limits m).machine = cleanedUp m₁ := by
    have hrun := keeps_runGuest g l limits m (balanced_instantiate hs ho hm)
    rw [start_eq] at hr ⊢
    cases hres : runGuest g l true limits m with
    | ok _ m₁ => rw [hres] at hrun; exact ⟨m₁, hrun.1, rfl⟩
    | error e m₁ =>
      rw [hres] at hr hrun
      obtain ⟨hbridge, hstream⟩ := Outcome.settle_ok (settle_of_ending hr)
      rcases hrun with ⟨b, rfl⟩ | ⟨x, rfl⟩ | h
      · exact absurd rfl (hbridge b)
      · exact absurd rfl (hstream x)
      · exact ⟨m₁, h, rfl⟩
  obtain ⟨m₁, hm₁, hlast⟩ := hbalanced
  rw [hlast]
  intro fd hfd
  obtain ⟨w, hw, hoffered⟩ := hm₁.2 fd hfd
  obtain ⟨w', hw', htaken⟩ := Stdio.taken_cleanUp hw
  exact ⟨w', hw', by rw [htaken]; exact hoffered⟩

end Session

/-- A call that returns leaves whole cycles, or besides one suspension that was only accepted, if the phase is
then `unwinding`; and what the sinks of a session lack after a success is what such a phase holds. -/
theorem only_a_leftover_unwind_is_lost (g : Guest) (limits : Limits) :
    (∀ {κ η : Type} (host : Host κ η) (m m' : Machine (Hosted κ η)), host.Disciplined →
      m.outer.bridge.phase = .normal → g.runBridged limits host m = .ok () m' →
        ∃ cycles : List (Cycle κ),
          (m'.outer.bridge.phase = .normal ∧
            m'.outer.bridge.ledger = m.outer.bridge.ledger ++ cycles.flatMap Cycle.milestones) ∨
          ∃ work, m'.outer.bridge.phase = .unwinding work ∧
            m'.outer.bridge.ledger = m.outer.bridge.ledger ++ cycles.flatMap Cycle.milestones ++ [.accepted work]) ∧
    ∀ (o : Options) (fs : Filesystem) (s : Session) (l : Linked) (m : Machine (Hosted Work Session))
      (code : Option Int32), Session.setUp o fs = (.ok (), s) → o.streaming = true →
      g.instantiate l.host ({ host := s } : Hosted Work Session) = .ok m →
      (Session.start g l true o.returnOnExit limits m).result = .ok code →
        Handed o.sinkNumbers (Session.start g l true o.returnOnExit limits m).machine.outer.bridge.phase
          (Session.start g l true o.returnOnExit limits m).machine.outer.host := by
  refine ⟨?_, fun o fs s l m code hs ho hm hr => Session.handed_of_start hs ho hm hr⟩
  intro κ η host m m' hhost hm hr
  obtain ⟨⟨cycles, rest, hopen, hledger⟩, hreturned⟩ := g.account_runBridged limits hhost hm hr
  refine ⟨cycles, ?_⟩
  cases hp : m'.outer.bridge.phase with
  | normal =>
    rw [hp] at hopen
    cases hopen
    exact .inl ⟨rfl, by simpa using hledger⟩
  | unwinding work =>
    rw [hp] at hopen
    cases hopen
    exact .inr ⟨work, rfl, hledger⟩
  | rewinding value => exact absurd hp (hreturned value)

/-! ## The loss -/

/-- A guest that suspends once and whose `start_unwind` does nothing. -/
def deafGuest : Guest where
  body := [.call ⟨hostNamespace, "later"⟩ [.lit 5]]
  instrumented := true
  controls := { startUnwind := .skip }

def deafMachine : Machine (Hosted Practice.Chore Practice.Log) :=
  { memory := Memory.zeroed pageSize, outer := { bridge := { bound := true }, host := #[] } }

/-- A guest that writes one byte to its output, and whose `start_unwind` does nothing. -/
def deafWriter : Guest where
  body := [.call ⟨previewNamespace, "fd_write"⟩ [.lit 1, .lit 2048, .lit 1, .lit 2060]]
  data := [(2048, wordBytes 2056 ++ wordBytes 1), (2056, [65])]
  instrumented := true
  controls := { startUnwind := .skip }

/-- A session with an output, over the standard filesystem module. -/
def deafOptions : Options := { stdout := some {} }

def deafLinked : Linked where
  table := [⟨.served "fd_write" [.i32, .i32, .i32, .i32], .byDescriptor .fdWrite, true, false⟩]
  filesystem := ⟨.standard, 0, 100⟩
  around := ⟨0, fun _ => some 0⟩

set_option maxRecDepth 4000

/-- The call returns, and the work that the import accepted was never begun. -/
theorem a_deaf_guest_loses_its_suspension :
    ∃ m, deafGuest.runBridged ⟨100, 10⟩ Practice.host deafMachine = .ok () m ∧
      m.outer.bridge.ledger = [.accepted (.later 5)] ∧ m.outer.host = #[] := by
  have h : okWith (fun m => decide (m.outer.bridge.ledger = [.accepted (.later 5)] ∧ m.outer.host = #[]))
      (deafGuest.runBridged ⟨100, 10⟩ Practice.host deafMachine) := by decide +kernel
  obtain ⟨m, hr, hm⟩ := exists_of_okWith h
  exact ⟨m, hr, of_decide_eq_true hm⟩

def deafSession : Session := (Session.setUp deafOptions deafLinked.filesystem).2

def deafEnd (m : Machine (Hosted Work Session)) : Session.Ended :=
  Session.start deafWriter deafLinked true deafOptions.returnOnExit ⟨100, 10⟩ m

/-- The run succeeds, and the sink was shut down without the byte that was offered. -/
theorem a_deaf_guest_loses_its_output :
    ∃ m, deafWriter.instantiate deafLinked.host ({ host := deafSession } : Hosted Work Session) = .ok m ∧
      (deafEnd m).result = .ok none ∧ (deafEnd m).machine.outer.host.offered 1 = [65] ∧
      (deafEnd m).machine.outer.host.stdio.output.events = [.shutDown] := by
  have h : (deafWriter.instantiate deafLinked.host ({ host := deafSession } : Hosted Work Session)).toOption.any
      (fun m => decide ((deafEnd m).result.toOption = some none ∧
        (deafEnd m).machine.outer.host.offered 1 = [65] ∧
        (deafEnd m).machine.outer.host.stdio.output.events = [.shutDown])) := by decide +kernel
  obtain ⟨m, hm, hlast⟩ := (Option.any_eq_true ..).1 h
  obtain ⟨hr, hrest⟩ := of_decide_eq_true hlast
  exact ⟨m, eq_ok_of_toOption hm, eq_ok_of_toOption hr, hrest⟩

/-- Both deaf guests keep to the account. -/
theorem deaf_guests_are_accounted_for :
    (∃ m, deafGuest.runBridged ⟨100, 10⟩ Practice.host deafMachine = .ok () m ∧ ∃ cycles : List (Cycle Practice.Chore),
      (m.outer.bridge.phase = .normal ∧ m.outer.bridge.ledger = [] ++ cycles.flatMap Cycle.milestones) ∨
        ∃ work, m.outer.bridge.phase = .unwinding work ∧
          m.outer.bridge.ledger = [] ++ cycles.flatMap Cycle.milestones ++ [.accepted work]) ∧
    ∃ m, (deafEnd m).result = .ok none ∧
      Handed [1] (deafEnd m).machine.outer.bridge.phase (deafEnd m).machine.outer.host := by
  have hsetUp : Session.setUp deafOptions deafLinked.filesystem = (.ok (), deafSession) :=
    Prod.ext (eq_ok_of_toOption (by decide +kernel)) rfl
  obtain ⟨m, hm, -⟩ := a_deaf_guest_loses_its_suspension
  obtain ⟨m', hm', hr', -⟩ := a_deaf_guest_loses_its_output
  exact ⟨⟨m, hm, (only_a_leftover_unwind_is_lost deafGuest ⟨100, 10⟩).1 Practice.host deafMachine m
      Practice.host_disciplined rfl hm⟩,
    m', hr', (only_a_leftover_unwind_is_lost deafWriter ⟨100, 10⟩).2 deafOptions deafLinked.filesystem deafSession
      deafLinked m' none hsetUp rfl hm' hr'⟩

/-- So a call that returns may have accepted work that it never awaited. -/
theorem not_every_accepted_work_is_awaited :
    ¬ ∀ (g : Guest) (m m' : Machine (Hosted Practice.Chore Practice.Log)), m.outer.bridge.phase = .normal →
      g.runBridged ⟨100, 10⟩ Practice.host m = .ok () m' →
        ∀ work, .accepted work ∈ m'.outer.bridge.ledger → .awaited work ∈ m'.outer.bridge.ledger := by
  intro h
  obtain ⟨m, hm, hledger, -⟩ := a_deaf_guest_loses_its_suspension
  have hawaited := h deafGuest deafMachine m rfl hm (.later 5) (by rw [hledger]; exact List.mem_singleton.2 rfl)
  rw [hledger] at hawaited
  cases List.mem_singleton.1 hawaited

end GuestHost
