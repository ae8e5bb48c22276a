/-
  GuestHost.Proofs.Session.Ending — the end of a run: cleaning up, and the result.

  Whatever the run of the entry point came to, every stream is closed and then delivered (`Stdio.each_eq`), and
  the result is settled from what the run came to and from how that went (`Session.start_eq`).
-/

import GuestHost.Session.Start
import GuestHost.Proofs.Stream.Taken

namespace GuestHost

open Exec

/-! ## Cleaning up -/

namespace Stdio

theorem each_eq (act : EStateM StreamError Descriptor Unit) (s : Stdio) :
    s.each act = ((do Descriptor.outcome act s.input; Descriptor.outcome act s.output; Descriptor.outcome act s.error),
      ⟨Descriptor.after act s.input, Descriptor.after act s.output, Descriptor.after act s.error⟩) := by
  cases hi : act s.input <;> cases ho : act s.output <;> cases he : act s.error <;>
    simp only [each, Descriptor.outcome, Descriptor.after, hi, ho, he]

theorem get?_each (act : EStateM StreamError Descriptor Unit) (s : Stdio) (fd : Nat) :
    (s.each act).2.get? fd = (s.get? fd).map (Descriptor.after act) := by
  rw [each_eq]
  rcases fd with _ | _ | _ | fd <;> rfl

theorem cleanUp_eq {s : Stdio} (hi : s.input.CleansUp) (ho : s.output.CleansUp) (he : s.error.CleansUp) :
    s.cleanUp = (.ok (), ⟨s.input.cleaned, s.output.cleaned, s.error.cleaned⟩) := by
  unfold cleanUp
  simp only [each_eq, hi.1, ho.1, he.1, hi.2, ho.2, he.2]
  rfl

theorem get?_cleanUp (s : Stdio) (fd : Nat) : s.cleanUp.2.get? fd = (s.get? fd).map Descriptor.cleaned := by
  simp only [cleanUp]
  rw [get?_each, get?_each, Option.map_map]
  rfl

end Stdio

/-! ## Exits -/

/-- The code of an exit, also if there are texts around it. -/
def Failure.exitCode? : Failure → Option Int32
  | exit code => some code
  | context _ inner => inner.exitCode?
  | _ => none

namespace Outcome

theorem ofFailure_exited (whole e : Failure) (code : Int32) :
    ofFailure whole e = exited code ↔ e.exitCode? = some code := by
  induction e with
  | exit other => simp [ofFailure, Failure.exitCode?]
  | context text inner ih => exact ih
  | _ => simp [ofFailure, Failure.exitCode?]

theorem ofFailure_ne_returned (whole e : Failure) : ofFailure whole e ≠ returned := by
  induction e with
  | context text inner ih => exact ih
  | _ => simp [ofFailure]

variable {o : Outcome} {returnOnExit : Bool} {stdout stderr : List UInt8} {code : Int32}

/-- Only a guest that returned comes to no status. -/
theorem settle_none : o.settle returnOnExit stdout stderr = .ok none ↔ o = returned := by
  cases o with
  | returned => simp [settle]
  | exited code => cases returnOnExit <;> simp [settle]
  | trapped t => simp only [settle]; split <;> simp
  | failed e => simp [settle]

/-- Only an exit that does not become a status is the failure of a run. -/
theorem settle_exit :
    o.settle returnOnExit stdout stderr = .error (.exit code) ↔ returnOnExit = false ∧ o = exited code := by
  cases o with
  | returned => simp [settle]
  | exited code => cases returnOnExit <;> simp [settle]
  | trapped t => simp only [settle]; split <;> simp
  | failed e => simp [settle]

/-- A status is the code of an exit, or tells of an unreachable instruction. -/
theorem settle_status :
    o.settle returnOnExit stdout stderr = .ok (some code) ↔
      returnOnExit = true ∧ (o = exited code ∨ code = unreachableStatus ∧ o = trapped .unreachable) := by
  cases o with
  | returned => simp [settle]
  | exited code => cases returnOnExit <;> simp [settle]
  | trapped t =>
    by_cases hstatus : returnOnExit = true ∧ t = .unreachable
    · obtain ⟨rfl, rfl⟩ := hstatus
      constructor
      · intro h
        cases h
        exact ⟨rfl, .inr ⟨rfl, rfl⟩⟩
      · rintro ⟨-, h | ⟨rfl, -⟩⟩
        · cases h
        · rfl
    · have hfails : (trapped t).settle returnOnExit stdout stderr = .error (.guestTrapped t) := by
        simpa [settle] using hstatus
      rw [hfails]
      constructor
      · intro h
        cases h
      · rintro ⟨hreturn, h | ⟨-, h⟩⟩
        · cases h
        · cases h
          exact absurd ⟨hreturn, rfl⟩ hstatus
  | failed e => simp [settle]

end Outcome

/-! ## Before the guest is entered -/

namespace Guest

variable (g : Guest)

/-- An export is there, or its lack is a failure other than an exit. -/
theorem requireExport_cases (name : String) (type : FuncType) (missing : Failure)
    (hmissing : missing.exitCode? = none) :
    g.requireExport name type missing = .ok () ∨
      ∃ e : Failure, e.exitCode? = none ∧ g.requireExport name type missing = .error e := by
  unfold requireExport
  split
  · exact .inr ⟨missing, hmissing, rfl⟩
  · split
    · exact .inl rfl
    · exact .inr ⟨_, rfl, rfl⟩

/-- The bridge is bound, or the machine is as it was. -/
theorem bindBridge_cases {κ η : Type} (m : Machine (Hosted κ η)) :
    (∃ memory, g.bindBridge m = .ok () { m with memory, outer := { m.outer with
        bridge := { m.outer.bridge with bound := true, phase := .normal } } }) ∨
      ∃ e : Failure, e.exitCode? = none ∧ g.bindBridge m = .error e m := by
  have hexports (l : List (String × FuncType)) :
      (l.forM fun x => Exec.settle (g.requireExport x.1 x.2 (.bridge (.missingExport x.1))) :
          Exec (Hosted κ η) Unit) m = .ok () m ∨
        ∃ e : Failure, e.exitCode? = none ∧
          (l.forM fun x => Exec.settle (g.requireExport x.1 x.2 (.bridge (.missingExport x.1))) :
            Exec (Hosted κ η) Unit) m = .error e m := by
    induction l with
    | nil => exact .inl rfl
    | cons x l ih =>
      rcases g.requireExport_cases x.1 x.2 (.bridge (.missingExport x.1)) rfl with hx | ⟨e, he, hx⟩
      · have hsettle : (Exec.settle (g.requireExport x.1 x.2 (.bridge (.missingExport x.1))) :
            Exec (Hosted κ η) Unit) m = .ok () m := by rw [hx]; rfl
        rcases ih with hrest | ⟨e, he, hrest⟩
        · exact .inl ((bind_of_ok hsettle).trans hrest)
        · exact .inr ⟨e, he, (bind_of_ok hsettle).trans hrest⟩
      · have hsettle : (Exec.settle (g.requireExport x.1 x.2 (.bridge (.missingExport x.1))) :
            Exec (Hosted κ η) Unit) m = .error e m := by rw [hx]; rfl
        exact .inr ⟨e, he, bind_of_error hsettle⟩
  unfold bindBridge
  rcases hexports bridgeExports with hall | ⟨e, he, hall⟩
  · rw [bind_of_ok hall]
    split
    · simp only [Bridge.bind, bind_apply, get_apply]
      split
      · exact .inl ⟨_, rfl⟩
      · exact .inr ⟨_, rfl, rfl⟩
    · exact .inr ⟨_, rfl, rfl⟩
  · exact .inr ⟨e, he, bind_of_error hall⟩

end Guest

/-! ## The run and its result -/

namespace Session

theorem runGuest_streaming (g : Guest) (l : Linked) (limits : Limits) :
    runGuest g l true limits =
      if g.exportsMemory then do
        g.bindBridge
        preRun
        g.runBridged limits l.host
      else throw (.guestMissingExport Guest.memoryName) := by
  unfold runGuest
  cases g.exportsMemory <;> rfl

theorem runGuest_buffering (g : Guest) (l : Linked) (limits : Limits) :
    runGuest g l false limits =
      if g.exportsMemory then do
        preRun
        Exec.settle (g.requireExport Guest.entryName ⟨[], []⟩ (.guestMissingExport Guest.entryName))
        g.entryOf limits l.host
      else throw (.guestMissingExport Guest.memoryName) := by
  unfold runGuest
  cases g.exportsMemory <;> rfl

/-- The machine when its streams are cleaned up. -/
def cleanedUp (m : Machine (Hosted Work Session)) : Machine (Hosted Work Session) :=
  { m with outer := { m.outer with host := { m.outer.host with stdio := m.outer.host.stdio.cleanUp.2 } } }

/-- What comes of a run of the entry point that ended so. -/
def ending (returnOnExit : Bool) (result : Except Failure Unit) (m : Machine (Hosted Work Session)) :
    Except Failure (Option Int32) :=
  let stdout := m.outer.host.stdio.output.buffered
  let stderr := m.outer.host.stdio.error.buffered
  match (Outcome.classify result).settle returnOnExit stdout stderr, m.outer.host.stdio.cleanUp.1 with
  | .ok _, .error e => .error (.fatal (.stream e) stdout stderr)
  | settled, _ => settled

theorem start_eq (g : Guest) (l : Linked) (streaming returnOnExit : Bool) (limits : Limits)
    (m : Machine (Hosted Work Session)) :
    start g l streaming returnOnExit limits m = match runGuest g l streaming limits m with
      | .ok () m => ⟨ending returnOnExit (.ok ()) m, cleanedUp m⟩
      | .error e m => ⟨ending returnOnExit (.error e) m, cleanedUp m⟩ := by
  unfold start
  cases runGuest g l streaming limits m with
  | ok _ m' =>
    simp only [ending]
    split <;> simp_all [cleanedUp]
  | error e m' =>
    simp only [ending]
    split <;> simp_all [cleanedUp]

/-- Every run comes to the end of the guest first, in the same way whatever an exit becomes, and is then cleaned
up. -/
theorem start_cases (g : Guest) (l : Linked) (streaming : Bool) (limits : Limits) (m : Machine (Hosted Work Session)) :
    ∃ result m', Gives (runGuest g l streaming limits) m result m' ∧ ∀ returnOnExit,
      start g l streaming returnOnExit limits m = ⟨ending returnOnExit result m', cleanedUp m'⟩ := by
  cases hr : runGuest g l streaming limits m with
  | ok _ m' => exact ⟨.ok (), m', hr, fun returnOnExit => by rw [start_eq, hr]⟩
  | error e m' => exact ⟨.error e, m', hr, fun returnOnExit => by rw [start_eq, hr]⟩

theorem settle_of_ending {returnOnExit : Bool} {result : Except Failure Unit} {m : Machine (Hosted Work Session)}
    {code : Option Int32} (h : ending returnOnExit result m = .ok code) :
    (Outcome.classify result).settle returnOnExit m.outer.host.stdio.output.buffered
      m.outer.host.stdio.error.buffered = .ok code := by
  simp only [ending] at h
  split at h
  · cases h
  · exact h

/-- Where the streams are cleaned up without a failure, the run alone settles the result. -/
theorem ending_of_clean {m : Machine (Hosted Work Session)} (h : m.outer.host.stdio.cleanUp.1 = .ok ())
    (returnOnExit : Bool) (result : Except Failure Unit) :
    ending returnOnExit result m = (Outcome.classify result).settle returnOnExit m.outer.host.stdio.output.buffered
      m.outer.host.stdio.error.buffered := by
  simp only [ending, h]
  cases (Outcome.classify result).settle returnOnExit m.outer.host.stdio.output.buffered
    m.outer.host.stdio.error.buffered <;> rfl

end Session

/-- A result that is no failure is not due to a failure of the bridge or of a stream. -/
theorem Outcome.settle_ok {e : Failure} {returnOnExit : Bool} {stdout stderr : List UInt8} {code : Option Int32}
    (h : (classify (.error e)).settle returnOnExit stdout stderr = .ok code) :
    (∀ b, e ≠ .bridge b) ∧ ∀ s, e ≠ .stream s := by
  constructor <;> (rintro x rfl; cases h)

/-- The failure without the output that was still kept back. -/
def Failure.undiagnosed : Failure → Failure
  | fatal source _ _ => fatal source [] []
  | e => e

/-- Of what was kept back, only the diagnostics of a failure tell. -/
theorem Outcome.settle_undiagnosed (o : Outcome) (returnOnExit : Bool) (out err out' err' : List UInt8) :
    (o.settle returnOnExit out err).mapError Failure.undiagnosed =
      (o.settle returnOnExit out' err').mapError Failure.undiagnosed := by
  cases o <;> rfl

end GuestHost
