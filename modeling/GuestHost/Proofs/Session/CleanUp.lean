/-
  GuestHost.Proofs.Session.CleanUp — cleaning up, step by step.

  There are six steps (`CleanUpStep.all`): each stream is closed, and only then each of them delivered. All six are
  taken, whatever came of those before (`Stdio.takeAll`); a step touches one stream, and what it makes of it depends on
  that stream alone. What counts in the end is the first failure, in the order of the steps. Streams that were cleaned
  up have come to rest (`Descriptor.AtRest`): cleaning them up again does nothing to them.

  Proved:
  - `Stdio.cleanUp_eq_takeAll`: cleaning up is taking the six steps.
  - `firstFailure_eq_error_iff`: which failure counts.
  - `streams_are_cleaned_up_whatever_fails`: all streams, and all that can fail on them.
-/

import GuestHost.Proofs.Session.Ending

namespace GuestHost

/-! ## Steps -/

inductive CleanUpStep where
  | close (fd : Nat)
  | deliver (fd : Nat)
  deriving DecidableEq, Repr

namespace CleanUpStep

def fd : CleanUpStep → Nat
  | close fd | deliver fd => fd

def act : CleanUpStep → EStateM StreamError Descriptor Unit
  | close _ => Descriptor.close
  | deliver _ => Descriptor.postRun

def all : List CleanUpStep := [close 0, close 1, close 2, deliver 0, deliver 1, deliver 2]

end CleanUpStep

namespace Stdio

def takeStep (s : Stdio) (step : CleanUpStep) : Except StreamError Unit × Stdio :=
  match s.get? step.fd with
  | none => (.ok (), s)
  | some d => (Descriptor.outcome step.act d, s.put (Descriptor.after step.act d) step.fd)

/-- Takes steps one after the other, also after one failed, and tells how each of them went. -/
def takeAll : List CleanUpStep → Stdio → List (Except StreamError Unit) × Stdio
  | [], s => ([], s)
  | step :: steps, s =>
    let (outcome, s) := s.takeStep step
    let (outcomes, s) := s.takeAll steps
    (outcome :: outcomes, s)

end Stdio

/-- The first failure among outcomes, if there is one. -/
def firstFailure : List (Except StreamError Unit) → Except StreamError Unit
  | [] => .ok ()
  | .ok () :: rest => firstFailure rest
  | .error e :: _ => .error e

theorem firstFailure_eq_error_iff (outcomes : List (Except StreamError Unit)) (e : StreamError) :
    firstFailure outcomes = .error e ↔
      ∃ i : Nat, outcomes[i]? = some (Except.error e) ∧ ∀ j < i, outcomes[j]? = some (Except.ok ()) := by
  induction outcomes with
  | nil => simp [firstFailure]
  | cons first rest ih =>
    cases first with
    | ok _ =>
      rw [firstFailure, ih]
      constructor
      · rintro ⟨i, hi, hbefore⟩
        refine ⟨i + 1, hi, fun j hj => ?_⟩
        cases j with
        | zero => rfl
        | succ j => exact hbefore j (Nat.lt_of_succ_lt_succ hj)
      · rintro ⟨i, hi, hbefore⟩
        cases i with
        | zero => cases hi
        | succ i => exact ⟨i, hi, fun j hj => hbefore (j + 1) (Nat.succ_lt_succ hj)⟩
    | error e' =>
      rw [firstFailure]
      constructor
      · rintro ⟨⟩
        exact ⟨0, rfl, nofun⟩
      · rintro ⟨i, hi, hbefore⟩
        cases i with
        | zero => cases hi; rfl
        | succ i => cases hbefore 0 (Nat.succ_pos i)

/-! ## Streams -/

namespace Stdio

/-- The six outcomes. Each tells of one stream, and of nothing that happened to the others. -/
theorem takeAll_all (s : Stdio) :
    s.takeAll CleanUpStep.all =
      ([Descriptor.outcome Descriptor.close s.input, Descriptor.outcome Descriptor.close s.output,
          Descriptor.outcome Descriptor.close s.error,
          Descriptor.outcome Descriptor.postRun (Descriptor.after Descriptor.close s.input),
          Descriptor.outcome Descriptor.postRun (Descriptor.after Descriptor.close s.output),
          Descriptor.outcome Descriptor.postRun (Descriptor.after Descriptor.close s.error)],
        ⟨s.input.cleaned, s.output.cleaned, s.error.cleaned⟩) := rfl

/-- Cleaning up is taking the six steps. -/
theorem cleanUp_eq_takeAll (s : Stdio) :
    s.cleanUp = (firstFailure (s.takeAll CleanUpStep.all).1, (s.takeAll CleanUpStep.all).2) := by
  -- the sequences that end with the first failure, over all that six steps can come to
  have hverdict : ∀ a b c a' b' c' : Except StreamError Unit,
      (do (do a; b; c); (do a'; b'; c')) = firstFailure [a, b, c, a', b', c'] := by
    rintro (_ | _) (_ | _) (_ | _) (_ | _) (_ | _) (_ | _) <;> rfl
  rw [takeAll_all, ← hverdict]
  simp only [cleanUp, each_eq]
  rfl

end Stdio

/-- Nothing is left to be done about the descriptor: neither closing nor delivering it does anything, or fails. -/
structure Descriptor.AtRest (d : Descriptor) : Prop where
  close : Descriptor.close d = .ok () d
  postRun : Descriptor.postRun d = .ok () d

theorem BufferedOutput.delivered_deliver (w : BufferedOutput) :
    ∃ w', w'.delivered = true ∧
      (deliver w = .ok () w' ∨ ∃ e, deliver w = .error e w') := by
  by_cases hdelivered : w.delivered = true
  · exact ⟨w, hdelivered, .inl (if_pos hdelivered)⟩
  · rw [deliver, if_neg hdelivered]
    split
    · exact ⟨_, rfl, .inl rfl⟩
    · exact ⟨_, rfl, .inr ⟨_, rfl⟩⟩

theorem StreamingOutput.closed_close (w : StreamingOutput) :
    ∃ w', w'.closed = true ∧ (close w = .ok () w' ∨ ∃ e, close w = .error e w') := by
  by_cases hclosed : w.closed = true
  · exact ⟨w, hclosed, .inl (if_pos hclosed)⟩
  · rw [close, if_neg hclosed]
    split
    · exact ⟨_, rfl, .inl rfl⟩
    · exact ⟨_, rfl, .inr ⟨_, rfl⟩⟩

/-- A descriptor that was cleaned up is at rest, also if that failed. -/
theorem Descriptor.atRest_cleaned (d : Descriptor) : d.cleaned.AtRest := by
  cases d with
  | null | bufferedInput r | streamingInput r => exact ⟨rfl, rfl⟩
  | bufferedOutput w =>
    obtain ⟨w', hw', hdeliver⟩ := w.delivered_deliver
    have hcleaned : cleaned (.bufferedOutput w) = .bufferedOutput w' := by
      show after Descriptor.postRun (.bufferedOutput w) = _
      rcases hdeliver with hdeliver | ⟨e, hdeliver⟩ <;> simp only [after, Descriptor.postRun, hdeliver, within]
    rw [hcleaned]
    exact ⟨rfl, by simp only [Descriptor.postRun, BufferedOutput.deliver, hw', if_true, within]⟩
  | streamingOutput w =>
    obtain ⟨w', hw', hclose⟩ := w.closed_close
    have hcleaned : cleaned (.streamingOutput w) = .streamingOutput w' := by
      show after Descriptor.postRun (after Descriptor.close (.streamingOutput w)) = _
      rcases hclose with hclose | ⟨e, hclose⟩ <;>
        simp only [after, Descriptor.close, hclose, within, Descriptor.postRun]
    rw [hcleaned]
    exact ⟨by simp only [Descriptor.close, StreamingOutput.close, hw', if_true, within], rfl⟩

/-! ## Cleaning up -/

theorem Stdio.cleanUp_of_atRest {s : Stdio} (hi : s.input.AtRest) (ho : s.output.AtRest) (he : s.error.AtRest) :
    s.cleanUp = (.ok (), s) := by
  obtain ⟨input, output, error⟩ := s
  simp only [cleanUp, each, hi.close, ho.close, he.close, hi.postRun, ho.postRun, he.postRun]
  rfl

/-- Whatever the streams are and whatever fails on them, cleaning up takes all of the six steps in order, and fails with
the first failure among them if there is one. What happens to a sink does not depend on the other two streams. And
cleaning up once more does nothing. -/
theorem streams_are_cleaned_up_whatever_fails (s : Stdio) :
    (s.cleanUp.2 = (s.takeAll CleanUpStep.all).2 ∧
        ∀ e, s.cleanUp.1 = .error e ↔ ∃ i : Nat, (s.takeAll CleanUpStep.all).1[i]? = some (Except.error e) ∧
          ∀ j < i, (s.takeAll CleanUpStep.all).1[j]? = some (Except.ok ())) ∧
      (∀ (t : Stdio) (fd : Nat), t.get? fd = s.get? fd →
        (t.cleanUp.2.get? fd).map Descriptor.events = (s.cleanUp.2.get? fd).map Descriptor.events) ∧
      s.cleanUp.2.cleanUp = (.ok (), s.cleanUp.2) := by
  have hall := s.cleanUp_eq_takeAll
  refine ⟨⟨by rw [hall], fun e => ?_⟩, fun t fd hsame => ?_, ?_⟩
  · rw [hall]
    exact firstFailure_eq_error_iff _ e
  · rw [Stdio.get?_cleanUp, Stdio.get?_cleanUp, hsame]
  · have hleft : s.cleanUp.2 = ⟨s.input.cleaned, s.output.cleaned, s.error.cleaned⟩ := by rw [hall, Stdio.takeAll_all]
    rw [hleft]
    exact Stdio.cleanUp_of_atRest s.input.atRest_cleaned s.output.atRest_cleaned s.error.atRest_cleaned

/-- Three streams, of which two fail: the sink of one cannot be shut down, and that of the other refuses what is
written to it. -/
def failingStreams : Stdio :=
  ⟨.null, .streamingOutput ⟨⟨{ failShutDown := true }, 0, #[]⟩, false⟩,
    .bufferedOutput ⟨⟨{ failWrite := some 0 }, 0, #[]⟩, [65], false⟩⟩

/-- Both failures come about, and the earlier one counts. Each sink has seen what it sees without the other. -/
theorem two_streams_fail_on_their_own :
    (failingStreams.takeAll CleanUpStep.all).1 =
        [.ok (), .error (.io "sink shutdown failed"), .ok (), .ok (), .ok (), .error (.io "sink write failed")] ∧
      failingStreams.cleanUp.1 = .error (.io "sink shutdown failed") ∧
      ({ failingStreams with output := .null } : Stdio).get? 2 = failingStreams.get? 2 ∧
      (({ failingStreams with output := .null } : Stdio).cleanUp.2.get? 2).map Descriptor.events =
        (failingStreams.cleanUp.2.get? 2).map Descriptor.events ∧
      failingStreams.cleanUp.2.error.events = [.writeFailed] ∧
      failingStreams.cleanUp.2.cleanUp = (.ok (), failingStreams.cleanUp.2) := by
  obtain ⟨⟨-, hfirst⟩, halone, hagain⟩ := streams_are_cleaned_up_whatever_fails failingStreams
  have hbefore : ∀ j < 1, (failingStreams.takeAll CleanUpStep.all).1[j]? = some (Except.ok ()) := fun j hj => by
    obtain rfl := Nat.lt_one_iff.1 hj
    rfl
  have hverdict := (hfirst (.io "sink shutdown failed")).2 ⟨1, rfl, hbefore⟩
  exact ⟨rfl, hverdict, rfl, halone _ 2 rfl, rfl, hagain⟩

end GuestHost
