/-
  GuestHost.Proofs.Stream.Taken — the bytes that a sink has taken.

  Proved:
  - `Sink.taken_writeAll`, `StreamingOutput.taken_put`: what is written without a failure is taken as a whole,
    in order, after what was taken before.
  - `flatten_chunks`: a pending write has all the bytes of its views.
  - `Descriptor.Moves.turns`, `Descriptor.Breaks.turns`: what an action other than a write makes of a descriptor.
-/

import GuestHost.Stream.Descriptor
import GuestHost.Proofs.Program.Keeping

namespace GuestHost

open Exec

def SinkEvent.bytes : SinkEvent → List UInt8
  | wrote bs => bs
  | _ => []

def SinkEvent.taken (events : List SinkEvent) : List UInt8 := events.flatMap bytes

namespace Sink

def taken (s : Sink) : List UInt8 := SinkEvent.taken s.events.toList

theorem taken_push (s : Sink) (e : SinkEvent) : SinkEvent.taken (s.events.push e).toList = s.taken ++ e.bytes := by
  simp [taken, SinkEvent.taken]

/-- One write takes a beginning of the bytes, and tells its length. -/
theorem taken_write {s s' : Sink} {bs : List UInt8} {n : Nat} (h : write bs s = .ok n s') :
    s'.taken = s.taken ++ bs.take n := by
  simp only [write] at h
  split at h
  · cases h
  · split at h
    · cases h
      simp [taken, SinkEvent.taken, SinkEvent.bytes]
    · cases h
      rw [taken, taken_push]
      cases s.plan.maxWrite <;> simp [SinkEvent.bytes]

theorem taken_writeUpTo (fuel : Nat) {s s' : Sink} {bs : List UInt8} (hlen : bs.length ≤ fuel)
    (h : writeUpTo fuel bs s = .ok () s') : s'.taken = s.taken ++ bs := by
  induction fuel generalizing s bs with
  | zero =>
    obtain rfl := List.length_eq_zero_iff.1 (Nat.le_zero.1 hlen)
    cases h
    simp
  | succ fuel ih =>
    cases bs with
    | nil => cases h; simp
    | cons b bs =>
      obtain ⟨n, s₁, hw, h⟩ := bind_eq_ok h
      cases n with
      | zero => cases h
      | succ n =>
        have hrest := ih (by simp at hlen ⊢; omega) h
        rw [hrest, taken_write hw, List.append_assoc, List.take_append_drop]

/-- Writing everything hands everything over. -/
theorem taken_writeAll {s s' : Sink} {bs : List UInt8} (h : writeAll bs s = .ok () s') : s'.taken = s.taken ++ bs :=
  taken_writeUpTo _ (Nat.le_refl _) h

theorem taken_writeEach {s s' : Sink} {chunks : List (List UInt8)} (h : chunks.forM writeAll s = .ok () s') :
    s'.taken = s.taken ++ chunks.flatten := by
  induction chunks generalizing s with
  | nil => cases h; simp
  | cons c chunks ih =>
    obtain ⟨_, s₁, hw, h⟩ := bind_eq_ok (by simpa only [List.forM_eq_forM, List.forM_cons] using h)
    rw [ih h, taken_writeAll hw, List.flatten_cons, List.append_assoc]

theorem taken_flush {s s' : Sink} (h : flush s = .ok () s') : s'.taken = s.taken := by
  simp only [flush] at h
  split at h <;> cases h
  rw [taken, taken_push]
  exact List.append_nil _

end Sink

namespace StreamingOutput

theorem taken_put {w w' : StreamingOutput} {chunks : List (List UInt8)} {n : UInt32}
    (h : put chunks w = .ok n w') : w'.sink.taken = w.sink.taken ++ chunks.flatten := by
  simp only [put] at h
  split at h
  · cases h
  · split at h
    · next sink hw =>
      cases h
      obtain ⟨_, s₁, hchunks, hflush⟩ := bind_eq_ok hw
      rw [Sink.taken_flush hflush, Sink.taken_writeEach hchunks]
    · cases h

end StreamingOutput

/-- The views that have bytes have all of them. -/
theorem flatten_chunks (views : List View) :
    ((views.filter fun v => v.size != 0).map View.toList).flatten = views.flatMap View.toList := by
  induction views with
  | nil => rfl
  | cons v views ih =>
    by_cases hv : v.size = 0
    · have : v.toList = [] := List.length_eq_zero_iff.1 (by rw [View.length_toList, hv])
      simpa [hv, this] using ih
    · simpa [hv] using ih

/-! ## Descriptors after an action -/

/-- What becomes of a descriptor by an action on it other than a write, if that does not fail. -/
inductive Descriptor.Moves (d d' : Descriptor) : Prop
  | readv {lens : List UInt32} {t : Transfer (List UInt8) PendingRead} : readv lens d = .ok t d' → Moves d d'
  | finishRead {work : PendingRead} {bs : List UInt8} : finishRead work d = .ok bs d' → Moves d d'
  | finishWrite {work : PendingWrite} {n : UInt32} : finishWrite work d = .ok n d' → Moves d d'
  | preRun : preRun d = .ok () d' → Moves d d'

/-- How such an action fails on a descriptor, and what becomes of it then. -/
inductive Descriptor.Breaks (e : StreamError) (d d' : Descriptor) : Prop
  | readv {lens : List UInt32} : readv lens d = .error e d' → Breaks e d d'
  | finishRead {work : PendingRead} : finishRead work d = .error e d' → Breaks e d d'
  | finishWrite {work : PendingWrite} : finishWrite work d = .error e d' → Breaks e d d'
  | preRun : preRun d = .error e d' → Breaks e d d'

/-- All that an action other than a write can make of a descriptor, also if it fails: the kind stays, an input moves on,
and a streaming output is left as a pending write leaves it. -/
inductive Descriptor.Turns : Descriptor → Descriptor → Prop
  | same (d : Descriptor) : Turns d d
  | bufferedInput (r r' : BufferedInput) : Turns (.bufferedInput r) (.bufferedInput r')
  | streamingInput (r r' : StreamingInput) : Turns (.streamingInput r) (.streamingInput r')
  | put {work : PendingWrite} {w w' : StreamingOutput} {n : UInt32} (h : StreamingOutput.put work w = .ok n w') :
      Turns (.streamingOutput w) (.streamingOutput w')
  | putFails {work : PendingWrite} {w w' : StreamingOutput} {e : StreamError}
      (h : StreamingOutput.put work w = .error e w') : Turns (.streamingOutput w) (.streamingOutput w')

def Descriptor.after {α : Type} (act : EStateM StreamError Descriptor α) (d : Descriptor) : Descriptor :=
  match act d with
  | .ok _ d => d
  | .error _ d => d

namespace Descriptor

variable {α : Type} {act : EStateM StreamError Descriptor α} {d d' : Descriptor} {e : StreamError}

theorem after_of_ok {a : α} (h : act d = .ok a d') : after act d = d' := by rw [after, h]

theorem after_of_error (h : act d = .error e d') : after act d = d' := by rw [after, h]

theorem turns_readv (lens : List UInt32) (d : Descriptor) : d.Turns (after (readv lens) d) := by
  cases d with
  | null | bufferedOutput | streamingOutput => exact .same _
  | bufferedInput r => exact .bufferedInput _ _
  | streamingInput r =>
    simp only [after, readv]
    cases lens.all (· == 0) <;> exact .same _

theorem turns_finishRead (work : PendingRead) (d : Descriptor) : d.Turns (after (finishRead work) d) := by
  cases d with
  | null | bufferedInput | bufferedOutput | streamingOutput => exact .same _
  | streamingInput r =>
    simp only [after, finishRead]
    cases StreamingInput.fill work r <;> exact .streamingInput _ _

theorem turns_finishWrite (work : PendingWrite) (d : Descriptor) : d.Turns (after (finishWrite work) d) := by
  cases d with
  | null | bufferedInput | streamingInput | bufferedOutput => exact .same _
  | streamingOutput w =>
    simp only [after, finishWrite]
    cases hput : StreamingOutput.put work w with
    | ok n w' => exact .put hput
    | error e w' => exact .putFails hput

theorem turns_preRun (d : Descriptor) : d.Turns (after preRun d) := by
  cases d with
  | null | streamingInput | bufferedOutput | streamingOutput => exact .same _
  | bufferedInput r =>
    simp only [after, preRun]
    cases BufferedInput.drain r <;> exact .bufferedInput _ _

theorem Moves.turns (h : d.Moves d') : d.Turns d' := by
  cases h with
  | readv hr => exact after_of_ok hr ▸ turns_readv _ d
  | finishRead hr => exact after_of_ok hr ▸ turns_finishRead _ d
  | finishWrite hr => exact after_of_ok hr ▸ turns_finishWrite _ d
  | preRun hr => exact after_of_ok hr ▸ turns_preRun d

theorem Breaks.turns (h : d.Breaks e d') : d.Turns d' := by
  cases h with
  | readv hr => exact after_of_error hr ▸ turns_readv _ d
  | finishRead hr => exact after_of_error hr ▸ turns_finishRead _ d
  | finishWrite hr => exact after_of_error hr ▸ turns_finishWrite _ d
  | preRun hr => exact after_of_error hr ▸ turns_preRun d

end Descriptor

def Descriptor.outcome (act : EStateM StreamError Descriptor Unit) (d : Descriptor) : Except StreamError Unit :=
  match act d with
  | .ok _ _ => .ok ()
  | .error e _ => .error e

def Descriptor.cleaned (d : Descriptor) : Descriptor := after postRun (after close d)

/-- Closing and delivering do not fail. -/
def Descriptor.CleansUp (d : Descriptor) : Prop := outcome close d = .ok () ∧ outcome postRun (after close d) = .ok ()

end GuestHost
