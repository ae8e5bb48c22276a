/-
  GuestHost.Proofs.Stream.Faultless — sinks that never fail, and what a run makes of the descriptors before them.

  As long as the guest runs, an output is open: a buffered one keeps all that was offered to it, a streaming one
  has a sink that works (`Descriptor.Ready`). From there it can be cleaned up. Then its sink has taken what was
  kept or taken before, and was shut down once, after the last of it.

  Proved:
  - `Sink.writeAll_ok`, `StreamingOutput.put_ok`: what is written is taken as a whole.
  - `Descriptor.Ready.turns`, `Descriptor.Ready.writev`: descriptors stay ready.
  - `Descriptor.Ready.cleansUp`, `Descriptor.Ready.delivered_buffered`, `Descriptor.Ready.delivered_streaming`:
    what cleaning up makes of them.
-/

import GuestHost.Proofs.Stream.Taken

namespace GuestHost

open Exec

/-! ## Sinks that never fail -/

/-- No operation on the sink fails. A write may take less than it is given, and each may have to wait. -/
structure SinkPlan.Faultless (p : SinkPlan) : Prop where
  failWrite : p.failWrite = none
  zeroWrite : p.zeroWrite = none
  maxWrite : p.maxWrite ≠ some 0
  failFlush : p.failFlush = false
  failShutDown : p.failShutDown = false

namespace Sink

structure Working (p : SinkPlan) (s : Sink) : Prop where
  plan : s.plan = p
  notShutDown : .shutDown ∉ s.events.toList

variable {p : SinkPlan} {s : Sink}

theorem Working.push (h : Working p s) {e : SinkEvent} (he : e ≠ .shutDown) (writes : Nat) :
    Working p { s with writes, events := s.events.push e } := by
  refine ⟨h.plan, ?_⟩
  simp only [Array.toList_push, List.mem_append, List.mem_singleton, not_or]
  exact ⟨h.notShutDown, he.symm⟩

theorem write_ok (hp : p.Faultless) (h : Working p s) (b : UInt8) (bs : List UInt8) :
    ∃ n s', write (b :: bs) s = .ok (n + 1) s' ∧ Working p s' := by
  obtain rfl := h.plan
  have hmax := hp.maxWrite
  simp only [write, hp.failWrite, hp.zeroWrite, reduceCtorEq, if_false]
  cases hm : s.plan.maxWrite with
  | none => exact ⟨bs.length, _, rfl, h.push (by simp) _⟩
  | some most =>
    rw [hm] at hmax
    cases most with
    | zero => exact absurd rfl hmax
    | succ k => exact ⟨(bs.take k).length, _, rfl, h.push (by simp) _⟩

theorem writeUpTo_ok (hp : p.Faultless) (fuel : Nat) {bs : List UInt8} (hlen : bs.length ≤ fuel) (h : Working p s) :
    ∃ s', writeUpTo fuel bs s = .ok () s' ∧ Working p s' := by
  induction fuel generalizing s bs with
  | zero =>
    obtain rfl := List.length_eq_zero_iff.1 (Nat.le_zero.1 hlen)
    exact ⟨s, rfl, h⟩
  | succ fuel ih =>
    cases bs with
    | nil => exact ⟨s, rfl, h⟩
    | cons b bs =>
      obtain ⟨n, s₁, hw, h₁⟩ := write_ok hp h b bs
      have hrest : ((b :: bs).drop (n + 1)).length ≤ fuel := by simp at hlen ⊢; omega
      obtain ⟨s', hrest, h'⟩ := ih hrest h₁
      exact ⟨s', (bind_of_ok hw).trans hrest, h'⟩

theorem writeAll_ok (hp : p.Faultless) (h : Working p s) (bs : List UInt8) :
    ∃ s', writeAll bs s = .ok () s' ∧ Working p s' ∧ s'.taken = s.taken ++ bs := by
  obtain ⟨s', hw, h'⟩ := writeUpTo_ok hp bs.length (Nat.le_refl _) h
  exact ⟨s', hw, h', taken_writeAll hw⟩

theorem writeEach_ok (hp : p.Faultless) (h : Working p s) (chunks : List (List UInt8)) :
    ∃ s', chunks.forM writeAll s = .ok () s' ∧ Working p s' := by
  induction chunks generalizing s with
  | nil => exact ⟨s, rfl, h⟩
  | cons c chunks ih =>
    obtain ⟨s₁, hw, h₁, -⟩ := writeAll_ok hp h c
    obtain ⟨s', hrest, h'⟩ := ih h₁
    exact ⟨s', (bind_of_ok hw).trans hrest, h'⟩

end Sink

/-- A pending write can be finished. -/
theorem StreamingOutput.put_ok {p : SinkPlan} {s : Sink} (hp : p.Faultless) (h : s.Working p)
    (chunks : List (List UInt8)) :
    ∃ s', put chunks ⟨s, false⟩ = .ok (chunks.foldl (fun total c => addCount total c.length) 0) ⟨s', false⟩ ∧
      s'.Working p ∧ s'.taken = s.taken ++ chunks.flatten := by
  obtain ⟨s₁, hw, h₁⟩ := Sink.writeEach_ok hp h chunks
  let s₂ : Sink := { s₁ with events := s₁.events.push .flushed }
  have hflush : Sink.flush s₁ = .ok () s₂ := by simp [Sink.flush, h₁.plan, hp.failFlush, s₂]
  have hput : put chunks ⟨s, false⟩ = .ok (chunks.foldl (fun total c => addCount total c.length) 0) ⟨s₂, false⟩ := by
    simp only [put, Bool.false_eq_true, if_false, bind_of_ok hw, hflush]
  exact ⟨s₂, hput, h₁.push (by simp) _, StreamingOutput.taken_put hput⟩

/-- What happened to a sink ends with its being shut down, for the first time. -/
def ShutDownLast (events : List SinkEvent) : Prop := ∃ earlier, events = earlier ++ [.shutDown] ∧ .shutDown ∉ earlier

theorem Sink.Working.shutDown {p : SinkPlan} {s : Sink} (hp : p.Faultless) (h : s.Working p) :
    ∃ s', Sink.shutDown s = .ok () s' ∧ s'.taken = s.taken ∧ ShutDownLast s'.events.toList := by
  refine ⟨{ s with events := s.events.push .shutDown }, ?_, ?_, s.events.toList, by simp, h.notShutDown⟩
  · simp [Sink.shutDown, h.plan, hp.failShutDown]
  · exact (Sink.taken_push s _).trans (List.append_nil _)

/-! ## Cleaning up -/

namespace Descriptor

section

variable {p : SinkPlan}

/-- A buffered output is delivered into a fresh sink. -/
theorem cleaned_bufferedOutput (hp : p.Faultless) (bs : List UInt8) :
    (bufferedOutput ⟨⟨p, 0, #[]⟩, bs, false⟩).CleansUp ∧
      ∃ s, cleaned (.bufferedOutput ⟨⟨p, 0, #[]⟩, bs, false⟩) = .bufferedOutput ⟨s, bs, true⟩ ∧ s.taken = bs ∧
        ShutDownLast s.events.toList := by
  obtain ⟨s₁, hwrite, h₁, htaken₁⟩ := Sink.writeAll_ok hp (s := ⟨p, 0, #[]⟩) ⟨rfl, by simp⟩ bs
  obtain ⟨s₂, hshut, htaken₂, hlast⟩ := h₁.shutDown hp
  have hpost : postRun (.bufferedOutput ⟨⟨p, 0, #[]⟩, bs, false⟩) = .ok () (.bufferedOutput ⟨s₂, bs, true⟩) := by
    simp only [postRun, BufferedOutput.deliver, bind_of_ok hwrite, hshut, Bool.false_eq_true, if_false, within]
  refine ⟨⟨rfl, by simp only [outcome, after, close, hpost]⟩, s₂, ?_, ?_, hlast⟩
  · show after postRun _ = _
    simp only [after, close, hpost]
  · rw [htaken₂, htaken₁]
    rfl

/-- A streaming output has nothing to deliver. -/
theorem cleaned_streamingOutput (hp : p.Faultless) {sink : Sink} (hsink : sink.Working p) :
    (streamingOutput ⟨sink, false⟩).CleansUp ∧
      ∃ s, cleaned (.streamingOutput ⟨sink, false⟩) = .streamingOutput ⟨s, true⟩ ∧ s.taken = sink.taken ∧
        ShutDownLast s.events.toList := by
  obtain ⟨s, hshut, htaken, hlast⟩ := hsink.shutDown hp
  have hclose : close (.streamingOutput ⟨sink, false⟩) = .ok () (.streamingOutput ⟨s, true⟩) := by
    simp only [close, StreamingOutput.close, hshut, Bool.false_eq_true, if_false, within]
  refine ⟨⟨by simp only [outcome, hclose], ?_⟩, s, ?_, htaken, hlast⟩
  · simp only [outcome, after, hclose]
    rfl
  · simp only [cleaned, after, hclose]
    rfl

end

/-- A descriptor of a running guest, streaming or not, with the plan of its sink, if it has one. What was offered to
a buffered output is kept by it. -/
inductive Ready (offered : List UInt8) : Bool → Option SinkPlan → Descriptor → Prop
  | null (streaming : Bool) : Ready offered streaming none .null
  | bufferedInput (streaming : Bool) (r : BufferedInput) : Ready offered streaming none (.bufferedInput r)
  | streamingInput (streaming : Bool) (r : StreamingInput) : Ready offered streaming none (.streamingInput r)
  | bufferedOutput {p : SinkPlan} (hp : p.Faultless) :
      Ready offered false (some p) (.bufferedOutput ⟨⟨p, 0, #[]⟩, offered, false⟩)
  | streamingOutput {p : SinkPlan} {sink : Sink} (hp : p.Faultless) (hsink : sink.Working p) :
      Ready offered true (some p) (.streamingOutput ⟨sink, false⟩)

theorem ready_ofSource (source : Option Source) (streaming : Bool) :
    Ready [] streaming none (ofSource source streaming) := by
  cases source with
  | none => exact .null _
  | some s =>
    cases streaming with
    | true => exact .streamingInput _ _
    | false => exact .bufferedInput _ _

theorem ready_ofSink {plan : Option SinkPlan} (h : ∀ p, plan = some p → p.Faultless) (streaming : Bool) :
    Ready [] streaming plan (ofSink plan streaming) := by
  cases plan with
  | none => exact .null _
  | some p =>
    cases streaming with
    | true => exact @Ready.streamingOutput [] p ⟨p, 0, #[]⟩ (h p rfl) ⟨rfl, by simp⟩
    | false => exact .bufferedOutput (h p rfl)

namespace Ready

variable {offered : List UInt8} {streaming : Bool} {plan : Option SinkPlan} {p : SinkPlan} {d d' : Descriptor}

/-- What is done to a descriptor other than writing leaves it ready. -/
theorem turns (h : Ready offered streaming plan d) (hturns : d.Turns d') : Ready offered streaming plan d' := by
  cases hturns with
  | same => exact h
  | bufferedInput => cases h; exact .bufferedInput _ _
  | streamingInput => cases h; exact .streamingInput _ _
  | @put work _ _ _ hput =>
    cases h with
    | streamingOutput hp hsink =>
      obtain ⟨sink', hok, hsink', -⟩ := StreamingOutput.put_ok hp hsink work
      cases hput.symm.trans hok
      exact .streamingOutput hp hsink'
  | @putFails work _ _ _ hput =>
    cases h with
    | streamingOutput hp hsink =>
      obtain ⟨sink', hok, -⟩ := StreamingOutput.put_ok hp hsink work
      cases hput.symm.trans hok

/-- A write that does not fail leaves it ready, with the bytes of the views besides. -/
theorem writev {views : List View} {t : Transfer UInt32 PendingWrite} (h : Ready offered streaming plan d)
    (hw : d.writev views = .ok t d') : Ready (offered ++ views.flatMap View.toList) streaming plan d' := by
  cases h with
  | null => cases hw; exact .null _
  | bufferedInput | streamingInput => cases hw
  | bufferedOutput hp => cases hw; exact .bufferedOutput hp
  | streamingOutput hp hsink =>
    simp only [Descriptor.writev] at hw
    split at hw <;> cases hw <;> exact .streamingOutput hp hsink

theorem cleansUp (h : Ready offered streaming plan d) : d.CleansUp := by
  cases h with
  | null | bufferedInput | streamingInput => exact ⟨rfl, rfl⟩
  | bufferedOutput hp => exact (cleaned_bufferedOutput hp offered).1
  | streamingOutput hp hsink => exact (cleaned_streamingOutput hp hsink).1

/-- A buffered output delivers all that was offered to it. -/
theorem delivered_buffered (h : Ready offered false (some p) d) :
    SinkEvent.taken d.cleaned.events = offered ∧ ShutDownLast d.cleaned.events := by
  cases h with
  | bufferedOutput hp =>
    obtain ⟨-, s, hcleaned, htaken, hlast⟩ := cleaned_bufferedOutput hp offered
    rw [hcleaned]
    exact ⟨htaken, hlast⟩

/-- A streaming output has delivered what its sink has taken. -/
theorem delivered_streaming (h : Ready offered true (some p) d) :
    ∃ w, d = .streamingOutput w ∧ SinkEvent.taken d.cleaned.events = w.sink.taken ∧
      ShutDownLast d.cleaned.events := by
  cases h with
  | @streamingOutput _ sink hp hsink =>
    obtain ⟨-, s, hcleaned, htaken, hlast⟩ := cleaned_streamingOutput hp hsink
    rw [hcleaned]
    exact ⟨_, rfl, htaken, hlast⟩

end Ready

end Descriptor

end GuestHost
