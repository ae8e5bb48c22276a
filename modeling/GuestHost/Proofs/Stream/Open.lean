/-
  GuestHost.Proofs.Stream.Open — outputs of a running guest, whatever their sinks do.

  A sink may refuse any write, take nothing of it, or fail to flush. Until its output is cleaned up it is not
  shut down (`Sink.Grows`), and a buffered output does not touch it at all: it keeps every byte that was offered
  (`Descriptor.Open`), also when an action on the descriptor failed.

  Cleaning up shuts the sink of a streaming output down. A buffered output first writes what it kept, and only
  when all of it was taken is its sink shut down (`Sink.Delivery`).

  Proved:
  - `Sink.takes_writeEach`, `Sink.writeAll_cases`: what a sink takes of the bytes that are written to it (`Sink.Takes`),
    and what is seen of a failure.
  - `StreamingOutput.put_cases`: what comes of a pending write.
  - `Descriptor.Open.turns`, `Descriptor.Open.writev`: descriptors stay open.
  - `Descriptor.Open.delivery`, `Descriptor.Open.shutDownOnce`: what cleaning up makes of them.
-/

import GuestHost.Proofs.Stream.Taken

namespace GuestHost

open Exec

namespace SinkEvent

def isShutDown : SinkEvent → Bool
  | shutDown | shutDownFailed => true
  | wrote _ | writeFailed | flushed | flushFailed => false

/-- Whether the sink failed, or took nothing of a write. -/
def isFailure : SinkEvent → Bool
  | wrote bs => bs.isEmpty
  | writeFailed | flushFailed | shutDownFailed => true
  | flushed | shutDown => false

theorem taken_append (events more : List SinkEvent) : taken (events ++ more) = taken events ++ taken more :=
  List.flatMap_append

theorem taken_snoc {events : List SinkEvent} {last : SinkEvent} (h : last.bytes = []) :
    taken (events ++ [last]) = taken events := by
  rw [taken_append]
  simp [taken, h]

theorem taken_writes (pieces : List (List UInt8)) : taken (pieces.map wrote) = pieces.flatten := by
  rw [taken, List.flatMap_map]
  exact List.flatMap_id'

end SinkEvent

/-- The sink was shut down once, and this was the last thing that happened to it. -/
def ShutDownOnce (events : List SinkEvent) : Prop :=
  ∃ earlier last, events = earlier ++ [last] ∧ last.isShutDown = true ∧ ∀ e ∈ earlier, e.isShutDown = false

def NeverShutDown (events : List SinkEvent) : Prop := ∀ e ∈ events, e.isShutDown = false

theorem ShutDownOnce.not_never {events : List SinkEvent} (h : ShutDownOnce events) : ¬ NeverShutDown events := by
  obtain ⟨earlier, last, rfl, hlast, -⟩ := h
  intro hnever
  rw [hnever last (by simp)] at hlast
  cases hlast

/-! ## Sinks that may fail -/

namespace Sink

/-- These events were added to those of `s`, and the sink was not shut down by them. -/
structure Grows (s : Sink) (added : List SinkEvent) (s' : Sink) : Prop where
  plan : s'.plan = s.plan
  events : s'.events.toList = s.events.toList ++ added
  unclosed : NeverShutDown added

namespace Grows

variable {s s₁ s' : Sink} {added more : List SinkEvent}

theorem refl (s : Sink) : s.Grows [] s := ⟨rfl, by simp, nofun⟩

theorem trans (h : s.Grows added s₁) (h' : s₁.Grows more s') : s.Grows (added ++ more) s' where
  plan := h'.plan.trans h.plan
  events := by rw [h'.events, h.events, List.append_assoc]
  unclosed := by
    intro e he
    rcases List.mem_append.1 he with he | he
    · exact h.unclosed e he
    · exact h'.unclosed e he

theorem push (s : Sink) (writes : Nat) {e : SinkEvent} (he : e.isShutDown = false) :
    s.Grows [e] { s with writes, events := s.events.push e } where
  plan := rfl
  events := by simp
  unclosed := by simpa [NeverShutDown] using he

end Grows

/-- A write is refused, or it takes a beginning of the bytes. -/
theorem write_cases (bs : List UInt8) (s : Sink) :
    (∃ e s', write bs s = .error e s' ∧ s.Grows [.writeFailed] s') ∨
      ∃ n s', write bs s = .ok n s' ∧ s.Grows [.wrote (bs.take n)] s' := by
  simp only [write]
  split
  · exact .inl ⟨_, _, rfl, .push s _ rfl⟩
  · split
    · exact .inr ⟨_, _, rfl, .push s _ rfl⟩
    · refine .inr ⟨_, _, rfl, ?_⟩
      cases s.plan.maxWrite with
      | none =>
        rw [List.take_length]
        exact .push s _ rfl
      | some most =>
        have hsame : bs.take (bs.take most).length = bs.take most := List.take_eq_take_iff.2 (by simp)
        rw [hsame]
        exact .push s _ rfl

/-- What comes of handing bytes to a sink. It takes them all, in pieces, or it takes pieces of a beginning, and then
something fails. -/
inductive Takes (s : Sink) (bs : List UInt8) : EStateM.Result StreamError Sink Unit → Prop
  | whole {s' : Sink} (pieces : List (List UInt8)) (h : s.Grows (pieces.map .wrote) s') (hsome : [] ∉ pieces)
      (hbytes : pieces.flatten = bs) : Takes s bs (.ok () s')
  | part {e : StreamError} {s' : Sink} (pieces : List (List UInt8)) {last : SinkEvent}
      (h : s.Grows (pieces.map .wrote ++ [last]) s') (hsome : [] ∉ pieces) (hbytes : pieces.flatten <+: bs)
      (hfails : last.isFailure = true) (hnone : last.bytes = []) : Takes s bs (.error e s')

namespace Takes

variable {s s₁ s' : Sink} {bs more : List UInt8} {e : StreamError} {last : SinkEvent}

theorem nothing (s : Sink) : s.Takes [] (.ok () s) := .whole [] (.refl s) List.not_mem_nil rfl

theorem fails (h : s.Grows [last] s') (hfails : last.isFailure = true) (hnone : last.bytes = []) :
    s.Takes bs (.error e s') := .part [] h List.not_mem_nil List.nil_prefix hfails hnone

theorem trans {r : EStateM.Result StreamError Sink Unit} (h : s.Takes bs (.ok () s₁)) (h' : s₁.Takes more r) :
    s.Takes (bs ++ more) r := by
  cases h with
  | whole pieces hgrows hsome hbytes =>
    cases h' with
    | whole pieces' hgrows' hsome' hbytes' =>
      refine .whole (pieces ++ pieces') ?_ (by simp [hsome, hsome']) ?_
      · rw [List.map_append]
        exact hgrows.trans hgrows'
      · rw [List.flatten_append, hbytes, hbytes']
    | part pieces' hgrows' hsome' hbytes' hfails hnone =>
      refine .part (pieces ++ pieces') ?_ (by simp [hsome, hsome']) ?_ hfails hnone
      · rw [List.map_append, List.append_assoc]
        exact hgrows.trans hgrows'
      · rw [List.flatten_append, hbytes]
        exact (List.prefix_append_right_inj bs).2 hbytes'

/-- What was begun and failed was only part of more. -/
theorem fails_append (h : s.Takes bs (.error e s')) : s.Takes (bs ++ more) (.error e s') := by
  cases h with
  | part pieces hgrows hsome hbytes hfails hnone =>
    exact .part pieces hgrows hsome (hbytes.trans (List.prefix_append bs more)) hfails hnone

end Takes

theorem takes_writeUpTo (fuel : Nat) {bs : List UInt8} (hlen : bs.length ≤ fuel) (s : Sink) :
    s.Takes bs (writeUpTo fuel bs s) := by
  induction fuel generalizing s bs with
  | zero =>
    obtain rfl := List.length_eq_zero_iff.1 (Nat.le_zero.1 hlen)
    exact .nothing s
  | succ fuel ih =>
    cases bs with
    | nil => exact .nothing s
    | cons b bs =>
      show s.Takes (b :: bs) ((write (b :: bs) >>= _) s)
      rcases write_cases (b :: bs) s with ⟨e, s₁, hw, hgrows⟩ | ⟨n, s₁, hw, hgrows⟩
      · rw [bind_of_error hw]
        exact .fails hgrows rfl rfl
      · rw [bind_of_ok hw]
        cases n with
        | zero => exact .fails hgrows rfl rfl
        | succ n =>
          have hlen' : ((b :: bs).drop (n + 1)).length ≤ fuel := by simp at hlen ⊢; omega
          have hfirst : s.Takes ((b :: bs).take (n + 1)) (.ok () s₁) :=
            .whole [(b :: bs).take (n + 1)] hgrows (by simp) (List.append_nil _)
          have hall := hfirst.trans (ih hlen' s₁)
          rwa [List.take_append_drop] at hall

theorem takes_writeAll (bs : List UInt8) (s : Sink) : s.Takes bs (writeAll bs s) :=
  takes_writeUpTo _ (Nat.le_refl _) s

theorem takes_writeEach (chunks : List (List UInt8)) (s : Sink) : s.Takes chunks.flatten (chunks.forM writeAll s) := by
  induction chunks generalizing s with
  | nil => exact .nothing s
  | cons c chunks ih =>
    have hfirst := takes_writeAll c s
    simp only [List.forM_eq_forM, List.forM_cons]
    cases hr : writeAll c s with
    | error e s₁ =>
      rw [hr] at hfirst
      rw [bind_of_error hr]
      exact hfirst.fails_append
    | ok _ s₁ =>
      rw [hr] at hfirst
      rw [bind_of_ok hr]
      exact hfirst.trans (ih s₁)

/-- Writing everything hands all the bytes over, or fails, which is seen, and has handed a beginning over. -/
theorem writeAll_cases (bs : List UInt8) (s : Sink) :
    (∃ s' added, writeAll bs s = .ok () s' ∧ s.Grows added s' ∧ SinkEvent.taken added = bs) ∨
      ∃ e s' added, writeAll bs s = .error e s' ∧ s.Grows added s' ∧ SinkEvent.taken added <+: bs ∧
        ∃ e ∈ added, e.isFailure = true := by
  have htakes := takes_writeAll bs s
  cases hr : writeAll bs s with
  | ok _ s' =>
    rw [hr] at htakes
    cases htakes with
    | whole pieces h hsome hbytes => exact .inl ⟨s', _, rfl, h, by rw [SinkEvent.taken_writes, hbytes]⟩
  | error e s' =>
    rw [hr] at htakes
    cases htakes with
    | @part _ _ pieces last h hsome hbytes hfails hnone =>
      refine .inr ⟨e, s', _, rfl, h, ?_, last, List.mem_append_right _ (List.mem_singleton_self _), hfails⟩
      rwa [SinkEvent.taken_snoc hnone, SinkEvent.taken_writes]

def after {α : Type} : EStateM.Result StreamError Sink α → Sink
  | .ok _ s => s
  | .error _ s => s

/-- Shutting down is the last thing that happens to a sink, also if it fails. -/
theorem shutDown_cases (s : Sink) :
    ∃ last, last.isShutDown = true ∧ last.bytes = [] ∧
      (after (shutDown s)).events.toList = s.events.toList ++ [last] := by
  unfold shutDown
  split
  · exact ⟨.shutDownFailed, rfl, rfl, by simp [after]⟩
  · exact ⟨.shutDown, rfl, rfl, by simp [after]⟩

/-- What a sink that goes by the plan has seen when bytes were delivered to it in one piece. -/
inductive Delivery (p : SinkPlan) (bs : List UInt8) : List SinkEvent → Prop
  | whole {s : Sink} {earlier : List SinkEvent} {last : SinkEvent} : writeAll bs ⟨p, 0, #[]⟩ = .ok () s →
      SinkEvent.taken earlier = bs → NeverShutDown earlier → last.isShutDown = true → last.bytes = [] →
      Delivery p bs (earlier ++ [last])
  | part {e : StreamError} {s : Sink} {events : List SinkEvent} : writeAll bs ⟨p, 0, #[]⟩ = .error e s →
      SinkEvent.taken events <+: bs → NeverShutDown events → (∃ e ∈ events, e.isFailure = true) →
      Delivery p bs events

namespace Delivery

variable {p : SinkPlan} {bs : List UInt8} {events : List SinkEvent}

theorem taken_prefix (h : Delivery p bs events) : SinkEvent.taken events <+: bs := by
  cases h with
  | whole _ htaken _ _ hlast => exact ⟨[], by rw [SinkEvent.taken_snoc hlast, htaken, List.append_nil]⟩
  | part _ htaken _ _ => exact htaken

/-- If the sink does not refuse any of it, it has taken it all. -/
theorem taken_eq_of_ok (h : Delivery p bs events) {s : Sink} (hr : writeAll bs ⟨p, 0, #[]⟩ = .ok () s) :
    SinkEvent.taken events = bs := by
  cases h with
  | whole _ htaken _ _ hlast => rw [SinkEvent.taken_snoc hlast, htaken]
  | part hr' _ _ _ =>
    rw [hr] at hr'
    cases hr'

/-- So it has if no failure of it was seen. -/
theorem taken_eq (h : Delivery p bs events) (hok : ∀ e ∈ events, e.isFailure = false) :
    SinkEvent.taken events = bs := by
  cases h with
  | whole _ htaken _ _ hlast => rw [SinkEvent.taken_snoc hlast, htaken]
  | part _ _ _ hfails =>
    obtain ⟨e, he, hfails⟩ := hfails
    rw [hok e he] at hfails
    cases hfails

theorem shutDownOnce (h : Delivery p bs events) {s : Sink} (hr : writeAll bs ⟨p, 0, #[]⟩ = .ok () s) :
    ShutDownOnce events := by
  cases h with
  | whole _ _ hnever hlast _ => exact ⟨_, _, rfl, hlast, hnever⟩
  | part hr' _ _ _ =>
    rw [hr] at hr'
    cases hr'

theorem neverShutDown (h : Delivery p bs events) {e : StreamError} {s : Sink}
    (hr : writeAll bs ⟨p, 0, #[]⟩ = .error e s) : NeverShutDown events := by
  cases h with
  | whole hr' _ _ _ _ =>
    rw [hr] at hr'
    cases hr'
  | part _ _ hnever _ => exact hnever

end Delivery

end Sink

/-- A pending write hands its chunks over and flushes the sink, or fails, with a beginning of the chunks handed over.
The output is not closed by it. -/
theorem StreamingOutput.put_cases (chunks : List (List UInt8)) (s : Sink) :
    ∃ (s' : Sink) (pieces : List (List UInt8)), [] ∉ pieces ∧
      ((put chunks ⟨s, false⟩ = .ok (chunks.foldl (fun total c => addCount total c.length) 0) ⟨s', false⟩ ∧
          s.Grows (pieces.map .wrote ++ [.flushed]) s' ∧ pieces.flatten = chunks.flatten) ∨
        ∃ e last, put chunks ⟨s, false⟩ = .error e ⟨s', false⟩ ∧ s.Grows (pieces.map .wrote ++ [last]) s' ∧
          pieces.flatten <+: chunks.flatten ∧ last.isFailure = true ∧ last.bytes = []) := by
  have htakes := Sink.takes_writeEach chunks s
  simp only [put, Bool.false_eq_true, if_false]
  cases hr : chunks.forM Sink.writeAll s with
  | error e s₁ =>
    rw [hr] at htakes
    cases htakes with
    | @part _ _ pieces last h hsome hbytes hfails hnone =>
      exact ⟨s₁, pieces, hsome, .inr ⟨e, last, by rw [bind_of_error hr], h, hbytes, hfails, hnone⟩⟩
  | ok _ s₁ =>
    rw [hr] at htakes
    rw [bind_of_ok hr, Sink.flush]
    cases htakes with
    | whole pieces h hsome hbytes =>
      cases s₁.plan.failFlush with
      | true =>
        have hgrows := h.trans (.push s₁ s₁.writes (e := .flushFailed) rfl)
        exact ⟨_, pieces, hsome, .inr ⟨_, .flushFailed, rfl, hgrows, ⟨[], by rw [hbytes, List.append_nil]⟩, rfl, rfl⟩⟩
      | false =>
        have hgrows := h.trans (.push s₁ s₁.writes (e := .flushed) rfl)
        exact ⟨_, pieces, hsome, .inl ⟨rfl, hgrows, hbytes⟩⟩

/-- Whatever comes of a pending write, the sink is not shut down by it, and the output is not closed. -/
theorem StreamingOutput.put_grows (chunks : List (List UInt8)) (s : Sink) :
    ∃ s' added, s.Grows added s' ∧
      ((∃ n, put chunks ⟨s, false⟩ = .ok n ⟨s', false⟩) ∨ ∃ e, put chunks ⟨s, false⟩ = .error e ⟨s', false⟩) := by
  obtain ⟨s', pieces, -, ⟨hput, hgrows, -⟩ | ⟨e, last, hput, hgrows, -⟩⟩ := put_cases chunks s
  · exact ⟨s', _, hgrows, .inl ⟨_, hput⟩⟩
  · exact ⟨s', _, hgrows, .inr ⟨e, hput⟩⟩

/-! ## Descriptors of a running guest -/

namespace Descriptor

/-- A descriptor of a running guest, streaming or not, with the plan of its sink, if it has one. What was offered to
a buffered output is kept by it, and its sink was not touched. -/
inductive Open (offered : List UInt8) : Bool → Option SinkPlan → Descriptor → Prop
  | null (streaming : Bool) : Open offered streaming none .null
  | bufferedInput (streaming : Bool) (r : BufferedInput) : Open offered streaming none (.bufferedInput r)
  | streamingInput (streaming : Bool) (r : StreamingInput) : Open offered streaming none (.streamingInput r)
  | bufferedOutput (p : SinkPlan) : Open offered false (some p) (.bufferedOutput ⟨⟨p, 0, #[]⟩, offered, false⟩)
  | streamingOutput {p : SinkPlan} {sink : Sink} {added : List SinkEvent} (h : Sink.Grows ⟨p, 0, #[]⟩ added sink) :
      Open offered true (some p) (.streamingOutput ⟨sink, false⟩)

theorem open_ofSource (source : Option Source) (streaming : Bool) :
    Open [] streaming none (ofSource source streaming) := by
  cases source with
  | none => exact .null _
  | some s =>
    cases streaming with
    | true => exact .streamingInput _ _
    | false => exact .bufferedInput _ _

theorem open_ofSink (plan : Option SinkPlan) (streaming : Bool) : Open [] streaming plan (ofSink plan streaming) := by
  cases plan with
  | none => exact .null _
  | some p =>
    cases streaming with
    | true => exact .streamingOutput (.refl _)
    | false => exact .bufferedOutput p

namespace Open

variable {offered : List UInt8} {streaming : Bool} {plan : Option SinkPlan} {p : SinkPlan} {d d' : Descriptor}

/-- What is done to a descriptor other than writing leaves it open, also if it fails. -/
theorem turns (h : Open offered streaming plan d) (hturns : d.Turns d') : Open offered streaming plan d' := by
  cases hturns with
  | same => exact h
  | bufferedInput => cases h; exact .bufferedInput _ _
  | streamingInput => cases h; exact .streamingInput _ _
  | @put work _ _ _ hput =>
    cases h with
    | @streamingOutput _ sink _ hgrows =>
      obtain ⟨sink', added, hmore, ⟨n, hok⟩ | ⟨e, hfails⟩⟩ := StreamingOutput.put_grows work sink
      · cases hput.symm.trans hok
        exact .streamingOutput (hgrows.trans hmore)
      · cases hput.symm.trans hfails
  | @putFails work _ _ _ hput =>
    cases h with
    | @streamingOutput _ sink _ hgrows =>
      obtain ⟨sink', added, hmore, ⟨n, hok⟩ | ⟨e, hfails⟩⟩ := StreamingOutput.put_grows work sink
      · cases hput.symm.trans hok
      · cases hput.symm.trans hfails
        exact .streamingOutput (hgrows.trans hmore)

/-- A write leaves it open, with the bytes of the views besides. -/
theorem writev {views : List View} {t : Transfer UInt32 PendingWrite} (h : Open offered streaming plan d)
    (hw : d.writev views = .ok t d') : Open (offered ++ views.flatMap View.toList) streaming plan d' := by
  cases h with
  | null => cases hw; exact .null _
  | bufferedInput | streamingInput => cases hw
  | bufferedOutput p => cases hw; exact .bufferedOutput p
  | streamingOutput hgrows =>
    simp only [Descriptor.writev] at hw
    split at hw <;> cases hw <;> exact .streamingOutput hgrows

/-- Only an input refuses a write, and it has no plan. -/
theorem writev_refused {e : StreamError} {views : List View} {offered' : List UInt8}
    (h : Open offered streaming plan d) (hw : d.writev views = .error e d') : Open offered' streaming plan d' := by
  cases h with
  | bufferedInput => cases hw; exact .bufferedInput _ _
  | streamingInput => cases hw; exact .streamingInput _ _
  | null | bufferedOutput => cases hw
  | streamingOutput =>
    simp only [Descriptor.writev] at hw
    split at hw <;> cases hw

/-- What is kept back is what was offered to a buffered output. -/
theorem buffered (h : Open offered streaming plan d) :
    d.buffered = if streaming = false ∧ plan.isSome then offered else [] := by
  cases h with
  | bufferedOutput => rfl
  | null streaming => cases streaming <;> rfl
  | bufferedInput streaming => cases streaming <;> rfl
  | streamingInput streaming => cases streaming <;> rfl
  | streamingOutput => rfl

/-- Nothing happened to the sink of a buffered output. -/
theorem untouched (h : Open offered false (some p) d) : d.events = [] := by
  cases h
  rfl

/-- A buffered output delivers what was offered to it. -/
theorem delivery (h : Open offered false (some p) d) : Sink.Delivery p offered d.cleaned.events := by
  cases h
  simp only [cleaned, after, close, postRun, BufferedOutput.deliver, Bool.false_eq_true, if_false, bind_apply]
  rcases Sink.writeAll_cases offered ⟨p, 0, #[]⟩ with
    ⟨s₁, added, hw, hgrows, htaken⟩ | ⟨e, s₁, added, hw, hgrows, htaken, hfails⟩
  · obtain ⟨last, hlast, hbytes, hevents⟩ := Sink.shutDown_cases s₁
    have hsofar : s₁.events.toList = added := by simpa using hgrows.events
    have hdelivery : Sink.Delivery p offered (Sink.after (Sink.shutDown s₁)).events.toList := by
      rw [hevents, hsofar]
      exact .whole hw htaken hgrows.unclosed hlast hbytes
    rw [hw]
    dsimp only
    cases hs : Sink.shutDown s₁ with
    | ok _ s₂ => rw [hs] at hdelivery; exact hdelivery
    | error e s₂ => rw [hs] at hdelivery; exact hdelivery
  · have hsofar : s₁.events.toList = added := by simpa using hgrows.events
    rw [hw]
    refine .part hw ?_ ?_ ?_ <;> simp only [within, events, sink?, Option.map_some, Option.getD_some, hsofar]
    · exact htaken
    · exact hgrows.unclosed
    · exact hfails

/-- A streaming output is shut down by being closed. -/
theorem shutDownOnce (h : Open offered true (some p) d) : ShutDownOnce d.cleaned.events := by
  cases h with
  | @streamingOutput _ sink added hgrows =>
    obtain ⟨last, hlast, -, hevents⟩ := Sink.shutDown_cases sink
    have hsofar : sink.events.toList = added := by simpa using hgrows.events
    have honce : ShutDownOnce (Sink.after (Sink.shutDown sink)).events.toList :=
      ⟨_, last, hevents, hlast, by rw [hsofar]; exact hgrows.unclosed⟩
    simp only [cleaned, after, close, StreamingOutput.close, Bool.false_eq_true, if_false]
    cases hs : Sink.shutDown sink with
    | ok _ s' => rw [hs] at honce; exact honce
    | error e s' => rw [hs] at honce; exact honce

end Open

end Descriptor

end GuestHost
