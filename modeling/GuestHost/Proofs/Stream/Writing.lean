/-
  GuestHost.Proofs.Stream.Writing — writes of a streaming output that are made, kept, awaited and dropped in any order.

  A write copies its bytes when it is made, and does nothing else until it is awaited (`WriteTurn`). Then it hands them
  to the sink, in pieces of whatever sizes the sink takes, and flushes it. So a sink that does not fail sees the writes
  one after the other, each of them whole, in the order in which they are awaited (`Carried`), and nothing after it was
  shut down.

      startWrite a, startWrite b, await 1, await 0, close   →   b, flush, a, flush, shut down

  Proved:
  - `Exchange.turn_writing`: one operation, whatever the sink does.
  - `Exchange.performAll_writing`: operations in turn.
  - `Exchange.performAll_carried`: what a sink that does not fail has seen of them.
  - `writes_happen_when_awaited`: the two together.
-/

import GuestHost.Proofs.Stream.Custody
import GuestHost.Proofs.Stream.Open
import GuestHost.Proofs.Stream.Twins

namespace GuestHost

open Exec

/-- What an operation does to a streaming output, and what its sink, which goes by the plan, sees of it. `held` are the
views of the writes that are held. -/
inductive WriteTurn (p : SinkPlan) (held : List (Option (List View))) (closed : Bool) :
    Operation → Except StreamError Answer → List SinkEvent → Prop
  /-- Nothing is seen of a write that is made or dropped, -/
  | makes (views : List View) :
      WriteTurn p held closed (.startWrite views) (.ok (.made held.length (haveBytes views))) []
  | drops (number : Nat) :
      WriteTurn p held closed (.drop number)
        (.ok (if (held.getD number none).isSome then .done else .noSuchTransfer)) []
  | misses {number : Nat} (h : held.getD number none = none) :
      WriteTurn p held closed (.await number) (.ok .noSuchTransfer) []
  /-- of one that has no bytes, -/
  | empty {number : Nat} {views : List View} (h : held.getD number none = some views)
      (hnone : haveBytes views = false) : WriteTurn p held closed (.await number) (.ok (.wrote false 0)) []
  /-- or of one that is awaited too late. -/
  | late {number : Nat} {views : List View} (h : held.getD number none = some views)
      (hsome : haveBytes views = true) (hclosed : closed = true) :
      WriteTurn p held closed (.await number) (.error .closed) []
  /-- Otherwise all bytes are handed over and the sink is flushed, -/
  | whole {number : Nat} {views : List View} {pieces : List (List UInt8)} (h : held.getD number none = some views)
      (hsome : haveBytes views = true) (hopen : closed = false) (hpieces : [] ∉ pieces)
      (hbytes : pieces.flatten = views.flatMap View.toList) :
      WriteTurn p held closed (.await number) (.ok (.wrote true (countOf views))) (pieces.map .wrote ++ [.flushed])
  /-- or a beginning of them, and then the sink fails. -/
  | part {number : Nat} {views : List View} {pieces : List (List UInt8)} {e : StreamError} {last : SinkEvent}
      (h : held.getD number none = some views) (hsome : haveBytes views = true) (hopen : closed = false)
      (hpieces : [] ∉ pieces) (hbytes : pieces.flatten <+: views.flatMap View.toList) (hfails : last.isFailure = true)
      (hnothing : last.bytes = []) (hp : ¬ p.Faultless) :
      WriteTurn p held closed (.await number) (.error e) (pieces.map .wrote ++ [last])
  /-- The first close shuts the sink down, if that does not fail; later ones do nothing. -/
  | closes (hopen : closed = false) : WriteTurn p held closed .close (.ok .done) [.shutDown]
  | closesBadly {e : StreamError} (hopen : closed = false) (hp : ¬ p.Faultless) :
      WriteTurn p held closed .close (.error e) [.shutDownFailed]
  | closesAgain (hclosed : closed = true) : WriteTurn p held closed .close (.ok .done) []

/-- What a sink sees of writes of some bytes, one after the other: pieces that come to the bytes of the views, and then
a flush. -/
inductive Carried : List (List View) → List SinkEvent → Prop
  | nothing : Carried [] []
  | next {views : List View} {writes : List (List View)} {pieces : List (List UInt8)} {events : List SinkEvent}
      (hpieces : [] ∉ pieces) (hbytes : pieces.flatten = views.flatMap View.toList) (h : Carried writes events) :
      Carried (views :: writes) (pieces.map .wrote ++ .flushed :: events)

/-- A sink that goes by the plan and was not shut down still works after what did not shut it down. -/
theorem Sink.Working.grows {p : SinkPlan} {s s' : Sink} {added : List SinkEvent} (h : s.Working p)
    (hgrows : s.Grows added s') : s'.Working p where
  plan := hgrows.plan.trans h.plan
  notShutDown hmem := by
    rw [hgrows.events] at hmem
    rcases List.mem_append.1 hmem with hmem | hmem
    · exact h.notShutDown hmem
    · cases hgrows.unclosed _ hmem

namespace WriteTurn

variable {p : SinkPlan} {held : List (Option (List View))} {closed : Bool} {op : Operation}
  {answer : Except StreamError Answer} {added : List SinkEvent}

/-- Once the output is closed, nothing is seen. -/
theorem eq_nil_of_closed (h : WriteTurn p held closed op answer added) (hclosed : closed = true) : added = [] := by
  subst hclosed
  cases h with
  | makes | drops | misses | empty | late | closesAgain => rfl
  | whole _ _ hopen | part _ _ hopen | closes hopen | closesBadly hopen => cases hopen

/-- The first close of a sink that does not fail. -/
theorem eq_of_close (h : WriteTurn p held false op answer added) (hp : p.Faultless) (hop : op.isClose = true) :
    added = [.shutDown] := by
  cases h with
  | closes => rfl
  | closesBadly _ hfails => exact absurd hp hfails
  | closesAgain hclosed => cases hclosed
  | makes | drops | misses | empty | late | whole | part => cases hop

/-- Before it, a sink that does not fail sees a write that has bytes when it is awaited, and nothing else. -/
theorem carried (h : WriteTurn p held false op answer added) (hp : p.Faultless) (hop : op.isClose = false)
    {writes : List (List View)} {events : List SinkEvent} (hrest : Carried writes events) :
    Carried ((awaited? held op).toList.filter haveBytes ++ writes) (added ++ events) := by
  cases h with
  | makes | drops => exact hrest
  | misses hheld =>
    rw [awaited?, hheld]
    exact hrest
  | empty hheld hnone =>
    rw [awaited?, hheld, Option.toList_some, List.filter_cons_of_neg (Bool.not_eq_true _ ▸ hnone)]
    exact hrest
  | late _ _ hclosed => cases hclosed
  | whole hheld hsome _ hpieces hbytes =>
    rw [awaited?, hheld, Option.toList_some, List.filter_cons_of_pos hsome, List.append_assoc]
    exact .next hpieces hbytes hrest
  | part _ _ _ _ _ _ _ hfails => exact absurd hp hfails
  | closes | closesBadly | closesAgain => cases hop

end WriteTurn

namespace Exchange

def writing (p : SinkPlan) : Exchange := { descriptor := .ofSink (some p) true }

/-- A write is pending if there are any bytes. -/
theorem writev_streamingOutput (views : List View) (w : StreamingOutput) :
    Descriptor.writev views (.streamingOutput w) =
      .ok (if haveBytes views then .pending ((views.filter fun v => v.size != 0).map View.toList) else .ready 0)
        (.streamingOutput w) := by
  simp only [Descriptor.writev]
  cases hchunks : (views.filter fun v => v.size != 0).map View.toList with
  | nil =>
    rw [List.map_eq_nil_iff, List.filter_eq_nil_iff, ← List.any_eq_false] at hchunks
    rw [haveBytes, hchunks]
    rfl
  | cons c rest =>
    have hsome : haveBytes views = true := by
      obtain ⟨v, hv, -⟩ := List.mem_map.1 (hchunks ▸ List.mem_cons_self : c ∈ _)
      obtain ⟨hmem, hsize⟩ := List.mem_filter.1 hv
      exact List.any_eq_true.2 ⟨v, hmem, hsize⟩
    rw [if_pos hsome]

theorem perform_startWrite (views : List View) (w : StreamingOutput) (made : List (Option Held)) :
    perform (.startWrite views) ⟨.streamingOutput w, made⟩ =
      .ok (.made made.length (haveBytes views)) ⟨.streamingOutput w, made ++ [some (.ofViews views)]⟩ := by
  show (on (Descriptor.writev views) >>= _) _ = _
  rw [bind_apply, on, writev_streamingOutput, Held.ofViews]
  cases haveBytes views <;> rfl

/-- Awaiting a write without bytes does nothing. -/
theorem finish_empty {views : List View} (h : haveBytes views = false) (x : Exchange) :
    finish (.ofViews views) x = .ok (.wrote false 0) x := by
  rw [Held.ofViews, h]
  rfl

/-- Awaiting one with bytes hands them to the output. -/
theorem finish_ofViews {views : List View} (h : haveBytes views = true) (w : StreamingOutput)
    (made : List (Option Held)) :
    finish (.ofViews views) ⟨.streamingOutput w, made⟩ =
      match StreamingOutput.put ((views.filter fun v => v.size != 0).map View.toList) w with
      | .ok n w' => .ok (.wrote true n) ⟨.streamingOutput w', made⟩
      | .error e w' => .error e ⟨.streamingOutput w', made⟩ := by
  rw [Held.ofViews, if_pos h]
  show (on (Descriptor.finishWrite _) >>= _) _ = _
  rw [bind_apply, on, Descriptor.finishWrite]
  cases hput : StreamingOutput.put ((views.filter fun v => v.size != 0).map View.toList) w <;> rfl

/-- Awaiting a write with bytes, before the output is closed. -/
theorem finish_open {p : SinkPlan} {s : Sink} (hs : s.Working p) {held : List (Option (List View))} {number : Nat}
    {views : List View} (hheld : held.getD number none = some views) (hsome : haveBytes views = true)
    (made : List (Option Held)) :
    ∃ s' added, s.Grows added s' ∧
      ((∃ a, finish (.ofViews views) ⟨.streamingOutput ⟨s, false⟩, made⟩ = .ok a ⟨.streamingOutput ⟨s', false⟩, made⟩ ∧
          WriteTurn p held false (.await number) (.ok a) added) ∨
        ∃ e, finish (.ofViews views) ⟨.streamingOutput ⟨s, false⟩, made⟩ =
            .error e ⟨.streamingOutput ⟨s', false⟩, made⟩ ∧
          WriteTurn p held false (.await number) (.error e) added) := by
  rw [finish_ofViews hsome]
  have hcount := (count_chunks views 0).trans (count_eq_countOf views)
  obtain ⟨s', pieces, hpieces, ⟨hput, hgrows, hbytes⟩ | ⟨e, last, hput, hgrows, hbytes, hfails, hnothing⟩⟩ :=
    StreamingOutput.put_cases ((views.filter fun v => v.size != 0).map View.toList) s
  · rw [hcount] at hput
    rw [flatten_chunks] at hbytes
    rw [hput]
    exact ⟨s', _, hgrows, .inl ⟨_, rfl, .whole hheld hsome rfl hpieces hbytes⟩⟩
  · rw [flatten_chunks] at hbytes
    -- with a plan that never fails the bytes would have been taken
    have hp : ¬ p.Faultless := by
      intro hp
      obtain ⟨s'', hok, -⟩ := StreamingOutput.put_ok hp hs ((views.filter fun v => v.size != 0).map View.toList)
      rw [hok] at hput
      cases hput
    rw [hput]
    exact ⟨s', _, hgrows, .inr ⟨e, rfl, .part hheld hsome rfl hpieces hbytes hfails hnothing hp⟩⟩

/-- Closing shuts the sink down, unless the output is closed. -/
theorem turn_close {p : SinkPlan} {s : Sink} {closed : Bool} (hs : closed = false → s.Working p)
    (held : List (Option (List View))) (made : List (Option Held)) :
    ∃ s' added, (turn .close ⟨.streamingOutput ⟨s, closed⟩, made⟩).2 = ⟨.streamingOutput ⟨s', true⟩, made⟩ ∧
      s'.events.toList = s.events.toList ++ added ∧
      WriteTurn p held closed .close (turn .close ⟨.streamingOutput ⟨s, closed⟩, made⟩).1 added := by
  cases closed with
  | true =>
    have hclose : perform .close ⟨.streamingOutput ⟨s, true⟩, made⟩ =
      .ok .done ⟨.streamingOutput ⟨s, true⟩, made⟩ := rfl
    rw [turn_of_ok hclose]
    exact ⟨s, [], rfl, (List.append_nil _).symm, .closesAgain rfl⟩
  | false =>
    have hs := hs rfl
    cases hplan : s.plan.failShutDown with
    | true =>
      have hclose : perform .close ⟨.streamingOutput ⟨s, false⟩, made⟩ = .error (.io "sink shutdown failed")
          ⟨.streamingOutput ⟨{ s with events := s.events.push .shutDownFailed }, true⟩, made⟩ := by
        show (on Descriptor.close >>= _) _ = _
        simp [bind_apply, on, Descriptor.close, StreamingOutput.close, Sink.shutDown, hplan, Descriptor.within]
      have hp : ¬ p.Faultless := by
        intro hp
        rw [hs.plan, hp.failShutDown] at hplan
        cases hplan
      rw [turn_of_error hclose]
      exact ⟨_, [.shutDownFailed], rfl, Array.toList_push, .closesBadly rfl hp⟩
    | false =>
      have hclose : perform .close ⟨.streamingOutput ⟨s, false⟩, made⟩ = .ok .done
          ⟨.streamingOutput ⟨{ s with events := s.events.push .shutDown }, true⟩, made⟩ := by
        show (on Descriptor.close >>= _) _ = _
        simp only [bind_apply, on, Descriptor.close, StreamingOutput.close, Sink.shutDown, hplan, Descriptor.within,
          Bool.false_eq_true, if_false]
        rfl
      rw [turn_of_ok hclose]
      exact ⟨_, [.shutDown], rfl, Array.toList_push, .closes rfl⟩

theorem turn_writing {p : SinkPlan} {op : Operation} (hop : op.OfWrites) (held : List (Option (List View))) {s : Sink}
    {closed : Bool} (hs : closed = false → s.Working p) :
    ∃ s' added, (turn op ⟨.streamingOutput ⟨s, closed⟩, held.map (Option.map .ofViews)⟩).2 =
        ⟨.streamingOutput ⟨s', closed || op.isClose⟩, (hold Operation.write? held op).map (Option.map .ofViews)⟩ ∧
      ((closed || op.isClose) = false → s'.Working p) ∧
      s'.events.toList = s.events.toList ++ added ∧
      WriteTurn p held closed op (turn op ⟨.streamingOutput ⟨s, closed⟩, held.map (Option.map .ofViews)⟩).1 added := by
  have hsame : s.events.toList = s.events.toList ++ [] := (List.append_nil _).symm
  cases op with
  | startWrite views =>
    rw [turn_of_ok (perform_startWrite views _ _), List.length_map]
    refine ⟨s, [], ?_, ?_, hsame, .makes views⟩
    · simp [hold, Operation.write?, Operation.isClose]
    · simpa [Operation.isClose] using hs
  | close =>
    obtain ⟨s', added, hleft, hevents, hturn⟩ := turn_close hs held (held.map (Option.map .ofViews))
    refine ⟨s', added, ?_, ?_, hevents, hturn⟩
    · rw [hleft]
      simp [hold, Operation.write?, Operation.isClose]
    · simp [Operation.isClose]
  | drop number =>
    rw [turn_drop]
    refine ⟨s, [], ?_, ?_, hsame, .drops number⟩
    · simp [hold, Operation.isClose]
    · simpa [Operation.isClose] using hs
  | await number =>
    have hclosed : (closed || (Operation.await number).isClose) = closed := Bool.or_false closed
    rw [hclosed]
    cases hheld : held.getD number none with
    | none =>
      rw [turn_await_none _ _ hheld]
      exact ⟨s, [], rfl, hs, hsame, .misses hheld⟩
    | some views =>
      have hawait := perform_await .ofViews (.streamingOutput ⟨s, closed⟩) hheld
      cases hsome : haveBytes views with
      | false =>
        rw [finish_empty hsome] at hawait
        rw [turn_of_ok hawait]
        exact ⟨s, [], rfl, hs, hsame, .empty hheld hsome⟩
      | true =>
        cases closed with
        | true =>
          rw [finish_ofViews hsome] at hawait
          rw [turn_of_error hawait]
          exact ⟨s, [], rfl, hs, hsame, .late hheld hsome rfl⟩
        | false =>
          obtain ⟨s', added, hgrows, ⟨a, hfinish, hturn⟩ | ⟨e, hfinish, hturn⟩⟩ :=
            finish_open (hs rfl) hheld hsome ((held.set number none).map (Option.map .ofViews))
          · rw [turn_of_ok (hawait.trans hfinish)]
            exact ⟨s', added, rfl, fun _ => (hs rfl).grows hgrows, hgrows.events, hturn⟩
          · rw [turn_of_error (hawait.trans hfinish)]
            exact ⟨s', added, rfl, fun _ => (hs rfl).grows hgrows, hgrows.events, hturn⟩
  | kind | buffered | preRun | postRun | readv lens | writev views | startRead lens => cases hop

theorem performAll_writing {p : SinkPlan} {ops : List Operation} (hops : ∀ op ∈ ops, op.OfWrites)
    (held : List (Option (List View))) {s : Sink} {closed : Bool} (hs : closed = false → s.Working p) :
    ∃ s', (performAll ops ⟨.streamingOutput ⟨s, closed⟩, held.map (Option.map .ofViews)⟩).2 =
        ⟨.streamingOutput ⟨s', closed || ops.any Operation.isClose⟩,
          (ops.foldl (hold Operation.write?) held).map (Option.map .ofViews)⟩ ∧
      ((closed || ops.any Operation.isClose) = false → s'.Working p) := by
  induction ops generalizing held s closed with
  | nil =>
    rw [List.any_nil, Bool.or_false]
    exact ⟨s, rfl, hs⟩
  | cons op ops ih =>
    obtain ⟨s₁, added, hleft, hs₁, -, -⟩ := turn_writing (hops op List.mem_cons_self) held hs
    rw [performAll_cons, hleft, List.any_cons, ← Bool.or_assoc]
    exact ih (fun op' h => hops op' (List.mem_cons_of_mem _ h)) _ hs₁

/-- Nothing more is seen once the output is closed. -/
theorem performAll_closed {ops : List Operation} (hops : ∀ op ∈ ops, op.OfWrites) (held : List (Option (List View)))
    (s : Sink) :
    (performAll ops ⟨.streamingOutput ⟨s, true⟩, held.map (Option.map .ofViews)⟩).2.descriptor.events =
      s.events.toList := by
  induction ops generalizing held s with
  | nil => rfl
  | cons op ops ih =>
    have hclosed : true = false → s.Working s.plan := nofun
    obtain ⟨s₁, added, hleft, -, hevents, hturn⟩ := turn_writing (hops op List.mem_cons_self) held hclosed
    rw [hturn.eq_nil_of_closed rfl, List.append_nil] at hevents
    rw [performAll_cons, hleft, ← hevents]
    exact ih (fun op' h => hops op' (List.mem_cons_of_mem _ h)) _ s₁

/-- A sink that does not fail has seen the writes that were awaited before the close, and the close. -/
theorem performAll_carried {p : SinkPlan} (hp : p.Faultless) {ops : List Operation} (hops : ∀ op ∈ ops, op.OfWrites)
    (held : List (Option (List View))) {s : Sink} (hs : s.Working p) :
    ∃ carried, Carried ((awaits Operation.write? held (ops.takeWhile fun op => !op.isClose)).filter haveBytes) carried ∧
      (performAll ops ⟨.streamingOutput ⟨s, false⟩, held.map (Option.map .ofViews)⟩).2.descriptor.events =
        s.events.toList ++ carried ++ if ops.any Operation.isClose then [.shutDown] else [] := by
  induction ops generalizing held s with
  | nil => exact ⟨[], .nothing, by simp [performAll, Descriptor.events, Descriptor.sink?]⟩
  | cons op ops ih =>
    have hrest : ∀ op ∈ ops, op.OfWrites := fun op' h => hops op' (List.mem_cons_of_mem _ h)
    obtain ⟨s₁, added, hleft, hs₁, hevents, hturn⟩ := turn_writing (hops op List.mem_cons_self) held (fun _ => hs)
    rw [performAll_cons, hleft, List.any_cons]
    cases hclose : op.isClose with
    | true =>
      rw [hturn.eq_of_close hp hclose] at hevents
      refine ⟨[], ?_, ?_⟩
      · rw [List.takeWhile_cons, hclose]
        exact .nothing
      · rw [List.append_nil, Bool.true_or, if_pos rfl, ← hevents]
        exact performAll_closed hrest _ s₁
    | false =>
      obtain ⟨carried, hcarried, hlast⟩ := ih hrest (hold Operation.write? held op) (hs₁ hclose)
      refine ⟨added ++ carried, ?_, ?_⟩
      · have hfirst : (!op.isClose) = true := by rw [hclose]; rfl
        rw [List.takeWhile_cons, if_pos hfirst, awaits, List.filter_append]
        exact hturn.carried hp hclose hcarried
      · rw [Bool.false_or, ← List.append_assoc, ← hevents]
        exact hlast

end Exchange

/-- Writes of a streaming output are made, awaited and dropped in any order, and the output is closed at any time.
Whatever comes next, `WriteTurn` tells what is answered and what the sink sees of it. A sink that does not fail has
seen the writes that were awaited before the first close, in the order in which they were awaited and with the bytes
with which they were made, and then the close. -/
theorem writes_happen_when_awaited (p : SinkPlan) (ops : List Operation) (hops : ∀ op ∈ ops, op.OfWrites) :
    (∀ op, op.OfWrites → ∃ added,
      (Exchange.turn op (Exchange.performAll ops (.writing p)).2).2.descriptor.events =
          (Exchange.performAll ops (.writing p)).2.descriptor.events ++ added ∧
        WriteTurn p (holding Operation.write? ops) (ops.any Operation.isClose) op
          (Exchange.turn op (Exchange.performAll ops (.writing p)).2).1 added) ∧
    (p.Faultless → ∃ carried,
      Carried ((awaits Operation.write? [] (ops.takeWhile fun op => !op.isClose)).filter haveBytes) carried ∧
        (Exchange.performAll ops (.writing p)).2.descriptor.events =
          carried ++ if ops.any Operation.isClose then [.shutDown] else []) := by
  have hs : Sink.Working p ⟨p, 0, #[]⟩ := ⟨rfl, List.not_mem_nil⟩
  refine ⟨fun op hop => ?_, fun hp => ?_⟩
  · obtain ⟨s, hlast, hworks⟩ := Exchange.performAll_writing hops [] (fun _ => hs)
    have hlast : (Exchange.performAll ops (.writing p)).2 = _ := hlast
    obtain ⟨s', added, hleft, -, hevents, hturn⟩ := Exchange.turn_writing hop _ hworks
    rw [hlast, hleft]
    exact ⟨added, hevents, hturn⟩
  · obtain ⟨carried, hcarried, hevents⟩ := Exchange.performAll_carried hp hops [] hs
    exact ⟨carried, hcarried, hevents⟩

/-- A sink that takes at most two bytes at once and keeps callers waiting. -/
def smallSink : SinkPlan := { maxWrite := some 2, waits := true }

theorem faultless_smallSink : smallSink.Faultless := ⟨rfl, rfl, by decide, rfl, rfl⟩

/-- Writes that are not awaited in the order in which they were made, one of them after the output was closed. -/
def shuffledWrites : List Operation :=
  [.startWrite [.ofArray #[1, 2, 3], .ofArray #[], .ofArray #[4]], .startWrite [.ofArray #[]],
    .startWrite [.ofArray #[5]], .startWrite [.ofArray #[6, 7]], .await 2, .drop 3, .await 0, .await 1, .await 1,
    .startWrite [.ofArray #[8]], .close, .close]

/-- The write that was made last is still held when the output is closed, and comes too late. -/
theorem shuffled_writes_happen_when_awaited :
    (∀ op ∈ shuffledWrites, op.OfWrites) ∧ smallSink.Faultless ∧
      (∃ carried,
        Carried ((awaits Operation.write? [] (shuffledWrites.takeWhile fun op => !op.isClose)).filter haveBytes)
            carried ∧
          (Exchange.performAll shuffledWrites (.writing smallSink)).2.descriptor.events = carried ++ [.shutDown]) ∧
      (Exchange.performAll shuffledWrites (.writing smallSink)).2.descriptor.events =
        [.wrote [5], .flushed, .wrote [1, 2], .wrote [3], .wrote [4], .flushed, .shutDown] ∧
      (Operation.await 4).OfWrites ∧
      (Exchange.turn (.await 4) (Exchange.performAll shuffledWrites (.writing smallSink)).2).1 = .error .closed ∧
      ∃ added,
        WriteTurn smallSink (holding Operation.write? shuffledWrites) true (.await 4) (.error .closed) added := by
  have hops : ∀ op ∈ shuffledWrites, op.OfWrites := by simp [shuffledWrites, Operation.OfWrites]
  obtain ⟨hnext, hevents⟩ := writes_happen_when_awaited smallSink shuffledWrites hops
  obtain ⟨added, -, hturn⟩ := hnext (.await 4) trivial
  exact ⟨hops, faultless_smallSink, hevents faultless_smallSink, by decide, trivial, rfl, added, hturn⟩

end GuestHost
