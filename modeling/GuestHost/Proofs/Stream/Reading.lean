/-
  GuestHost.Proofs.Stream.Reading — reads of a streaming input that are made, kept, awaited and dropped in any order.

  A read does nothing until it is awaited (`ReadTurn`). Then it takes up where the read that was awaited before it has
  stopped, whichever of the two was made first: with what that one left over, and with the source as that one left it.
  So the bytes come out in the order in which reads are awaited, and none gets lost as long as no read fails.

  Proved:
  - `Exchange.turn_reading`: one operation.
  - `Exchange.performAll_reading`: operations in turn, of which none fails.
  - `reads_in_any_order_keep_every_byte`: what was returned and what is left over are what the source has given, and
    what the next operation then does.
-/

import GuestHost.Proofs.Stream.Custody
import GuestHost.Proofs.Stream.Pulls

namespace GuestHost

open Exec

def Answer.bytes : Answer → List UInt8
  | read _ bs => bs
  | _ => []

def bytesOf (answers : List (Except StreamError Answer × List SinkEvent)) : List UInt8 :=
  answers.flatMap fun a => match a.1 with
    | .ok a => a.bytes
    | .error _ => []

/-- What an operation does to a streaming input `r`, where `held` are the lengths of the reads that are held. -/
inductive ReadTurn (held : List (Option (List UInt32))) (r : StreamingInput) :
    Operation → Except StreamError Answer → StreamingInput → Prop
  /-- One that awaits no read brings nothing and leaves the input as it was, -/
  | rests {op : Operation} {a : Answer} (h : awaited? held op = none) (hop : op.isClose = false) (ha : a.bytes = []) :
      ReadTurn held r op (.ok a) r
  /-- but closing lets the source go. -/
  | closes : ReadTurn held r .close (.ok .done) { r with source := none }
  /-- One that awaits a read fills its buffers, with the pulls that it needs, -/
  | finishes {number : Nat} {lens : List UInt32} {waited : Bool} {bs : List UInt8} {pulls : List Pull}
      {r' : StreamingInput} (h : held.getD number none = some lens)
      (hfill : NotedInput.fill 0 lens ⟨r, []⟩ = .ok bs ⟨r', pulls⟩) (hthrifty : Thrifty lens bs pulls)
      (hpulls : r'.pulls.toList = r.pulls.toList ++ pulls.map Pull.chunk) :
      ReadTurn held r (.await number) (.ok (.read waited bs)) r'
  /-- or fails. -/
  | fails {number : Nat} {lens : List UInt32} {e : StreamError} {r' : StreamingInput}
      (h : held.getD number none = some lens) (hfill : StreamingInput.fill lens r = .error e r') :
      ReadTurn held r (.await number) (.error e) r'

namespace Exchange

def reading (s : Source) : Exchange := { descriptor := .ofSource (some s) true }

/-- A read is pending if it is into anything. -/
theorem readv_streamingInput (lens : List UInt32) (r : StreamingInput) :
    Descriptor.readv lens (.streamingInput r) =
      .ok (if lens.all (· == 0) then .ready [] else .pending lens) (.streamingInput r) := by
  rw [Descriptor.readv]
  cases lens.all (· == 0) <;> rfl

theorem finish_ofLengths (lens : List UInt32) (r : StreamingInput) (made : List (Option Held)) :
    finish (.ofLengths lens) ⟨.streamingInput r, made⟩ =
      match StreamingInput.fill lens r with
      | .ok bs r' => .ok (.read (!lens.all (· == 0)) bs) ⟨.streamingInput r', made⟩
      | .error e r' => .error e ⟨.streamingInput r', made⟩ := by
  unfold Held.ofLengths
  cases hempty : lens.all (· == 0) with
  | true =>
    rw [StreamingInput.fill_of_empty hempty]
    rfl
  | false =>
    rw [if_neg Bool.false_ne_true]
    show (on (Descriptor.finishRead lens) >>= _) _ = _
    rw [bind_apply, on, Descriptor.finishRead]
    cases hfill : StreamingInput.fill lens r <;> rfl

theorem perform_startRead (lens : List UInt32) (r : StreamingInput) (made : List (Option Held)) :
    perform (.startRead lens) ⟨.streamingInput r, made⟩ =
      .ok (.made made.length (!lens.all (· == 0))) ⟨.streamingInput r, made ++ [some (.ofLengths lens)]⟩ := by
  show (on (Descriptor.readv lens) >>= _) _ = _
  rw [bind_apply, on, readv_streamingInput, Held.ofLengths]
  cases lens.all (· == 0) <;> rfl

theorem turn_reading {op : Operation} (hop : op.OfReads) (held : List (Option (List UInt32))) (r : StreamingInput) :
    ∃ r', (turn op ⟨.streamingInput r, held.map (Option.map .ofLengths)⟩).2 =
        ⟨.streamingInput r', (hold Operation.read? held op).map (Option.map .ofLengths)⟩ ∧
      ReadTurn held r op (turn op ⟨.streamingInput r, held.map (Option.map .ofLengths)⟩).1 r' := by
  cases op with
  | startRead lens =>
    refine ⟨r, ?_, ?_⟩
    · rw [turn_of_ok (perform_startRead lens r _)]
      simp [hold, Operation.read?]
    · rw [turn_of_ok (perform_startRead lens r _)]
      exact .rests rfl rfl rfl
  | close =>
    have hclose : perform .close ⟨.streamingInput r, held.map (Option.map .ofLengths)⟩ =
      .ok .done ⟨.streamingInput { r with source := none }, held.map (Option.map .ofLengths)⟩ := rfl
    rw [turn_of_ok hclose]
    refine ⟨_, ?_, .closes⟩
    simp [hold, Operation.read?]
  | drop number =>
    rw [turn_drop]
    refine ⟨r, rfl, .rests rfl rfl ?_⟩
    split <;> rfl
  | await number =>
    cases hheld : held.getD number none with
    | none =>
      rw [turn_await_none _ _ hheld]
      exact ⟨r, rfl, .rests hheld rfl rfl⟩
    | some lens =>
      have hawait := perform_await .ofLengths (.streamingInput r) hheld
      rw [finish_ofLengths] at hawait
      cases hfill : StreamingInput.fill lens r with
      | ok bs r' =>
        rw [hfill] at hawait
        obtain ⟨pulls, hnoted, hfills⟩ := StreamingInput.noted_of_fill hfill
        rw [turn_of_ok hawait]
        exact ⟨r', rfl, .finishes hheld hnoted hfills.thrifty hfills.pulls_eq⟩
      | error e r' =>
        rw [hfill] at hawait
        rw [turn_of_error hawait]
        exact ⟨r', rfl, .fails hheld hfill⟩
  | kind | buffered | preRun | postRun | readv lens | writev views | startWrite views => cases hop

end Exchange

namespace ReadTurn

variable {held : List (Option (List UInt32))} {r r' : StreamingInput} {op : Operation} {a : Answer}

/-- An operation that does not fail returns what it takes of the leftover and of the chunks that it pulls. -/
theorem conserves (h : ReadTurn held r op (.ok a) r') {returned : List UInt8}
    (hr : returned ++ r.leftover = r.pulls.toList.flatten) :
    (returned ++ a.bytes) ++ r'.leftover = r'.pulls.toList.flatten := by
  cases h with
  | rests _ _ ha => rwa [ha, List.append_nil]
  | closes =>
    show (returned ++ []) ++ r.leftover = r.pulls.toList.flatten
    rwa [List.append_nil]
  | @finishes number lens waited bs pulls r' hheld hfill =>
    obtain ⟨pulls', hnoted, hfills⟩ := NotedInput.fill_eq_ok hfill
    calc (returned ++ bs) ++ r'.leftover
      _ = (returned ++ r.leftover) ++ (pulls'.map Pull.chunk).flatten := by
        rw [List.append_assoc, hfills.conserves, List.append_assoc]
      _ = r'.pulls.toList.flatten := by rw [hr, hfills.pulls_eq, List.flatten_append]

theorem fedBy (h : ReadTurn held r op (.ok a) r') {s : Source} {closed : Bool} (hr : r.FedBy s closed) :
    r'.FedBy s (closed || op.isClose) := by
  cases h with
  | rests _ hop _ => rwa [hop, Bool.or_false]
  | closes =>
    obtain ⟨rest, hgives, -⟩ := hr
    refine ⟨rest, hgives, ?_⟩
    rw [Operation.isClose, Bool.or_true]
    rfl
  | finishes hheld hfill =>
    obtain ⟨pulls', hnoted, hfills⟩ := NotedInput.fill_eq_ok hfill
    show r'.FedBy s (closed || false)
    rw [Bool.or_false]
    exact hfills.fedBy hr

end ReadTurn

namespace Exchange

/-- Operations in turn, where reads are made and none that is awaited fails. -/
theorem performAll_reading {s : Source} {ops : List Operation} (hops : ∀ op ∈ ops, op.OfReads)
    (held : List (Option (List UInt32))) {r : StreamingInput} {closed : Bool} (returned : List UInt8)
    (hok : ∀ a ∈ (performAll ops ⟨.streamingInput r, held.map (Option.map .ofLengths)⟩).1, a.1.isOk)
    (hfed : r.FedBy s closed) (hr : returned ++ r.leftover = r.pulls.toList.flatten) :
    ∃ r', (performAll ops ⟨.streamingInput r, held.map (Option.map .ofLengths)⟩).2 =
        ⟨.streamingInput r', (ops.foldl (hold Operation.read?) held).map (Option.map .ofLengths)⟩ ∧
      r'.FedBy s (closed || ops.any Operation.isClose) ∧
      (returned ++ bytesOf (performAll ops ⟨.streamingInput r, held.map (Option.map .ofLengths)⟩).1) ++ r'.leftover =
        r'.pulls.toList.flatten := by
  induction ops generalizing held r closed returned with
  | nil => exact ⟨r, rfl, by simpa using hfed, by simpa [performAll, bytesOf] using hr⟩
  | cons op ops ih =>
    obtain ⟨r₁, hleft, hturn⟩ := turn_reading (hops op List.mem_cons_self) held r
    rw [performAll_cons, hleft] at hok ⊢
    cases hanswer : (turn op ⟨.streamingInput r, held.map (Option.map .ofLengths)⟩).1 with
    | error e =>
      have hfirst := hok _ List.mem_cons_self
      rw [hanswer] at hfirst
      cases hfirst
    | ok a =>
      rw [hanswer] at hturn
      obtain ⟨r', hlast, hfed', hr'⟩ := ih (fun op' h => hops op' (List.mem_cons_of_mem _ h)) _ _
        (fun a h => hok a (List.mem_cons_of_mem _ h)) (hturn.fedBy hfed) (hturn.conserves hr)
      refine ⟨r', hlast, ?_, ?_⟩
      · rwa [List.any_cons, ← Bool.or_assoc]
      · rwa [bytesOf, List.flatMap_cons, ← List.append_assoc]

end Exchange

/-- Reads of a streaming input are made, awaited and dropped in any order, and the input is closed at any time. As long
as none that is awaited fails, the bytes that were returned, in the order in which the reads were awaited, and then the
leftover are the bytes that the source has given. Whatever comes next: nothing is consumed unless a read is awaited
that is still held, and such a read gives no more than it may and pulls no more than it has to. -/
theorem reads_in_any_order_keep_every_byte (s : Source) (ops : List Operation) (hops : ∀ op ∈ ops, op.OfReads)
    (hok : ∀ a ∈ (Exchange.performAll ops (.reading s)).1, a.1.isOk) :
    ∃ r, (Exchange.performAll ops (.reading s)).2.descriptor = .streamingInput r ∧
      r.FedBy s (ops.any Operation.isClose) ∧
      bytesOf (Exchange.performAll ops (.reading s)).1 ++ r.leftover = r.pulls.toList.flatten ∧
      ∀ op, op.OfReads → ∃ r',
        (Exchange.turn op (Exchange.performAll ops (.reading s)).2).2.descriptor = .streamingInput r' ∧
          ReadTurn (holding Operation.read? ops) r op
            (Exchange.turn op (Exchange.performAll ops (.reading s)).2).1 r' := by
  have hfed : StreamingInput.FedBy s false ⟨some s, [], #[]⟩ := ⟨s, .nothing s, rfl⟩
  obtain ⟨r, hlast, hfed', hr⟩ := Exchange.performAll_reading hops [] [] hok hfed rfl
  have hlast : (Exchange.performAll ops (.reading s)).2 = _ := hlast
  rw [hlast]
  refine ⟨r, rfl, ?_, hr, fun op hop => ?_⟩
  · rwa [Bool.false_or] at hfed'
  · obtain ⟨r', hleft, hturn⟩ := Exchange.turn_reading hop (holding Operation.read? ops) r
    exact ⟨r', congrArg Exchange.descriptor hleft, hturn⟩

/-- A source that pauses, seems to end, goes on and fails. -/
def haltingSource : Source := [.bytes [1, 2, 3, 4, 5], .wait, .bytes [], .bytes [6, 7, 8], .failure "gone"]

/-- Reads that are not awaited in the order in which they were made, one of them after the input was closed. -/
def shuffledReads : List Operation :=
  [.startRead [2, 0, 2], .startRead [0], .startRead [4], .startRead [9], .await 2, .await 0, .startRead [1], .drop 3,
    .await 4, .close, .startRead [2], .await 1, .await 5]

/-- The first read comes to the seeming end, with one byte of four. The last is served from the leftover. -/
theorem shuffled_reads_keep_every_byte :
    (∀ op ∈ shuffledReads, op.OfReads) ∧
      (∀ a ∈ (Exchange.performAll shuffledReads (.reading haltingSource)).1, a.1.isOk) ∧
      bytesOf (Exchange.performAll shuffledReads (.reading haltingSource)).1 = [1, 2, 3, 4, 5, 6, 7, 8] ∧
      ∃ r, (Exchange.performAll shuffledReads (.reading haltingSource)).2.descriptor = .streamingInput r ∧
        r.FedBy haltingSource true ∧
        bytesOf (Exchange.performAll shuffledReads (.reading haltingSource)).1 ++ r.leftover =
          r.pulls.toList.flatten := by
  have hops : ∀ op ∈ shuffledReads, op.OfReads := by simp [shuffledReads, Operation.OfReads]
  have hok : ∀ a ∈ (Exchange.performAll shuffledReads (.reading haltingSource)).1, a.1.isOk := by decide
  obtain ⟨r, hr, hfed, hkept, -⟩ := reads_in_any_order_keep_every_byte haltingSource shuffledReads hops hok
  exact ⟨hops, hok, by decide, r, hr, hfed, hkept⟩

end GuestHost
