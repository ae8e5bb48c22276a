/-
  GuestHost.Stream.Descriptor — what stands behind the three standard descriptors.

  A guest that cannot be suspended gets buffered ends: its input is drained before it runs and its output is
  kept until it has finished. A guest that can be suspended gets streaming ends: every transfer that moves
  bytes is pending, and nothing of it happens before it is finished, except that the bytes to be written are
  copied when it is made. A descriptor without a stream takes everything and gives nothing.

  A descriptor never sees guest memory. A write is given views of the bytes; a read is given the lengths of
  the buffers, and hands back the bytes to place.
-/

import GuestHost.Stream.Source
import GuestHost.Stream.Sink
import GuestHost.View

namespace GuestHost

/-- The most bytes that one pull from a streaming source asks for. -/
def chunkSize : Nat := 4096

/-- A count of bytes with `n` more; it stays at the largest word once it gets there. -/
def addCount (total : UInt32) (n : Nat) : UInt32 := UInt32.ofNat (min (total.toNat + n) (UInt32.size - 1))

/-- How many bytes buffers of the given lengths hold together. -/
def totalLength : List UInt32 → Nat
  | [] => 0
  | len :: lens => len.toNat + totalLength lens

inductive Transfer (α ω : Type) where
  | ready (value : α)
  | pending (work : ω)

/-- The transfer with what it gives, if it is done, put in another form. -/
def Transfer.map {α β ω : Type} (f : α → β) : Transfer α ω → Transfer β ω
  | ready value => ready (f value)
  | pending work => pending work

def Transfer.isPending {α ω : Type} : Transfer α ω → Bool
  | ready _ => false
  | pending _ => true

/-! ## The four ends -/

/-- Input for a guest that cannot be suspended: the source, until it is closed, and the bytes drained from
it, of which the first `offset` were read. -/
structure BufferedInput where
  source : Option Source
  kept : Runs := []
  offset : Nat := 0
  inRange : offset ≤ kept.bytes.length := by simp
  deriving DecidableEq

/-- Output of a guest that cannot be suspended: bytes are kept until they are delivered in one piece. -/
structure BufferedOutput where
  sink : Sink
  buffer : List UInt8 := []
  delivered : Bool := false
  deriving DecidableEq

/-- Input for a guest that can be suspended: the source, until it is closed, and the rest of the last chunk. -/
structure StreamingInput where
  source : Option Source
  leftover : List UInt8 := []
  /-- What each pull has brought. Nothing reads it. -/
  pulls : Array (List UInt8) := #[]
  deriving DecidableEq

/-- Output of a guest that can be suspended. -/
structure StreamingOutput where
  sink : Sink
  closed : Bool := false
  deriving DecidableEq

namespace BufferedInput

def buffer (r : BufferedInput) : List UInt8 := r.kept.bytes

/-- Replaces the buffer by all that the source gives until it ends. -/
def drain : EStateM StreamError BufferedInput Unit := fun r =>
  match r.source with
  | none => .error .closed r
  | some source =>
    match source.drain with
    | .ok bs rest => .ok () ⟨some rest, bs, 0, Nat.zero_le _⟩
    | .error e rest => .error e { r with source := some rest }

def remaining (r : BufferedInput) : List UInt8 := r.buffer.drop r.offset

/-- The bytes that are left are counted without being laid out. -/
theorem length_remaining (r : BufferedInput) : r.remaining.length = r.kept.size - r.offset := by
  rw [remaining, List.length_drop, buffer, Runs.length_bytes]

/-- Takes as many of the remaining bytes as the lengths ask for. -/
def take (lens : List UInt32) (r : BufferedInput) : List UInt8 × BufferedInput :=
  let n := min (totalLength lens) r.remaining.length
  (r.remaining.take n, { r with
    offset := r.offset + n
    inRange := by
      have hlen : r.remaining.length = r.buffer.length - r.offset := List.length_drop
      have hrange : r.offset ≤ r.buffer.length := r.inRange
      show _ ≤ r.buffer.length
      omega })

/-- What it leaves to be read. -/
theorem remaining_take (lens : List UInt32) (r : BufferedInput) :
    (r.take lens).2.remaining = r.remaining.drop (min (totalLength lens) r.remaining.length) := by
  show r.buffer.drop (r.offset + _) = (r.buffer.drop r.offset).drop _
  rw [List.drop_drop]

/-- The same, with the bytes not laid out. -/
def takeRuns (lens : List UInt32) (r : BufferedInput) : Runs × BufferedInput :=
  let n := min (totalLength lens) (r.kept.size - r.offset)
  ((r.kept.dropBytes r.offset).takeBytes n, { r with
    offset := r.offset + n
    inRange := by
      have hrange := r.inRange
      rw [Runs.length_bytes] at hrange ⊢
      omega })

theorem take_eq_takeRuns (lens : List UInt32) (r : BufferedInput) :
    r.take lens = ((r.takeRuns lens).1.bytes, (r.takeRuns lens).2) := by
  have hbytes : (r.kept.dropBytes r.offset).bytes = r.remaining := Runs.bytes_dropBytes _ _
  simp only [take, takeRuns, length_remaining, Runs.bytes_takeBytes, hbytes]

end BufferedInput

namespace BufferedOutput

/-- Keeps the bytes of the views, and counts them. -/
def append (views : List View) (w : BufferedOutput) : UInt32 × BufferedOutput :=
  (views.foldl (fun total v => addCount total v.size) 0,
    { w with buffer := w.buffer ++ views.flatMap View.toList })

/-- Writes the kept bytes to the sink and shuts it down; later calls do nothing. -/
def deliver : EStateM StreamError BufferedOutput Unit := fun w =>
  if w.delivered then .ok () w
  else
    match (do Sink.writeAll w.buffer; Sink.shutDown : EStateM StreamError Sink Unit) w.sink with
    | .ok () sink => .ok () { w with sink, delivered := true }
    | .error e sink => .error e { w with sink, delivered := true }

end BufferedOutput

namespace StreamingInput

def consume (n : Nat) : EStateM StreamError StreamingInput (List UInt8) := fun r =>
  .ok (r.leftover.take n) { r with leftover := r.leftover.drop n }

/-- Replaces the leftover by the next chunk; tells whether there was one. -/
def pull : EStateM StreamError StreamingInput Bool := fun r =>
  match r.source with
  | none => .error .closed r
  | some source =>
    match source.read chunkSize with
    | .ok bs rest => .ok (!bs.isEmpty) ⟨some rest, bs, r.pulls.push bs⟩
    | .error e rest => .error e { r with source := some rest }

/-- Fills buffers of the given lengths in order, with at most one pull for each. A buffer that stays short
ends the read, so later ones never skip ahead. -/
def fill : List UInt32 → EStateM StreamError StreamingInput (List UInt8)
  | [] => pure []
  | len :: lens => do
    let first ← consume len.toNat
    if first.length = len.toNat then return first ++ (← fill lens)
    else if ← pull then
      let second ← consume (len.toNat - first.length)
      if first.length + second.length = len.toNat then return first ++ second ++ (← fill lens)
      else return first ++ second
    else return first

end StreamingInput

namespace StreamingOutput

/-- Writes the chunks one after the other, flushes, and counts the bytes. -/
def put (chunks : List (List UInt8)) : EStateM StreamError StreamingOutput UInt32 := fun w =>
  if w.closed then .error .closed w
  else
    match (do chunks.forM Sink.writeAll; Sink.flush : EStateM StreamError Sink Unit) w.sink with
    | .ok () sink => .ok (chunks.foldl (fun total c => addCount total c.length) 0) { w with sink }
    | .error e sink => .error e { w with sink }

/-- Shuts the sink down; later calls do nothing. -/
def close : EStateM StreamError StreamingOutput Unit := fun w =>
  if w.closed then .ok () w
  else
    match Sink.shutDown w.sink with
    | .ok () sink => .ok () ⟨sink, true⟩
    | .error e sink => .error e ⟨sink, true⟩

end StreamingOutput

/-! ## Descriptors -/

inductive Descriptor where
  | null
  | bufferedInput (r : BufferedInput)
  | bufferedOutput (w : BufferedOutput)
  | streamingInput (r : StreamingInput)
  | streamingOutput (w : StreamingOutput)
  deriving DecidableEq

/-- A read that is still to be done: the lengths of its buffers. -/
abbrev PendingRead := List UInt32

/-- A write that is still to be done: its non-empty views, copied. -/
abbrev PendingWrite := List (List UInt8)

namespace Descriptor

/-- The outcome of an action on one end, as the outcome on the descriptor that holds it. -/
def within {σ α : Type} (wrap : σ → Descriptor) :
    EStateM.Result StreamError σ α → EStateM.Result StreamError Descriptor α
  | .ok a s => .ok a (wrap s)
  | .error e s => .error e (wrap s)

def ofSource (source : Option Source) (streaming : Bool) : Descriptor :=
  match source with
  | none => null
  | some s => if streaming then streamingInput ⟨some s, [], #[]⟩ else bufferedInput ⟨some s, [], 0, Nat.zero_le _⟩

def ofSink (plan : Option SinkPlan) (streaming : Bool) : Descriptor :=
  match plan with
  | none => null
  | some p =>
    let sink : Sink := ⟨p, 0, #[]⟩
    if streaming then streamingOutput ⟨sink, false⟩ else bufferedOutput ⟨sink, [], false⟩

def kind : Descriptor → String
  | null => "null"
  | bufferedInput _ | streamingInput _ => "readable"
  | bufferedOutput _ | streamingOutput _ => "writable"

def sink? : Descriptor → Option Sink
  | bufferedOutput w => some w.sink
  | streamingOutput w => some w.sink
  | _ => none

/-- All that happened to the sink behind the descriptor. -/
def events (d : Descriptor) : List SinkEvent := (d.sink?.map fun s => s.events.toList).getD []

/-- Bytes that were accepted from the guest and not handed to the sink yet. -/
def buffered : Descriptor → List UInt8
  | bufferedOutput w => if w.delivered then [] else w.buffer
  | _ => []

def readv (lens : List UInt32) : EStateM StreamError Descriptor (Transfer (List UInt8) PendingRead) := fun d =>
  match d with
  | null => .ok (.ready []) d
  | bufferedInput r => let (bs, r') := r.take lens; .ok (.ready bs) (bufferedInput r')
  | streamingInput _ => if lens.all (· == 0) then .ok (.ready []) d else .ok (.pending lens) d
  | bufferedOutput _ | streamingOutput _ => .error (.wrongDirection .read) d

/-- A read of which the bytes that it gives at once are not laid out. -/
def readvRuns (lens : List UInt32) : EStateM StreamError Descriptor (Transfer Runs PendingRead) := fun d =>
  match d with
  | bufferedInput r => let (rs, r') := r.takeRuns lens; .ok (.ready rs) (bufferedInput r')
  | d => (Transfer.map Runs.ofBytes <$> readv lens : EStateM StreamError Descriptor _) d

theorem readv_eq_readvRuns (lens : List UInt32) : readv lens = Transfer.map Runs.bytes <$> readvRuns lens := by
  funext d
  cases d with
  | bufferedInput r =>
    show EStateM.Result.ok (Transfer.ready (r.take lens).1) (bufferedInput (r.take lens).2) = _
    rw [r.take_eq_takeRuns]
    rfl
  | null | bufferedOutput w | streamingOutput w => rfl
  | streamingInput r =>
    simp only [readvRuns, readv, Functor.map, EStateM.map]
    cases lens.all (· == 0) <;> rfl

def writev (views : List View) : EStateM StreamError Descriptor (Transfer UInt32 PendingWrite) := fun d =>
  match d with
  | null => .ok (.ready (views.foldl (fun total v => addCount total v.size) 0)) d
  | bufferedOutput w => let (n, w') := w.append views; .ok (.ready n) (bufferedOutput w')
  | streamingOutput _ =>
    match (views.filter (fun v => v.size != 0)).map View.toList with
    | [] => .ok (.ready 0) d
    | chunks => .ok (.pending chunks) d
  | bufferedInput _ | streamingInput _ => .error (.wrongDirection .write) d

/-- Finishes a pending read. Only a streaming input makes one. -/
def finishRead (work : PendingRead) : EStateM StreamError Descriptor (List UInt8) := fun d =>
  match d with
  | streamingInput r => within streamingInput (StreamingInput.fill work r)
  | _ => .ok [] d

/-- Finishes a pending write. Only a streaming output makes one. -/
def finishWrite (work : PendingWrite) : EStateM StreamError Descriptor UInt32 := fun d =>
  match d with
  | streamingOutput w => within streamingOutput (StreamingOutput.put work w)
  | _ => .ok 0 d

/-- Closes the stream: an input lets its source go, a streaming output shuts its sink down. -/
def close : EStateM StreamError Descriptor Unit := fun d =>
  match d with
  | null | bufferedOutput _ => .ok () d
  | bufferedInput r => .ok () (bufferedInput { r with source := none })
  | streamingInput r => .ok () (streamingInput { r with source := none })
  | streamingOutput w => within streamingOutput (StreamingOutput.close w)

/-- What is due before the guest runs: a buffered input is drained. -/
def preRun : EStateM StreamError Descriptor Unit := fun d =>
  match d with
  | bufferedInput r => within bufferedInput (BufferedInput.drain r)
  | _ => .ok () d

/-- What is due after the guest ran: a buffered output is delivered. -/
def postRun : EStateM StreamError Descriptor Unit := fun d =>
  match d with
  | bufferedOutput w => within bufferedOutput (BufferedOutput.deliver w)
  | _ => .ok () d

end Descriptor

end GuestHost
