/-
  GuestHost.Proofs.Session.Writes — a write is made as a whole, or not at all.

  Before the descriptor is touched, the array and all of its buffers have been looked at; so a bad one stops the call
  while nothing has happened. From then on only the sink can fail. If it does not, the descriptor gets the bytes that
  the buffers held when the call was made, all of them and once: at once, or when the work that suspended the guest is
  finished, wherever the guest's memory has gone by then. Last comes the number of the bytes. It has a place, or the
  call answers with a fault and the memory is as it was; the bytes are gone in either case.

  Proved:
  - `Descriptor.Receptive.writev`, `Descriptor.Receptive.finishWrite`: both halves of a write, on the descriptor.
  - `writes_are_whole_or_refused`: all writes, on every descriptor.
-/

import GuestHost.Proofs.Session.Transfers
import GuestHost.Proofs.Stream.Open
import GuestHost.Proofs.Stream.Twins

namespace GuestHost

open Exec

/-! ## Descriptors that take bytes -/

namespace Descriptor

/-- The descriptor takes what is written: nothing stands behind it, or an output that is not closed and whose sink
does not fail. -/
inductive Receptive : Descriptor → Prop
  | null : Receptive .null
  | buffered (w : BufferedOutput) : Receptive (.bufferedOutput w)
  | streaming {p : SinkPlan} {sink : Sink} (hp : p.Faultless) (hsink : sink.Working p) :
      Receptive (.streamingOutput ⟨sink, false⟩)

/-- The descriptor got these bytes, once and nothing else. A buffered output keeps them behind those it has; a
streaming one hands them to its sink, in pieces, and flushes it, unless there are none. -/
inductive Receives (bytes : List UInt8) : Descriptor → Descriptor → Prop
  | discarded : Receives bytes .null .null
  | kept (w : BufferedOutput) :
      Receives bytes (.bufferedOutput w) (.bufferedOutput { w with buffer := w.buffer ++ bytes })
  | nothing (w : StreamingOutput) (h : bytes = []) : Receives bytes (.streamingOutput w) (.streamingOutput w)
  | handed {s s' : Sink} (pieces : List (List UInt8)) (h : s.Grows (pieces.map .wrote ++ [.flushed]) s')
      (hsome : [] ∉ pieces) (hbytes : pieces.flatten = bytes) :
      Receives bytes (.streamingOutput ⟨s, false⟩) (.streamingOutput ⟨s', false⟩)

/-- A write is made at once, or kept to be finished: by a streaming output, if there are bytes. -/
theorem Receptive.writev {d : Descriptor} (h : d.Receptive) (views : List View) :
    (∃ d', d'.Receptive ∧ d.Receives (views.flatMap View.toList) d' ∧
        Descriptor.writev views d = .ok (.ready (countOf views)) d') ∨
      ∃ chunks, (∃ w, d = .streamingOutput w) ∧ views.flatMap View.toList ≠ [] ∧
        chunks = (views.filter fun v => v.size != 0).map View.toList ∧
        Descriptor.writev views d = .ok (.pending chunks) d := by
  cases h with
  | null => exact .inl ⟨.null, .null, .discarded, by rw [Descriptor.writev, count_eq_countOf]⟩
  | buffered w =>
    refine .inl ⟨_, .buffered _, .kept w, ?_⟩
    simp only [Descriptor.writev, BufferedOutput.append, count_eq_countOf]
  | @streaming p sink hp hsink =>
    have hbytes := flatten_chunks views
    have hcount := count_chunks views 0
    cases hchunks : (views.filter fun v => v.size != 0).map View.toList with
    | nil =>
      rw [hchunks] at hbytes hcount
      refine .inl ⟨_, .streaming hp hsink, .nothing _ hbytes.symm, ?_⟩
      rw [← count_eq_countOf, ← hcount]
      simp only [Descriptor.writev, hchunks]
      rfl
    | cons c rest =>
      refine .inr ⟨c :: rest, ⟨_, rfl⟩, fun hnone => ?_, rfl, by simp only [Descriptor.writev, hchunks]⟩
      -- none of the chunks is empty
      obtain ⟨v, hv, rfl⟩ := List.mem_map.1 (hchunks ▸ List.mem_cons_self : c ∈ _)
      have hsize : v.size ≠ 0 := by simpa using (List.mem_filter.1 hv).2
      have hempty := List.flatMap_eq_nil_iff.1 hnone v (List.mem_filter.1 hv).1
      exact hsize (by rw [← View.length_toList, hempty, List.length_nil])

/-- A write that was kept is finished by handing everything to the sink. -/
theorem Receptive.finishWrite {w : StreamingOutput} (h : (streamingOutput w).Receptive) (views : List View) :
    ∃ d', d'.Receptive ∧ (streamingOutput w).Receives (views.flatMap View.toList) d' ∧
      Descriptor.finishWrite ((views.filter fun v => v.size != 0).map View.toList) (streamingOutput w) =
        .ok (countOf views) d' := by
  cases h with
  | @streaming p sink hp hsink =>
    obtain ⟨s₁, hput, hworking, -⟩ :=
      StreamingOutput.put_ok hp hsink ((views.filter fun v => v.size != 0).map View.toList)
    obtain ⟨s', pieces, hsome, ⟨hput', hgrows, hbytes⟩ | ⟨e, last, hput', -⟩⟩ :=
      StreamingOutput.put_cases ((views.filter fun v => v.size != 0).map View.toList) sink
    · rw [hput] at hput'
      cases hput'
      rw [count_chunks, count_eq_countOf] at hput
      refine ⟨_, .streaming hp hworking, .handed pieces hgrows hsome (hbytes.trans (flatten_chunks views)), ?_⟩
      rw [Descriptor.finishWrite, hput, within]
    · rw [hput] at hput'
      cases hput'

end Descriptor

/-! ## Calls -/

/-- What storing a number makes of a machine: its word is all that changes, or it has no place and nothing does. -/
inductive Counted (result n : UInt32) (m : Machine (Hosted Work Session)) :
    UInt32 → Machine (Hosted Work Session) → Prop
  | stored (h : result.toNat + 4 ≤ m.memory.size) :
      Counted result n m Errno.success.raw { m with memory := m.memory.write result.toNat (wordBytes n) }
  | refused (h : m.memory.size < result.toNat + 4) : Counted result n m Errno.fault.raw m

theorem counted_marshal (result n : UInt32) (m : Machine (Hosted Work Session)) :
    ∃ e m', HostCall.marshal (Memory.writeWord result n) m = .ok e m' ∧ Counted result n m e.raw m' := by
  by_cases h : result.toNat + 4 ≤ m.memory.size
  · exact ⟨_, _, HostCall.marshal_of_ok (Memory.writeWord_eq_ok h), .stored h⟩
  · have hlt := Nat.not_le.1 h
    exact ⟨_, _, HostCall.marshal_of_error (Memory.writeWord_eq_error hlt), .refused hlt⟩

/-- The number of the bytes, or the largest word if there are more. -/
def byteCount (bytes : List UInt8) : UInt32 := UInt32.ofNat (min bytes.length (UInt32.size - 1))

theorem View.totalSize_eq (views : List View) : totalSize views = (views.flatMap toList).length := by
  induction views with
  | nil => rfl
  | cons v views ih => rw [totalSize, ih, List.flatMap_cons, List.length_append, length_toList]

theorem countOf_eq (views : List View) : countOf views = byteCount (views.flatMap View.toList) := by
  rw [countOf, byteCount, View.totalSize_eq]

theorem Memory.flatMap_views (m : Memory) (array count : UInt32) :
    (m.views array count).flatMap View.toList = m.contents (m.buffers array count) := by
  simp only [views, List.flatMap_map, toList_view, contents]

/-- How a write of some bytes goes that nothing stops, from the machine `m` on. -/
inductive Written (m : Machine (Hosted Work Session)) (fd : Nat) (bytes : List UInt8) (result : UInt32) :
    EStateM.Result Failure (Machine (Hosted Work Session)) (Reply Work) → Prop
  /-- The descriptor gets the bytes, and the number is stored. -/
  | atOnce {d d' : Descriptor} {w : UInt32} {m' : Machine (Hosted Work Session)}
      (hd : m.outer.host.stdio.get? fd = some d) (hreceives : d.Receives bytes d')
      (hcounted : Counted result (byteCount bytes) (m.putStream fd d') w m') :
      Written m fd bytes result (.ok (.ready w) m')
  /-- Nothing is done yet. It is when the work is finished, on whatever machine there is then. -/
  | later {work : Work} (hd : ∃ w, m.outer.host.stdio.get? fd = some (.streamingOutput w))
      (hfinish : ∀ (n : Machine (Hosted Work Session)) (w : StreamingOutput),
        n.outer.host.stdio.get? fd = some (.streamingOutput w) → (Descriptor.streamingOutput w).Receptive →
        ∃ d' value n', d'.Receptive ∧ (Descriptor.streamingOutput w).Receives bytes d' ∧
          Counted result (byteCount bytes) (n.putStream fd d') value n' ∧ work.finish n = .ok value n') :
      Written m fd bytes result (.ok (.suspend work) m)

/-- The machine with a note of what a write offers. Nothing but the note is changed, and nothing reads it. -/
def Machine.offering (m : Machine (Hosted Work Session)) (fd array count : UInt32) : Machine (Hosted Work Session) :=
  m.noting (.offered fd.toNat (m.memory.views array count))

/-- What a write comes to that is called on `m`, where `d` stands behind the number `fd`. -/
structure WholeOrRefused (m : Machine (Hosted Work Session)) (fd array count result : UInt32) (d : Descriptor)
    (outcome : EStateM.Result Failure (Machine (Hosted Work Session)) (Reply Work)) : Prop where
  /-- If the array or one of its buffers is out of bounds, nothing happens, whatever the descriptor is. -/
  refused : ¬ m.memory.Lists array count → outcome = .ok (.ready Errno.fault.raw) m
  /-- Otherwise an input fails the call. -/
  misdirected : m.memory.Lists array count → d.kind = "readable" →
    outcome = .error (.stream (.wrongDirection .write)) (m.offering fd array count)
  /-- Any other descriptor gets what the buffers hold at the call, in order. -/
  written : m.memory.Lists array count → d.Receptive →
    Written (m.offering fd array count) fd.toNat (m.memory.contents (m.memory.buffers array count)) result outcome

theorem written_writeStream {m : Machine (Hosted Work Session)} {fd array count : UInt32} (result : UInt32)
    {d : Descriptor} (hsize : m.memory.size ≤ UInt32.size) (hlists : m.memory.Lists array count)
    (hd : m.outer.host.stdio.get? fd.toNat = some d) (hreceptive : d.Receptive) :
    Written (m.offering fd array count) fd.toNat (m.memory.contents (m.memory.buffers array count)) result
      (HostCall.writeStream [.i32 fd, .i32 array, .i32 count, .i32 result] m) := by
  let views := m.memory.views array count
  have hnoted : (m.offering fd array count).outer.host.stdio.get? fd.toNat = some d := hd
  rw [HostCall.writeStream_of_lists hsize hlists (Stdio.lt_of_get? hd), ← m.memory.flatMap_views array count]
  rcases hreceptive.writev views with ⟨d', -, hreceives, hr⟩ | ⟨chunks, ⟨w, rfl⟩, -, rfl, hr⟩
  · obtain ⟨e, m', hmarshal, hcounted⟩ := counted_marshal result (countOf views)
      ((m.offering fd array count).putStream fd.toNat d')
    have hcall : (Session.onStream fd.toNat (.ready 0) (Descriptor.writev views) >>= HostCall.conclude fd.toNat result)
        (m.offering fd array count) = .ok (.ready e.raw) m' :=
      (bind_of_ok (Session.onStream_of_ok _ hnoted hr)).trans (bind_of_ok hmarshal)
    rw [countOf_eq] at hcounted
    exact hcall ▸ .atOnce hnoted hreceives hcounted
  · have hcall : (Session.onStream fd.toNat (.ready 0) (Descriptor.writev views) >>= HostCall.conclude fd.toNat result)
        (m.offering fd array count) = _ := bind_of_ok (Session.onStream_of_ok _ hnoted hr)
    rw [Machine.putStream_same hnoted] at hcall
    refine hcall ▸ .later ⟨w, hnoted⟩ fun n w' hn hw' => ?_
    obtain ⟨d', hd', hreceives, hfinish⟩ := hw'.finishWrite views
    obtain ⟨e, n', hmarshal, hcounted⟩ := counted_marshal result (countOf views) (n.putStream fd.toNat d')
    rw [countOf_eq] at hcounted
    exact ⟨d', e.raw, n', hd', hreceives, hcounted,
      (bind_of_ok (Session.onStream_of_ok _ hn hfinish)).trans (bind_of_ok hmarshal)⟩

/-- Every write on a standard descriptor is refused before anything has happened, fails because the descriptor is an
input, or has the descriptor take all of the bytes, at once or later. -/
theorem writes_are_whole_or_refused (around : Surroundings) (m : Machine (Hosted Work Session))
    (fd array count result : UInt32) (hsize : m.memory.size ≤ UInt32.size) (hfd : fd.toNat < 3) :
    ∃ d, m.outer.host.stdio.get? fd.toNat = some d ∧
      WholeOrRefused m fd array count result d
        (HostCall.fdWrite.run around [.i32 fd, .i32 array, .i32 count, .i32 result] m) := by
  obtain ⟨d, hd⟩ := m.outer.host.stdio.get?_of_lt hfd
  refine ⟨d, hd, HostCall.writeStream_of_not hsize, fun hlists hkind => ?_, fun hlists hreceptive =>
    written_writeStream result hsize hlists hd hreceptive⟩
  have hnoted : (m.offering fd array count).outer.host.stdio.get? fd.toNat = some d := hd
  have hwrong : Descriptor.writev (m.memory.views array count) d = .error (.wrongDirection .write) d := by
    cases d with
    | bufferedInput r | streamingInput r => rfl
    | null | bufferedOutput w | streamingOutput w => simp [Descriptor.kind] at hkind
  have hfailed := Session.onStream_of_error (.ready 0) hnoted hwrong
  rw [Machine.putStream_same hnoted] at hfailed
  exact (HostCall.writeStream_of_lists hsize hlists hfd).trans (bind_of_error hfailed)

/-- A guest that has put an array of two buffers at the start of its memory. The first buffer is the array itself, and
the second a part of the first. -/
def overlapping : Machine (Hosted Work Session) where
  memory := (Memory.zeroed 64).write 0 (wordBytes 0 ++ wordBytes 16 ++ wordBytes 8 ++ wordBytes 4)
  outer :=
    { host :=
        { args := []
          env := []
          stdio := Options.stdio { stdout := some { maxWrite := some 3 } }
          filesystem := { memory := default, outer := {} } } }

/-- Its array is written as a whole, with a part of it twice, though the number goes over the array. -/
theorem overlapping_buffers_are_written :
    overlapping.memory.size ≤ UInt32.size ∧ (1 : UInt32).toNat < 3 ∧ overlapping.memory.Lists 0 2 ∧
      Written (overlapping.offering 1 0 2) 1 [0, 0, 0, 0, 16, 0, 0, 0, 8, 0, 0, 0, 4, 0, 0, 0, 8, 0, 0, 0] 4
        (HostCall.fdWrite.run ⟨0, fun _ => some 0⟩ [.i32 1, .i32 0, .i32 2, .i32 4] overlapping) := by
  have hsize : overlapping.memory.size ≤ UInt32.size := by decide +kernel
  have hlists : overlapping.memory.Lists 0 2 := by decide +kernel
  have hbytes : overlapping.memory.contents (overlapping.memory.buffers 0 2) =
      [0, 0, 0, 0, 16, 0, 0, 0, 8, 0, 0, 0, 4, 0, 0, 0, 8, 0, 0, 0] := by decide +kernel
  obtain ⟨d, hd, h⟩ := writes_are_whole_or_refused ⟨0, fun _ => some 0⟩ overlapping 1 0 2 4 hsize (by decide)
  cases hd
  have hworking : Sink.Working { maxWrite := some 3 } ⟨{ maxWrite := some 3 }, 0, #[]⟩ := ⟨rfl, by decide⟩
  exact ⟨hsize, by decide, hlists, hbytes ▸ h.written hlists (.streaming ⟨rfl, rfl, by decide, rfl, rfl⟩ hworking)⟩

end GuestHost
