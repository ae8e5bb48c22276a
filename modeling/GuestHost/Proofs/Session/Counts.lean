/-
  GuestHost.Proofs.Session.Counts — the number of bytes that a read or a write reports.

  Buffers may overlap, so a small memory can name more bytes than a word counts. A write counts its buffers one after
  the other, and stays at the largest word once it gets there. A read counts the bytes that have come, and keeps of
  their number what fits a word. The two agree on every transfer of less than 2³² bytes:

      write of n bytes   reports   min n (2³² - 1)
      read of n bytes    reports   n mod 2³²

  So a guest that reads 2³² bytes at once is told that there were none, though its input has not ended.

  Proved:
  - `Descriptor.Received.of_writev`, `Descriptor.Gave.of_readv` and the same of finished transfers: what a descriptor
    has taken or given that answers, whatever its sink or its source does.
  - `HostCall.conclude_cases`, `Work.finish_write`: both ways for a write to end.
  - `writes_saturate_and_reads_wrap`: what is stored by the calls that answer with success.
  - `reads_do_not_saturate`: the number of bytes, or the largest word, is not always stored by a read.
-/

import GuestHost.Proofs.Session.Reads
import GuestHost.Proofs.Session.Writes

namespace GuestHost

open Exec

/-! ## The stored number -/

theorem Memory.readWord_write {m : Memory} {addr : UInt32} (h : addr.toNat + 4 ≤ m.size) (w : UInt32) :
    (m.write addr.toNat (wordBytes w)).readWord addr = .ok w := by
  have hfits : addr.toNat + (wordBytes w).length ≤ m.size := by rwa [length_wordBytes]
  have hread : (m.write addr.toNat (wordBytes w)).read addr.toNat 4 = wordBytes w := read_write hfits
  rw [readWord_eq_ok (by rwa [size_write]), hread, wordOfBytes_wordBytes]

namespace Counted

variable {result n w : UInt32} {m m' : Machine (Hosted Work Session)}

/-- A number that was stored is what the guest reads there. -/
theorem reported (h : Counted result n m w m') (hw : w = Errno.success.raw) : m'.memory.readWord result = .ok n := by
  cases h with
  | stored hfits => exact Memory.readWord_write hfits n
  | refused => cases hw

theorem get? {fd : Nat} {d d' : Descriptor} (h : Counted result n (m.putStream fd d') w m')
    (hd : m.outer.host.stdio.get? fd = some d) : m'.outer.host.stdio.get? fd = some d' := by
  cases h <;> exact Stdio.get?_put hd d'

end Counted

/-- A count that fits a word is the number itself. -/
theorem byteCount_eq {bs : List UInt8} (h : bs.length < UInt32.size) : byteCount bs = UInt32.ofNat bs.length := by
  rw [byteCount, Nat.min_eq_left (Nat.le_sub_one_of_lt h)]

/-- Only multiples of 2³² are counted as nothing. -/
theorem ofNat_eq_zero_iff {n : Nat} : UInt32.ofNat n = 0 ↔ UInt32.size ∣ n := by
  rw [← UInt32.toNat_inj, UInt32.toNat_ofNat', UInt32.toNat_zero, Nat.dvd_iff_mod_eq_zero]

/-! ## Descriptors that have taken bytes -/

namespace Descriptor

variable {views : List View} {d d' : Descriptor} {n : UInt32}

/-- The descriptor has taken the bytes of the views, and they were counted up to the largest word. -/
structure Received (views : List View) (n : UInt32) (d d' : Descriptor) : Prop where
  receives : d.Receives (views.flatMap View.toList) d'
  count : n = byteCount (views.flatMap View.toList)

theorem Received.of_writev (h : writev views d = .ok (.ready n) d') : Received views n d d' := by
  cases d with
  | null =>
    cases h
    exact ⟨.discarded, (count_eq_countOf views).trans (countOf_eq views)⟩
  | bufferedOutput w =>
    cases h
    exact ⟨.kept w, (count_eq_countOf views).trans (countOf_eq views)⟩
  | streamingOutput w =>
    have hbytes := flatten_chunks views
    simp only [writev] at h
    split at h <;> cases h
    -- it answers at once only if there are no chunks
    next hchunks =>
    rw [hchunks] at hbytes
    exact ⟨.nothing w hbytes.symm, by rw [← hbytes]; rfl⟩
  | bufferedInput r | streamingInput r => cases h

theorem of_writev_pending {work : PendingWrite} (h : writev views d = .ok (.pending work) d') :
    work = (views.filter fun v => v.size != 0).map View.toList ∧ d' = d ∧ ∃ w, d = .streamingOutput w := by
  cases d with
  | streamingOutput w =>
    simp only [writev] at h
    split at h <;> cases h
    exact ⟨rfl, rfl, w, rfl⟩
  | null | bufferedInput r | bufferedOutput w | streamingInput r => cases h

theorem Received.of_finishWrite {w : StreamingOutput}
    (h : finishWrite ((views.filter fun v => v.size != 0).map View.toList) (.streamingOutput w) = .ok n d') :
    Received views n (.streamingOutput w) d' := by
  obtain ⟨sink, closed⟩ := w
  cases closed with
  | true => cases h
  | false =>
    rw [finishWrite] at h
    obtain ⟨s', pieces, hsome, ⟨hput, hgrows, hbytes⟩ | ⟨e, last, hput, -⟩⟩ :=
      StreamingOutput.put_cases ((views.filter fun v => v.size != 0).map View.toList) sink <;> rw [hput] at h
    · cases h
      refine ⟨.handed pieces hgrows hsome (hbytes.trans (flatten_chunks views)), ?_⟩
      rw [count_chunks, count_eq_countOf, countOf_eq]
    · cases h

/-! ## Descriptors that have given bytes -/

/-- The descriptor gave these bytes, and kept what follows them. A streaming input has pulled some chunks for them. -/
inductive Gives (bs : List UInt8) : Descriptor → Descriptor → Prop
  | nothing (h : bs = []) : Gives bs .null .null
  | kept {r r' : BufferedInput} (h : r.remaining = bs ++ r'.remaining) :
      Gives bs (.bufferedInput r) (.bufferedInput r')
  | pulled {r r' : StreamingInput} (chunks : List (List UInt8)) (hpulls : r'.pulls.toList = r.pulls.toList ++ chunks)
      (h : r.leftover ++ chunks.flatten = bs ++ r'.leftover) : Gives bs (.streamingInput r) (.streamingInput r')

/-- Nothing is left of the stream: everything was read, or the source has just told its end. -/
inductive AtEnd : Descriptor → Prop
  | null : AtEnd .null
  | buffered {r : BufferedInput} (h : r.remaining = []) : AtEnd (.bufferedInput r)
  | streaming {r : StreamingInput} {source rest : Source} (hleft : r.leftover = []) (hsource : r.source = some source)
      (hread : source.read chunkSize = .ok [] rest) : AtEnd (.streamingInput r)

/-- The descriptor has given these bytes to a read that asked for so many, and none only at its end. -/
structure Gave (lens : List UInt32) (bs : List UInt8) (d d' : Descriptor) : Prop where
  gives : d.Gives bs d'
  atEnd : bs = [] → totalLength lens ≠ 0 → d.AtEnd

end Descriptor

/-- A buffer of some length is served with nothing only at the end of the source. -/
theorem FillsOne.atEnd {k : Nat} {len : UInt32} {r r' : StreamingInput} {pulls : List Pull} {bs : List UInt8}
    (h : FillsOne k len r pulls bs r') (hbs : bs = []) (hlen : len.toNat ≠ 0) :
    (Descriptor.streamingInput r).AtEnd := by
  cases h with
  | enough henough =>
    rcases List.take_eq_nil_iff.1 hbs with hzero | hleft
    · exact absurd hzero hlen
    · rw [hleft] at henough
      exact absurd (Nat.le_zero.1 henough) hlen
  | pulled _ hsource hread =>
    obtain ⟨hleft, hchunk⟩ := List.append_eq_nil_iff.1 hbs
    rw [hleft, List.length_nil, Nat.sub_zero, List.take_eq_nil_iff] at hchunk
    rw [hchunk.resolve_left hlen] at hread
    exact .streaming hleft hsource hread

/-- A read into buffers of some length brings nothing only at the end of the source. The empty buffers before the first
that is not have left the input as it was. -/
theorem Fills.atEnd {k : Nat} {lens : List UInt32} {r r' : StreamingInput} {pulls : List Pull} {bs : List UInt8}
    (h : Fills k lens r pulls bs r') (hbs : bs = []) (hlens : totalLength lens ≠ 0) :
    (Descriptor.streamingInput r).AtEnd := by
  induction h with
  | nothing k r => exact absurd rfl hlens
  | short hone hshort => exact hone.atEnd hbs fun hzero => hshort (by rw [hbs, hzero]; rfl)
  | full hone hfull _ ih =>
    obtain ⟨hnone, hrest⟩ := List.append_eq_nil_iff.1 hbs
    rw [totalLength, ← hfull, hnone, List.length_nil, Nat.zero_add] at hlens
    rw [hnone] at hfull
    have hend := ih hrest hlens
    cases hone with
    | enough _ => rwa [← hfull, List.length_nil, List.drop_zero] at hend
    | pulled hless => exact absurd (hfull ▸ hless) (Nat.not_lt_zero _)

namespace Descriptor

variable {lens : List UInt32} {bs : List UInt8} {d d' : Descriptor}

theorem Gave.of_readv (h : readv lens d = .ok (.ready bs) d') : Gave lens bs d d' := by
  cases d with
  | null =>
    cases h
    exact ⟨.nothing rfl, fun _ _ => .null⟩
  | bufferedInput r =>
    cases h
    refine ⟨.kept ?_, fun hnone hlens => .buffered ?_⟩
    · show r.remaining = r.remaining.take _ ++ (r.take lens).2.remaining
      rw [r.remaining_take, List.take_append_drop]
    · rcases List.take_eq_nil_iff.1 hnone with hzero | hleft
      · rw [List.eq_nil_iff_length_eq_zero]
        omega
      · exact hleft
  | streamingInput r =>
    simp only [readv] at h
    split at h <;> cases h
    next hempty =>
    have hfill := StreamingInput.fill_of_empty hempty r
    obtain ⟨pulls, -, hfills⟩ := StreamingInput.noted_of_fill hfill
    exact ⟨.pulled [] (List.append_nil _).symm (List.append_nil _), fun hnone hlens => hfills.atEnd hnone hlens⟩
  | bufferedOutput w | streamingOutput w => cases h

theorem Gave.of_finishRead {r : StreamingInput} (h : finishRead lens (.streamingInput r) = .ok bs d') :
    Gave lens bs (.streamingInput r) d' := by
  rw [finishRead] at h
  cases hfill : StreamingInput.fill lens r with
  | error e r' =>
    rw [hfill] at h
    cases h
  | ok bs' r' =>
    rw [hfill] at h
    cases h
    obtain ⟨pulls, -, hfills⟩ := StreamingInput.noted_of_fill hfill
    exact ⟨.pulled _ hfills.pulls_eq hfills.conserves.symm, fun hnone hlens => hfills.atEnd hnone hlens⟩

/-- Only a streaming input leaves a read to be finished. -/
theorem exists_of_readv_pending {work : PendingRead} (h : readv lens d = .ok (.pending work) d') :
    ∃ r, d = .streamingInput r := by
  cases d with
  | streamingInput r => exact ⟨r, rfl⟩
  | null | bufferedInput r | bufferedOutput w | streamingOutput w => cases h

end Descriptor

/-! ## Both ways for a write to end -/

section

variable {m : Machine (Hosted Work Session)} {fd : Nat} {d : Descriptor}

theorem HostCall.conclude_cases (hd : m.outer.host.stdio.get? fd = some d) (views : List View) (result : UInt32) :
    (∃ n d' w m', Descriptor.writev views d = .ok (.ready n) d' ∧
        (Session.onStream fd (.ready 0) (Descriptor.writev views) >>= conclude fd result) m = .ok (.ready w) m' ∧
        Counted result n (m.putStream fd d') w m') ∨
      (∃ chunks, Descriptor.writev views d = .ok (.pending chunks) d ∧
        (Session.onStream fd (.ready 0) (Descriptor.writev views) >>= conclude fd result) m =
          .ok (.suspend (.write fd chunks result)) m) ∨
      ∃ e d', Descriptor.writev views d = .error e d' ∧
        (Session.onStream fd (.ready 0) (Descriptor.writev views) >>= conclude fd result) m =
          .error (.stream e) (m.putStream fd d') := by
  cases hr : Descriptor.writev views d with
  | error e d' => exact .inr (.inr ⟨e, d', rfl, bind_of_error (Session.onStream_of_error _ hd hr)⟩)
  | ok t d' =>
    have hcall := Session.onStream_of_ok (.ready 0) hd hr
    cases t with
    | ready n =>
      obtain ⟨e, m', hmarshal, hcounted⟩ := counted_marshal result n (m.putStream fd d')
      exact .inl ⟨n, d', e.raw, m', rfl, (bind_of_ok hcall).trans (bind_of_ok hmarshal), hcounted⟩
    | pending chunks =>
      obtain ⟨-, rfl, -⟩ := Descriptor.of_writev_pending hr
      rw [Machine.putStream_same hd] at hcall
      exact .inr (.inl ⟨chunks, rfl, bind_of_ok hcall⟩)

theorem Work.finish_write (hd : m.outer.host.stdio.get? fd = some d) (chunks : PendingWrite) (result : UInt32) :
    (∃ n d' w m', Descriptor.finishWrite chunks d = .ok n d' ∧
        (Work.write fd chunks result).finish m = .ok w m' ∧ Counted result n (m.putStream fd d') w m') ∨
      ∃ e d', Descriptor.finishWrite chunks d = .error e d' ∧
        (Work.write fd chunks result).finish m = .error (.stream e) (m.putStream fd d') := by
  cases hr : Descriptor.finishWrite chunks d with
  | error e d' => exact .inr ⟨e, d', rfl, bind_of_error (Session.onStream_of_error 0 hd hr)⟩
  | ok n d' =>
    obtain ⟨e, m', hmarshal, hcounted⟩ := counted_marshal result n (m.putStream fd d')
    exact .inl ⟨n, d', e.raw, m', rfl,
      (bind_of_ok (Session.onStream_of_ok 0 hd hr)).trans (bind_of_ok hmarshal), hcounted⟩

end

namespace HostCall

variable {m m' : Machine (Hosted Work Session)} {fd array count result w : UInt32} {work : Work}

/-- A write does nothing if its array or a buffer is out of bounds, or its number is not that of a standard
descriptor. -/
theorem writeStream_cases (hsize : m.memory.size ≤ UInt32.size) (fd array count result : UInt32) :
    (∃ e : Errno, e.raw ≠ Errno.success.raw ∧
        writeStream [.i32 fd, .i32 array, .i32 count, .i32 result] m = .ok (.ready e.raw) m) ∨
      ∃ d, (m.offering fd array count).outer.host.stdio.get? fd.toNat = some d ∧
        writeStream [.i32 fd, .i32 array, .i32 count, .i32 result] m =
          (Session.onStream fd.toNat (.ready 0) (Descriptor.writev (m.memory.views array count)) >>=
            conclude fd.toNat result) (m.offering fd array count) := by
  by_cases hlists : m.memory.Lists array count
  case neg => exact .inl ⟨.fault, by decide, writeStream_of_not hsize hlists⟩
  by_cases hfd : fd.toNat < 3
  · obtain ⟨d, hd⟩ := (m.offering fd array count).outer.host.stdio.get?_of_lt hfd
    exact .inr ⟨d, hd, writeStream_of_lists hsize hlists hfd⟩
  · exact .inl ⟨.badf, by decide, writeStream_of_badf hsize hlists (Nat.not_lt.1 hfd)⟩

/-- A write that answers with success at once has had its descriptor take the bytes. -/
theorem of_writeStream_ready (hsize : m.memory.size ≤ UInt32.size)
    (h : writeStream [.i32 fd, .i32 array, .i32 count, .i32 result] m = .ok (.ready w) m')
    (hw : w = Errno.success.raw) :
    ∃ d n d', m.outer.host.stdio.get? fd.toNat = some d ∧
      Descriptor.writev (m.memory.views array count) d = .ok (.ready n) d' ∧
      Counted result n ((m.offering fd array count).putStream fd.toNat d') w m' := by
  rcases writeStream_cases hsize fd array count result with ⟨e, he, hcall⟩ | ⟨d, hd, hcall⟩ <;> rw [hcall] at h
  · rw [EStateM.Result.ok.injEq, Reply.ready.injEq] at h
    exact absurd (h.1.trans hw) he
  · rcases conclude_cases hd (m.memory.views array count) result with
      ⟨n, d', w', m'', hr, hanswer, hcounted⟩ | ⟨chunks, -, hanswer⟩ | ⟨e, d', -, hanswer⟩ <;> rw [hanswer] at h <;>
      cases h
    exact ⟨d, n, d', hd, hr, hcounted⟩

/-- A write that suspends the guest does so on a streaming output. It has copied its bytes, and done nothing else. -/
theorem of_writeStream_suspend (hsize : m.memory.size ≤ UInt32.size)
    (h : writeStream [.i32 fd, .i32 array, .i32 count, .i32 result] m = .ok (.suspend work) m') :
    ∃ w, m'.outer.host.stdio.get? fd.toNat = some (.streamingOutput w) ∧
      work = .write fd.toNat (((m.memory.views array count).filter fun v => v.size != 0).map View.toList) result := by
  rcases writeStream_cases hsize fd array count result with ⟨e, -, hcall⟩ | ⟨d, hd, hcall⟩ <;> rw [hcall] at h
  · cases h
  · rcases conclude_cases hd (m.memory.views array count) result with
      ⟨n, d', w', m'', -, hanswer, -⟩ | ⟨chunks, hr, hanswer⟩ | ⟨e, d', -, hanswer⟩ <;> rw [hanswer] at h <;> cases h
    obtain ⟨rfl, -, w, rfl⟩ := Descriptor.of_writev_pending hr
    exact ⟨w, hd, rfl⟩

/-- A read that suspends the guest does so on a streaming input. -/
theorem exists_of_readStream_suspend (hsize : m.memory.size ≤ UInt32.size)
    (h : readStream [.i32 fd, .i32 array, .i32 count, .i32 result] m = .ok (.suspend work) m') :
    ∃ r, m'.outer.host.stdio.get? fd.toNat = some (.streamingInput r) := by
  obtain ⟨harray, hfd, rfl, -⟩ := of_readStream_suspend hsize h
  obtain ⟨d, hd⟩ := m'.outer.host.stdio.get?_of_lt hfd
  rw [readStream_of_holds hsize harray hfd] at h
  rcases readInto_cases hd (m'.memory.buffers array count) result with
    ⟨bs, d', e, memory, -, hinto, -⟩ | ⟨hr, -⟩ | ⟨e, d', -, hinto⟩
  · rw [hinto] at h
    cases h
  · obtain ⟨r, rfl⟩ := Descriptor.exists_of_readv_pending hr
    exact ⟨r, hd⟩
  · rw [hinto] at h
    cases h

end HostCall

/-! ## What is reported -/

/-- A read or a write is called on `m` and answers with success. Its bytes are moved on `n`, which leaves `n'`: at once,
or later, when the work that has suspended the guest is finished. The stream has to wait for it, and nothing else. -/
inductive HostCall.Succeeds (around : Surroundings) (c : HostCall) (fd array count result : UInt32)
    (m : Machine (Hosted Work Session)) : Machine (Hosted Work Session) → Machine (Hosted Work Session) → Prop
  | atOnce {m' : Machine (Hosted Work Session)}
      (hcall : c.run around [.i32 fd, .i32 array, .i32 count, .i32 result] m = .ok (.ready Errno.success.raw) m') :
      Succeeds around c fd array count result m m m'
  | later {m₁ n n' : Machine (Hosted Work Session)} {work : Work}
      (hcall : c.run around [.i32 fd, .i32 array, .i32 count, .i32 result] m = .ok (.suspend work) m₁)
      (hwaits : n.outer.host.stdio.get? fd.toNat = m₁.outer.host.stdio.get? fd.toNat)
      (hfinish : work.finish n = .ok Errno.success.raw n') : Succeeds around c fd array count result m n n'

/-- What a write of some bytes has done that answers with success. -/
structure WriteReport (result : UInt32) (bs : List UInt8) (d d' : Descriptor) (after : Memory) : Prop where
  /-- The descriptor has taken all of them, -/
  receives : d.Receives bs d'
  /-- and what is reported is their number, or the largest word if there are more. -/
  reported : after.readWord result = .ok (byteCount bs)

/-- What a read of some bytes has done that answers with success. -/
structure ReadReport (result : UInt32) (buffers : List IoVec) (bs : List UInt8) (d d' : Descriptor)
    (before after : Memory) : Prop where
  /-- The descriptor has given them, -/
  gives : d.Gives bs d'
  /-- all of them were placed, and then the number was stored. -/
  placed : ∃ memory, Memory.scatter buffers bs before = .ok bs.length memory ∧
    after = memory.write result.toNat (wordBytes (UInt32.ofNat bs.length))
  /-- What is reported is what fits a word of their number. -/
  reported : after.readWord result = .ok (UInt32.ofNat bs.length)
  /-- As long as all of it does, that is what a write of them would report. -/
  right : bs.length < UInt32.size → after.readWord result = .ok (byteCount bs)
  /-- So a read for something that reports nothing has come to the end of the stream, or has brought a multiple of 2³²
  bytes. -/
  nothing : after.readWord result = .ok 0 → IoVec.capacity buffers ≠ 0 →
    (bs = [] ∧ d.AtEnd) ∨ (bs ≠ [] ∧ UInt32.size ∣ bs.length)

theorem WriteReport.of_counted {result n w : UInt32} {views : List View} {d d' : Descriptor}
    {m m' : Machine (Hosted Work Session)} (htaken : Descriptor.Received views n d d') (h : Counted result n m w m')
    (hw : w = Errno.success.raw) : WriteReport result (views.flatMap View.toList) d d' m'.memory where
  receives := htaken.receives
  reported := by rw [h.reported hw, htaken.count]

theorem ReadReport.of_places {result : UInt32} {buffers : List IoVec} {bs : List UInt8} {d d' : Descriptor}
    {before after : Memory} {e : Errno} (hgave : Descriptor.Gave (buffers.map IoVec.len) bs d d')
    (h : Places buffers bs result before e after) (he : e.raw = Errno.success.raw) :
    ReadReport result buffers bs d d' before after := by
  cases h with
  | stopped | uncounted => cases he
  | filled hscatter hresult =>
    have hfits : result.toNat + 4 ≤ (before.patched (IoVec.pieces buffers bs)).size := by rwa [Memory.size_patched]
    have hreported := Memory.readWord_write hfits (UInt32.ofNat bs.length)
    refine ⟨hgave.gives, ⟨_, hscatter, rfl⟩, hreported, fun hlt => by rw [hreported, byteCount_eq hlt], ?_⟩
    intro hzero hcapacity
    rw [hreported, Except.ok.injEq, ofNat_eq_zero_iff] at hzero
    by_cases hnone : bs = []
    · exact .inl ⟨hnone, hgave.atEnd hnone hcapacity⟩
    · exact .inr ⟨hnone, hzero⟩

namespace HostCall.Succeeds

variable {around : Surroundings} {m n n' : Machine (Hosted Work Session)} {fd array count result : UInt32}

theorem writeReport (h : fdWrite.Succeeds around fd array count result m n n')
    (hsize : m.memory.size ≤ UInt32.size) :
    ∃ d d', n.outer.host.stdio.get? fd.toNat = some d ∧ n'.outer.host.stdio.get? fd.toNat = some d' ∧
      WriteReport result (m.memory.contents (m.memory.buffers array count)) d d' n'.memory := by
  rw [← m.memory.flatMap_views array count]
  cases h with
  | atOnce hcall =>
    obtain ⟨d, k, d', hd, hr, hcounted⟩ := of_writeStream_ready hsize hcall rfl
    exact ⟨d, d', hd, hcounted.get? hd, .of_counted (.of_writev hr) hcounted rfl⟩
  | later hcall hwaits hfinish =>
    obtain ⟨w, hd, rfl⟩ := of_writeStream_suspend hsize hcall
    rw [← hwaits] at hd
    rcases Work.finish_write hd (((m.memory.views array count).filter fun v => v.size != 0).map View.toList) result with
      ⟨k, d', w', n₁, hr, hdone, hcounted⟩ | ⟨e, d', -, hdone⟩ <;> rw [hdone] at hfinish
    · rw [EStateM.Result.ok.injEq] at hfinish
      obtain ⟨hw, rfl⟩ := hfinish
      exact ⟨_, d', hd, hcounted.get? hd, .of_counted (.of_finishWrite hr) hcounted hw⟩
    · cases hfinish

theorem readReport (h : fdRead.Succeeds around fd array count result m n n')
    (hsize : m.memory.size ≤ UInt32.size) :
    ∃ d d' bs, n.outer.host.stdio.get? fd.toNat = some d ∧ n'.outer.host.stdio.get? fd.toNat = some d' ∧
      ReadReport result (m.memory.buffers array count) bs d d' n.memory n'.memory := by
  cases h with
  | atOnce hcall =>
    rcases of_readStream_ready hsize hcall with ⟨-, hw, -⟩ | ⟨-, -, hw, -⟩ |
      ⟨-, d, bs, d', e, memory, hd, hr, hplaces, hw, rfl⟩
    · cases hw
    · cases hw
    · exact ⟨d, d', bs, hd, Stdio.get?_put hd d', .of_places (.of_readv hr) hplaces hw.symm⟩
  | later hcall hwaits hfinish =>
    obtain ⟨r, hwaiting⟩ := exists_of_readStream_suspend hsize hcall
    obtain ⟨-, hfd, rfl, rfl⟩ := of_readStream_suspend hsize hcall
    obtain ⟨d, bs, d', e, memory, hd, hr, hplaces, hw, rfl⟩ := Work.of_finish_read hfd hfinish
    -- what is read now is the streaming input that the call has found
    rw [← hwaits, hd] at hwaiting
    cases hwaiting
    exact ⟨_, d', bs, hd, Stdio.get?_put hd d', .of_places (.of_finishRead hr) hplaces hw.symm⟩

end HostCall.Succeeds

/-- Whatever stands behind a descriptor, and however much is moved at once: a write that answers with success has had
all bytes taken, and reports their number, or the largest word if there are more. A read that does has placed all bytes
that it has taken, and reports their number modulo 2³². -/
theorem writes_saturate_and_reads_wrap (around : Surroundings) {m n n' : Machine (Hosted Work Session)}
    {fd array count result : UInt32} (hsize : m.memory.size ≤ UInt32.size) :
    (HostCall.fdWrite.Succeeds around fd array count result m n n' →
        ∃ d d', n.outer.host.stdio.get? fd.toNat = some d ∧ n'.outer.host.stdio.get? fd.toNat = some d' ∧
          WriteReport result (m.memory.contents (m.memory.buffers array count)) d d' n'.memory) ∧
      (HostCall.fdRead.Succeeds around fd array count result m n n' →
        ∃ d d' bs, n.outer.host.stdio.get? fd.toNat = some d ∧ n'.outer.host.stdio.get? fd.toNat = some d' ∧
          ReadReport result (m.memory.buffers array count) bs d d' n.memory n'.memory) :=
  ⟨fun h => h.writeReport hsize, fun h => h.readReport hsize⟩

/-! ## More bytes than a word counts -/

namespace HostCall.Succeeds

variable {m : Machine (Hosted Work Session)} {fd array count result : UInt32}

/-- Where everything lies in memory, a read of what was drained before the guest ran answers with success at once. -/
theorem of_bufferedInput (around : Surroundings) {r : BufferedInput} (hsize : m.memory.size ≤ UInt32.size)
    (hlists : m.memory.Lists array count) (hresult : result.toNat + 4 ≤ m.memory.size)
    (hd : m.outer.host.stdio.get? fd.toNat = some (.bufferedInput r)) :
    ∃ m', fdRead.Succeeds around fd array count result m m m' ∧
      m'.outer.host.stdio.get? fd.toNat =
        some (.bufferedInput (r.take ((m.memory.buffers array count).map IoVec.len)).2) := by
  have hcall : fdRead.run around [.i32 fd, .i32 array, .i32 count, .i32 result] m = _ :=
    readStream_of_holds hsize hlists.1 (Stdio.lt_of_get? hd)
  rcases readInto_cases hd (m.memory.buffers array count) result with
    ⟨bs, d', e, memory, hr, hinto, hplaces⟩ | ⟨hr, -⟩ | ⟨e, d', hr, -⟩ <;> cases hr
  rw [hinto] at hcall
  cases hplaces with
  | filled => exact ⟨_, .atOnce hcall, Stdio.get?_put hd _⟩
  | stopped hstops =>
    obtain ⟨v, hv, hout, -⟩ := hstops
    exact absurd (hlists.2 v (List.mem_of_getElem? hv)) hout
  | uncounted _ hshort => exact absurd hresult (Nat.not_le.2 hshort)

/-- Where everything lies in memory, so does a write that nobody takes. -/
theorem of_null (around : Surroundings) (hsize : m.memory.size ≤ UInt32.size)
    (hlists : m.memory.Lists array count) (hresult : result.toNat + 4 ≤ m.memory.size)
    (hd : m.outer.host.stdio.get? fd.toNat = some .null) :
    ∃ m', fdWrite.Succeeds around fd array count result m m m' := by
  have hwritten := written_writeStream result hsize hlists hd .null
  cases hcall : writeStream [.i32 fd, .i32 array, .i32 count, .i32 result] m with
  | error e m' =>
    rw [hcall] at hwritten
    cases hwritten
  | ok reply m' =>
    rw [hcall] at hwritten
    cases hwritten with
    | atOnce _ _ hcounted =>
      cases hcounted with
      | stored => exact ⟨_, .atOnce hcall⟩
      | refused hshort => exact absurd hresult (Nat.not_le.2 hshort)
    | later hstreaming =>
      obtain ⟨w, hw⟩ := hstreaming
      cases hd.symm.trans hw

end HostCall.Succeeds

/-- Sixteen buffers that all lie over the same 2²⁸ bytes. -/
def crowdedBuffers : List IoVec := List.replicate 16 ⟨0, 268435456⟩

/-- An input of 2³² bytes, of which none was read. -/
def crowdedInput : BufferedInput := ⟨some [], [⟨[0], 4294967296⟩], 0, Nat.zero_le _⟩

/-- A guest with that input and no output. The array of the buffers lies behind them. -/
def crowded : Machine (Hosted Work Session) where
  memory := (Memory.zeroed 268500992).write 268435456 (List.replicate 16 (wordBytes 0 ++ wordBytes 268435456)).flatten
  outer :=
    { host :=
        { args := []
          env := []
          stdio := ⟨.bufferedInput crowdedInput, .null, .null⟩
          filesystem := { memory := default, outer := {} } } }

theorem size_crowded : crowded.memory.size = 268500992 := Memory.size_write ..

theorem buffers_crowded : crowded.memory.buffers 268435456 16 = crowdedBuffers := by decide +kernel

theorem capacity_crowdedBuffers : IoVec.capacity crowdedBuffers = 4294967296 := by decide

theorem lists_crowded : crowded.memory.Lists 268435456 16 := by
  rw [Memory.Lists, buffers_crowded, Memory.HoldsArray, size_crowded]
  refine ⟨by decide, fun v hv => ?_⟩
  rw [List.eq_of_mem_replicate hv, IoVec.Fits, size_crowded]
  decide

/-- Its read brings 2³² bytes. -/
theorem length_of_crowdedInput {bs : List UInt8}
    (h : (Descriptor.bufferedInput crowdedInput).Gives bs
      (.bufferedInput (crowdedInput.take (crowdedBuffers.map IoVec.len)).2)) : bs.length = 4294967296 := by
  have hall : crowdedInput.remaining.length = 4294967296 := crowdedInput.length_remaining
  have hrest : (crowdedInput.take (crowdedBuffers.map IoVec.len)).2.remaining = [] := by
    have htotal : totalLength (crowdedBuffers.map IoVec.len) = 4294967296 := capacity_crowdedBuffers
    rw [BufferedInput.remaining_take, htotal, hall, Nat.min_self, ← hall, List.drop_length]
  cases h with
  | kept h => rw [← hall, h, hrest, List.append_nil]

theorem crowded_write_succeeds (around : Surroundings) :
    ∃ n', HostCall.fdWrite.Succeeds around 1 268435456 16 268435584 crowded crowded n' :=
  HostCall.Succeeds.of_null around (by rw [size_crowded]; decide) lists_crowded (by rw [size_crowded]; decide) rfl

theorem crowded_read_succeeds (around : Surroundings) :
    ∃ n', HostCall.fdRead.Succeeds around 0 268435456 16 268435584 crowded crowded n' ∧
      n'.outer.host.stdio.get? 0 =
        some (.bufferedInput (crowdedInput.take (crowdedBuffers.map IoVec.len)).2) := by
  rw [← buffers_crowded]
  exact HostCall.Succeeds.of_bufferedInput around (by rw [size_crowded]; decide) lists_crowded
    (by rw [size_crowded]; decide) rfl

/-- When the guest writes the buffers, it is told of as many bytes as a word counts. When it reads into them, it is told
of none. -/
theorem the_same_buffers_are_counted_twice :
    crowded.memory.size ≤ UInt32.size ∧
      (∃ n', HostCall.fdWrite.Succeeds ⟨0, fun _ => some 0⟩ 1 268435456 16 268435584 crowded crowded n' ∧
        n'.memory.readWord 268435584 = .ok 0xFFFFFFFF) ∧
      ∃ n' d' bs, HostCall.fdRead.Succeeds ⟨0, fun _ => some 0⟩ 0 268435456 16 268435584 crowded crowded n' ∧
        ReadReport 268435584 crowdedBuffers bs (.bufferedInput crowdedInput) d' crowded.memory n'.memory ∧
        bs.length = 4294967296 ∧ n'.memory.readWord 268435584 = .ok 0 := by
  have hsize : crowded.memory.size ≤ UInt32.size := by rw [size_crowded]; decide
  obtain ⟨m', hwrite⟩ := crowded_write_succeeds ⟨0, fun _ => some 0⟩
  obtain ⟨n', hread, hleft⟩ := crowded_read_succeeds ⟨0, fun _ => some 0⟩
  obtain ⟨_, _, -, -, hwrote⟩ := (writes_saturate_and_reads_wrap ⟨0, fun _ => some 0⟩ hsize).1 hwrite
  obtain ⟨d, d', bs, hd, hd', hreport⟩ := (writes_saturate_and_reads_wrap ⟨0, fun _ => some 0⟩ hsize).2 hread
  rw [buffers_crowded] at hwrote hreport
  cases hd
  cases hleft.symm.trans hd'
  have hbs := length_of_crowdedInput hreport.gives
  refine ⟨hsize, ⟨m', hwrite, ?_⟩, n', _, bs, hread, hreport, hbs, ?_⟩
  · rw [hwrote.reported, byteCount, Memory.length_contents, capacity_crowdedBuffers]
    rfl
  · rw [hreport.reported, hbs]
    rfl

/-- A read does not always report the number of its bytes, or the largest word if there are more. -/
theorem reads_do_not_saturate :
    ¬ ∀ (around : Surroundings) (m n n' : Machine (Hosted Work Session)) (fd array count result : UInt32),
      m.memory.size ≤ UInt32.size → HostCall.fdRead.Succeeds around fd array count result m n n' →
        ∃ d d' bs, n.outer.host.stdio.get? fd.toNat = some d ∧ n'.outer.host.stdio.get? fd.toNat = some d' ∧
          d.Gives bs d' ∧ n'.memory.readWord result = .ok (byteCount bs) := by
  intro h
  have hsize : crowded.memory.size ≤ UInt32.size := by rw [size_crowded]; decide
  obtain ⟨n', hread, hleft⟩ := crowded_read_succeeds ⟨0, fun _ => some 0⟩
  -- what the read has given is told by the input before and after it
  have hlength {bs : List UInt8} {d d' : Descriptor} (hd : crowded.outer.host.stdio.get? 0 = some d)
      (hd' : n'.outer.host.stdio.get? 0 = some d') (hgives : d.Gives bs d') : bs.length = 4294967296 := by
    cases hd
    cases hleft.symm.trans hd'
    exact length_of_crowdedInput hgives
  obtain ⟨d, d', bs, hd, hd', hgives, hclaimed⟩ := h _ _ _ _ _ _ _ _ hsize hread
  obtain ⟨d₁, d₁', bs₁, hd₁, hd₁', hreport⟩ := hread.readReport hsize
  rw [hreport.reported, byteCount, hlength hd hd' hgives, hlength hd₁ hd₁' hreport.gives] at hclaimed
  exact absurd hclaimed (by decide)

end GuestHost
