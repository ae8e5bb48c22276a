/-
  GuestHost.Proofs.Session.Reads — where the bytes of a read go.

  A read decodes its array before it asks the descriptor for bytes, and that is the last time that it looks at the
  array. The bytes are placed in the buffers that were found then, from left to right, and their number after them;
  so neither a buffer that lies over the array nor what the guest's memory has become in the meantime changes where
  they go.

  Proved:
  - `Places`, `places_placeRead`: what placing bytes comes to.
  - `HostCall.readInto_cases`, `Work.finish_read`: both ways for a read to end.
  - `scattered_bytes_can_be_gathered`: spreading and gathering, and what a read has done that succeeded.
-/

import GuestHost.Proofs.Session.Transfers
import GuestHost.Proofs.Stream.Pulls

namespace GuestHost

open Exec

/-! ## Bytes that come from a descriptor -/

namespace Descriptor

variable {lens : List UInt32} {d d' : Descriptor} {bs : List UInt8}

/-- A descriptor gives no more bytes than are asked for. -/
theorem length_readv (h : Descriptor.readv lens d = .ok (.ready bs) d') : bs.length ≤ totalLength lens := by
  cases d with
  | null => cases h; exact Nat.zero_le _
  | bufferedInput r =>
    cases h
    exact Nat.le_trans (List.length_take_le _ _) (Nat.min_le_left _ _)
  | streamingInput r =>
    simp only [Descriptor.readv] at h
    split at h <;> cases h
    exact Nat.zero_le _
  | bufferedOutput w | streamingOutput w => cases h

theorem length_finishRead (h : Descriptor.finishRead lens d = .ok bs d') : bs.length ≤ totalLength lens := by
  cases d with
  | streamingInput r =>
    simp only [Descriptor.finishRead, within] at h
    split at h <;> cases h
    next r' hfill =>
    obtain ⟨pulls, -, hfills⟩ := StreamingInput.noted_of_fill hfill
    exact hfills.length_le
  | null | bufferedInput r | bufferedOutput w | streamingOutput w => cases h; exact Nat.zero_le _

/-- A read that is left to be finished has the lengths that were asked for, and was not begun. -/
theorem of_readv_pending {work : PendingRead} (h : Descriptor.readv lens d = .ok (.pending work) d') :
    work = lens ∧ d' = d := by
  cases d with
  | streamingInput r =>
    simp only [Descriptor.readv] at h
    split at h <;> cases h
    exact ⟨rfl, rfl⟩
  | null | bufferedInput r | bufferedOutput w | streamingOutput w => cases h

end Descriptor

/-! ## Placing them -/

/-- What placing the bytes of a read in a memory comes to: the code that tells how it went, and the memory. -/
inductive Places (buffers : List IoVec) (bs : List UInt8) (result : UInt32) (m : Memory) : Errno → Memory → Prop
  /-- The bytes lie in the buffers, from left to right, and their number over them. -/
  | filled (hscatter : Memory.scatter buffers bs m = .ok bs.length (m.patched (IoVec.pieces buffers bs)))
      (hresult : result.toNat + 4 ≤ m.size) :
      Places buffers bs result m .success
        ((m.patched (IoVec.pieces buffers bs)).write result.toNat (wordBytes (UInt32.ofNat bs.length)))
  /-- A buffer that bytes come to is out of bounds. -/
  | stopped {i : Nat} {e : MarshalError} {m' : Memory} (h : m.Stops buffers bs.length i)
      (hscatter : Memory.scatter buffers bs m = .error e m') : Places buffers bs result m .fault m'
  /-- There is no place for the number. -/
  | uncounted (hscatter : Memory.scatter buffers bs m = .ok bs.length (m.patched (IoVec.pieces buffers bs)))
      (hresult : m.size < result.toNat + 4) :
      Places buffers bs result m .fault (m.patched (IoVec.pieces buffers bs))

theorem places_placeRead {buffers : List IoVec} {bs : List UInt8} (hlen : bs.length ≤ IoVec.capacity buffers)
    (result : UInt32) (m : Machine (Hosted Work Session)) :
    ∃ e memory, HostCall.marshal (placeRead buffers bs result) m = .ok e { m with memory } ∧
      Places buffers bs result m.memory e memory := by
  by_cases hstops : ∃ i, m.memory.Stops buffers bs.length i
  · obtain ⟨i, hi⟩ := hstops
    obtain ⟨j, hj, hfirst⟩ := hi.first
    obtain ⟨v, memory, -, -, herror⟩ := Memory.scatter_eq_error hj hfirst
    exact ⟨_, _, HostCall.marshal_of_error (bind_of_error herror), .stopped hi herror⟩
  · have hscatter := Memory.scatter_eq_ok (not_exists.1 hstops)
    rw [Nat.min_eq_left hlen] at hscatter
    by_cases hresult : result.toNat + 4 ≤ m.memory.size
    · refine ⟨_, _, HostCall.marshal_of_ok ((bind_of_ok hscatter).trans (Memory.writeWord_eq_ok ?_)),
        .filled hscatter hresult⟩
      rwa [Memory.size_patched]
    · have hlt := Nat.not_le.1 hresult
      refine ⟨_, _, HostCall.marshal_of_error ((bind_of_ok hscatter).trans (Memory.writeWord_eq_error ?_)),
        .uncounted hscatter hlt⟩
      rwa [Memory.size_patched]

/-! ## Both ways for a read to end -/

section

variable {m : Machine (Hosted Work Session)} {fd : Nat} {d : Descriptor}

theorem HostCall.readInto_cases (hd : m.outer.host.stdio.get? fd = some d) (buffers : List IoVec) (result : UInt32) :
    (∃ bs d' e memory, Descriptor.readv (buffers.map IoVec.len) d = .ok (.ready bs) d' ∧
        readInto fd buffers result m = .ok (.ready e.raw) { m.putStream fd d' with memory } ∧
        Places buffers bs result m.memory e memory) ∨
      (Descriptor.readv (buffers.map IoVec.len) d = .ok (.pending (buffers.map IoVec.len)) d ∧
        readInto fd buffers result m = .ok (.suspend (.read fd (buffers.map IoVec.len) buffers result)) m) ∨
      ∃ e d', Descriptor.readv (buffers.map IoVec.len) d = .error e d' ∧
        readInto fd buffers result m = .error (.stream e) (m.putStream fd d') := by
  cases hr : Descriptor.readv (buffers.map IoVec.len) d with
  | error e d' => exact .inr (.inr ⟨e, d', rfl, bind_of_error (Session.onStream_of_error _ hd hr)⟩)
  | ok t d' =>
    cases t with
    | ready bs =>
      obtain ⟨e, memory, hmarshal, hplaces⟩ := places_placeRead (Descriptor.length_readv hr) result (m.putStream fd d')
      exact .inl ⟨bs, d', e, memory, rfl,
        (bind_of_ok (Session.onStream_of_ok _ hd hr)).trans (bind_of_ok hmarshal), hplaces⟩
    | pending work =>
      obtain ⟨rfl, rfl⟩ := Descriptor.of_readv_pending hr
      have hcall := Session.onStream_of_ok (.ready []) hd hr
      rw [Machine.putStream_same hd] at hcall
      exact .inr (.inl ⟨rfl, bind_of_ok hcall⟩)

theorem Work.finish_read (hd : m.outer.host.stdio.get? fd = some d) (buffers : List IoVec) (result : UInt32) :
    (∃ bs d' e memory, Descriptor.finishRead (buffers.map IoVec.len) d = .ok bs d' ∧
        (Work.read fd (buffers.map IoVec.len) buffers result).finish m = .ok e.raw { m.putStream fd d' with memory } ∧
        Places buffers bs result m.memory e memory) ∨
      ∃ e d', Descriptor.finishRead (buffers.map IoVec.len) d = .error e d' ∧
        (Work.read fd (buffers.map IoVec.len) buffers result).finish m = .error (.stream e) (m.putStream fd d') := by
  cases hr : Descriptor.finishRead (buffers.map IoVec.len) d with
  | error e d' => exact .inr ⟨e, d', rfl, bind_of_error (Session.onStream_of_error _ hd hr)⟩
  | ok bs d' =>
    obtain ⟨e, memory, hmarshal, hplaces⟩ :=
      places_placeRead (Descriptor.length_finishRead hr) result (m.putStream fd d')
    exact .inl ⟨bs, d', e, memory, rfl,
      (bind_of_ok (Session.onStream_of_ok _ hd hr)).trans (bind_of_ok hmarshal), hplaces⟩

end

section

variable {m m' : Machine (Hosted Work Session)} {fd array count result w : UInt32}

/-- A call does nothing if its array is out of bounds or its number is not that of a standard descriptor. -/
theorem HostCall.readStream_cases (hsize : m.memory.size ≤ UInt32.size) (fd array count result : UInt32) :
    (¬ m.memory.HoldsArray array count ∧
        readStream [.i32 fd, .i32 array, .i32 count, .i32 result] m = .ok (.ready Errno.fault.raw) m) ∨
      (m.memory.HoldsArray array count ∧ 3 ≤ fd.toNat ∧
        readStream [.i32 fd, .i32 array, .i32 count, .i32 result] m = .ok (.ready Errno.badf.raw) m) ∨
      (m.memory.HoldsArray array count ∧ ∃ d, m.outer.host.stdio.get? fd.toNat = some d ∧
        readStream [.i32 fd, .i32 array, .i32 count, .i32 result] m =
          readInto fd.toNat (m.memory.buffers array count) result m) := by
  by_cases harray : m.memory.HoldsArray array count
  case neg => exact .inl ⟨harray, readStream_of_not hsize harray⟩
  by_cases hfd : 3 ≤ fd.toNat
  · exact .inr (.inl ⟨harray, hfd, readStream_of_badf hsize harray hfd⟩)
  · obtain ⟨d, hd⟩ := m.outer.host.stdio.get?_of_lt (Nat.not_le.1 hfd)
    exact .inr (.inr ⟨harray, d, hd, readStream_of_holds hsize harray (Nat.not_le.1 hfd)⟩)

/-- A call that answers was refused, or has taken and placed some bytes. -/
theorem HostCall.of_readStream_ready (hsize : m.memory.size ≤ UInt32.size)
    (h : readStream [.i32 fd, .i32 array, .i32 count, .i32 result] m = .ok (.ready w) m') :
    (¬ m.memory.HoldsArray array count ∧ w = Errno.fault.raw ∧ m' = m) ∨
      (m.memory.HoldsArray array count ∧ 3 ≤ fd.toNat ∧ w = Errno.badf.raw ∧ m' = m) ∨
      (m.memory.HoldsArray array count ∧ ∃ d bs d' e memory, m.outer.host.stdio.get? fd.toNat = some d ∧
        Descriptor.readv ((m.memory.buffers array count).map IoVec.len) d = .ok (.ready bs) d' ∧
        Places (m.memory.buffers array count) bs result m.memory e memory ∧ w = e.raw ∧
        m' = { m.putStream fd.toNat d' with memory }) := by
  rcases readStream_cases hsize fd array count result with
    ⟨harray, hcall⟩ | ⟨harray, hfd, hcall⟩ | ⟨harray, d, hd, hcall⟩ <;> rw [hcall] at h
  · cases h
    exact .inl ⟨harray, rfl, rfl⟩
  · cases h
    exact .inr (.inl ⟨harray, hfd, rfl, rfl⟩)
  · rcases readInto_cases hd (m.memory.buffers array count) result with
      ⟨bs, d', e, memory, hr, hinto, hplaces⟩ | ⟨-, hinto⟩ | ⟨e, d', -, hinto⟩ <;> rw [hinto] at h
    · rw [EStateM.Result.ok.injEq, Reply.ready.injEq] at h
      exact .inr (.inr ⟨harray, d, bs, d', e, memory, hd, hr, hplaces, h.1.symm, h.2.symm⟩)
    · cases h
    · cases h

/-- A call that suspends the guest has done nothing yet. -/
theorem HostCall.of_readStream_suspend {work : Work} (hsize : m.memory.size ≤ UInt32.size)
    (h : readStream [.i32 fd, .i32 array, .i32 count, .i32 result] m = .ok (.suspend work) m') :
    m.memory.HoldsArray array count ∧ fd.toNat < 3 ∧ m' = m ∧
      work = .read fd.toNat ((m.memory.buffers array count).map IoVec.len) (m.memory.buffers array count) result := by
  rcases readStream_cases hsize fd array count result with
    ⟨-, hcall⟩ | ⟨-, -, hcall⟩ | ⟨harray, d, hd, hcall⟩ <;> rw [hcall] at h
  · cases h
  · cases h
  · rcases readInto_cases hd (m.memory.buffers array count) result with
      ⟨bs, d', e, memory, -, hinto, -⟩ | ⟨-, hinto⟩ | ⟨e, d', -, hinto⟩ <;> rw [hinto] at h <;> cases h
    exact ⟨harray, Stdio.lt_of_get? hd, rfl, rfl⟩

/-- Work of a read that was finished has taken and placed some bytes. -/
theorem Work.of_finish_read {fd : Nat} {buffers : List IoVec} (hfd : fd < 3)
    (h : (Work.read fd (buffers.map IoVec.len) buffers result).finish m = .ok w m') :
    ∃ d bs d' e memory, m.outer.host.stdio.get? fd = some d ∧
      Descriptor.finishRead (buffers.map IoVec.len) d = .ok bs d' ∧ Places buffers bs result m.memory e memory ∧
      w = e.raw ∧ m' = { m.putStream fd d' with memory } := by
  obtain ⟨d, hd⟩ := m.outer.host.stdio.get?_of_lt hfd
  rcases finish_read hd buffers result with ⟨bs, d', e, memory, hr, hfinish, hplaces⟩ | ⟨e, d', -, hfinish⟩
  · rw [hfinish, EStateM.Result.ok.injEq] at h
    exact ⟨d, bs, d', e, memory, hd, hr, hplaces, h.1.symm, h.2.symm⟩
  · rw [hfinish] at h
    cases h

end

/-! ## Reads that succeed -/

/-- What spreading bytes over a list of buffers comes to, however these lie. -/
structure Memory.Scatters (m : Memory) (vs : List IoVec) (bs : List UInt8) : Prop where
  /-- From buffers in memory that share no address the bytes can be gathered again, as many as have a place. Behind
  them the buffers hold what they held, and so does all the rest of the memory. -/
  gathered : (∀ v ∈ vs, v.Fits m) → vs.Pairwise IoVec.Apart →
    ∃ n m' before after, n = min bs.length (IoVec.capacity vs) ∧ m.gather vs = .ok before ∧
      scatter vs bs m = .ok n m' ∧ m'.gather vs = .ok after ∧
      after.flatMap View.toList = bs.take n ++ (before.flatMap View.toList).drop n ∧
      m'.size = m.size ∧ ∀ a, (∀ v ∈ vs, ¬ v.Covers a) → m'.byte a = m.byte a
  /-- It fails exactly if a buffer out of bounds comes before all bytes have a place. -/
  fails_iff : (∃ e m', scatter vs bs m = .error e m') ↔ ∃ i, m.Stops vs bs.length i
  /-- What it has stored then is what the buffers before the first such one got. -/
  partially : ∀ i, m.Stops vs bs.length i → (∀ j < i, ¬ m.Stops vs bs.length j) →
    ∃ n e m', scatter (vs.take i) bs m = .ok n m' ∧ scatter vs bs m = .error e m'
  /-- The buffers that come after all bytes have a place do not matter. -/
  unreached : ∀ k ws, bs.length ≤ IoVec.capacity (vs.take k) →
    scatter (vs.take k ++ ws) bs = scatter (vs.take k) bs

theorem Memory.scatters (m : Memory) (vs : List IoVec) (bs : List UInt8) : m.Scatters vs bs where
  gathered hfits hapart := by
    have hnone (i : Nat) : ¬ m.Stops vs bs.length i := by
      rintro ⟨v, hv, hout, -⟩
      exact hout (hfits v (List.mem_of_getElem? hv))
    let m' := m.patched (IoVec.pieces vs bs)
    have hfits' : ∀ v ∈ vs, v.Fits m' := fun v hv => by rw [IoVec.Fits, size_patched]; exact hfits v hv
    have hbefore := (m.gather_eq_ok_iff vs _).2 ⟨hfits, rfl⟩
    have hafter := (m'.gather_eq_ok_iff vs _).2 ⟨hfits', rfl⟩
    refine ⟨_, m', _, _, rfl, hbefore, scatter_eq_ok hnone, hafter, ?_, size_patched .., fun a ha => ?_⟩
    · rw [gather_contents hafter, gather_contents hbefore, contents_patched hfits hapart]
      rcases Nat.le_total bs.length (IoVec.capacity vs) with hle | hle
      · rw [Nat.min_eq_left hle, List.take_of_length_le hle, List.take_length]
      · rw [Nat.min_eq_right hle, List.drop_of_length_le (by rwa [length_contents]),
          List.drop_of_length_le (Nat.le_of_eq (length_contents m vs))]
    · refine byte_patched fun p hp hcovers => ?_
      obtain ⟨v, hv, hcovers⟩ := IoVec.covers_of_piece hp hcovers
      exact ha v hv hcovers
  fails_iff := by
    constructor
    · rintro ⟨e, m', herror⟩
      by_cases hnone : ∃ i, m.Stops vs bs.length i
      · exact hnone
      · rw [scatter_eq_ok (not_exists.1 hnone)] at herror
        cases herror
    · rintro ⟨i, hi⟩
      obtain ⟨j, hj, hfirst⟩ := hi.first
      obtain ⟨v, m', -, -, herror⟩ := scatter_eq_error hj hfirst
      exact ⟨_, m', herror⟩
  partially i hi hfirst := by
    obtain ⟨v, m', -, hok, herror⟩ := scatter_eq_error hi hfirst
    exact ⟨_, _, m', hok, herror⟩
  unreached k ws hk := by
    have hfirst : (vs.take k ++ ws).take (vs.take k).length = vs.take k := List.take_left
    rw [← hfirst] at hk
    have htake := scatter_take hk
    rwa [hfirst] at htake

/-- What a read has done that answered with success. The buffers are those that the array listed in the memory `called`,
at the call. On the machine `n` bytes were taken from the descriptor, were put into these buffers, from left to right,
and then their number was stored; which left `n'`. -/
structure ReadWell (called : Memory) (fd array count result : UInt32)
    (take : List UInt32 → Descriptor → List UInt8 → Descriptor → Prop) (n n' : Machine (Hosted Work Session)) :
    Prop where
  holds : called.HoldsArray array count
  done : ∃ d bs d' placed, n.outer.host.stdio.get? fd.toNat = some d ∧
    take ((called.buffers array count).map IoVec.len) d bs d' ∧
    Memory.scatter (called.buffers array count) bs n.memory = .ok bs.length placed ∧
    placed = n.memory.patched (IoVec.pieces (called.buffers array count) bs) ∧
    n' = { n.putStream fd.toNat d' with memory := placed.write result.toNat (wordBytes (UInt32.ofNat bs.length)) }

theorem Places.of_success {buffers : List IoVec} {bs : List UInt8} {result : UInt32} {m memory : Memory} {e : Errno}
    (h : Places buffers bs result m e memory) (he : e.raw = Errno.success.raw) :
    Memory.scatter buffers bs m = .ok bs.length (m.patched (IoVec.pieces buffers bs)) ∧
      memory = (m.patched (IoVec.pieces buffers bs)).write result.toNat (wordBytes (UInt32.ofNat bs.length)) := by
  cases h with
  | filled hscatter _ => exact ⟨hscatter, rfl⟩
  | stopped | uncounted => cases he

/-- Spreading bytes over buffers, and gathering them again. So a read that answers with success, at once or when its
work is finished, has put the bytes of the stream where the array said at the call. -/
theorem scattered_bytes_can_be_gathered (memory : Memory) (vs : List IoVec) (bs : List UInt8) (around : Surroundings)
    (m : Machine (Hosted Work Session)) (fd array count result : UInt32) (hsize : m.memory.size ≤ UInt32.size) :
    memory.Scatters vs bs ∧
      (∀ m', HostCall.fdRead.run around [.i32 fd, .i32 array, .i32 count, .i32 result] m =
          .ok (.ready Errno.success.raw) m' →
        ReadWell m.memory fd array count result (fun lens d bs d' => Descriptor.readv lens d = .ok (.ready bs) d')
          m m') ∧
      ∀ work m₁, HostCall.fdRead.run around [.i32 fd, .i32 array, .i32 count, .i32 result] m =
          .ok (.suspend work) m₁ →
        ∀ n n', work.finish n = .ok Errno.success.raw n' →
          ReadWell m.memory fd array count result (fun lens d bs d' => Descriptor.finishRead lens d = .ok bs d')
            n n' := by
  refine ⟨memory.scatters vs bs, fun m' h => ?_, fun work m₁ h n n' hfinish => ?_⟩
  · rcases HostCall.of_readStream_ready hsize h with ⟨-, hw, -⟩ | ⟨-, -, hw, -⟩ |
      ⟨harray, d, bs, d', e, memory, hd, hr, hplaces, hw, rfl⟩
    · exact absurd hw (by decide)
    · exact absurd hw (by decide)
    · obtain ⟨hscatter, rfl⟩ := hplaces.of_success hw.symm
      exact ⟨harray, d, bs, d', _, hd, hr, hscatter, rfl, rfl⟩
  · obtain ⟨harray, hfd, -, rfl⟩ := HostCall.of_readStream_suspend hsize h
    obtain ⟨d, bs, d', e, memory, hd, hr, hplaces, hw, rfl⟩ := Work.of_finish_read hfd hfinish
    obtain ⟨hscatter, rfl⟩ := hplaces.of_success hw.symm
    exact ⟨harray, d, bs, d', _, hd, hr, hscatter, rfl, rfl⟩

/-- A guest with twelve bytes of input to come, and at the start of its memory an array of two buffers, which both lie
over the array. -/
def overlaid : Machine (Hosted Work Session) where
  memory := (Memory.zeroed 64).write 0 (wordBytes 4 ++ wordBytes 8 ++ wordBytes 0 ++ wordBytes 4)
  outer :=
    { host :=
        { args := []
          env := []
          stdio := Options.stdio { stdin := some [.bytes [1, 2, 3, 4, 5, 6, 7, 8, 9, 10, 11, 12]] }
          filesystem := { memory := default, outer := {} } } }

def overlaidBuffers : List IoVec := [⟨4, 8⟩, ⟨0, 4⟩]

/-- The bytes go where the array has pointed, the last of them over its first entry. -/
theorem a_read_fills_its_own_array :
    overlaid.memory.size ≤ UInt32.size ∧ overlaid.memory.buffers 0 2 = overlaidBuffers ∧
      overlaid.memory.Scatters overlaidBuffers [1, 2, 3] ∧
      ∃ work n', HostCall.fdRead.run ⟨0, fun _ => some 0⟩ [.i32 0, .i32 0, .i32 2, .i32 32] overlaid =
          .ok (.suspend work) overlaid ∧
        work.finish overlaid = .ok Errno.success.raw n' ∧
        ReadWell overlaid.memory 0 0 2 32 (fun lens d bs d' => Descriptor.finishRead lens d = .ok bs d') overlaid n' ∧
        n'.memory.read 0 12 = [9, 10, 11, 12, 1, 2, 3, 4, 5, 6, 7, 8] := by
  have hsize : overlaid.memory.size ≤ UInt32.size := by decide +kernel
  have hbuffers : overlaid.memory.buffers 0 2 = overlaidBuffers := by decide +kernel
  have hcall : HostCall.readStream [.i32 0, .i32 0, .i32 2, .i32 32] overlaid =
      .ok (.suspend (.read 0 [8, 4] overlaidBuffers 32)) overlaid := by
    rw [HostCall.readStream_of_holds hsize (by decide +kernel) (by decide), hbuffers]
    rfl
  have hfinish : ∃ n', (Work.read 0 [8, 4] overlaidBuffers 32).finish overlaid = .ok Errno.success.raw n' ∧
      n'.memory.read 0 12 = [9, 10, 11, 12, 1, 2, 3, 4, 5, 6, 7, 8] := ⟨_, rfl, by decide +kernel⟩
  obtain ⟨n', hfinish, hbytes⟩ := hfinish
  obtain ⟨hscatters, -, hread⟩ := scattered_bytes_can_be_gathered overlaid.memory overlaidBuffers [1, 2, 3]
    ⟨0, fun _ => some 0⟩ overlaid 0 0 2 32 hsize
  exact ⟨hsize, hbuffers, hscatters, _, n', hcall, hfinish, hread _ _ hcall _ _ hfinish, hbytes⟩

end GuestHost
