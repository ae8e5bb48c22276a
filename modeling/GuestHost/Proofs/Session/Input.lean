/-
  GuestHost.Proofs.Session.Input — what becomes of the bytes of the standard input.

  A read takes its bytes from the input first, and then looks where they are to go. So a read that answers with a fault
  has cost the guest whatever it took, unless its array was out of bounds, which is seen before. What the source has is
  at every moment placed, lost in a fault, or still to come (`InputRead.Account`):

      content of the source  =  bytes that were taken, read by read  ++  bytes still to come

  Reads are followed from one to the next by the input alone. Between two of them, and between the two halves of one,
  the guest's memory may become anything.

  Proved:
  - `Descriptor.Offers.serves`: a read of an input, on the descriptor.
  - `InputRead.account_of_takes`, `InputRead.account_of_inTurn`: one read, and any number of them.
  - `input_is_placed_lost_or_to_come`: all reads of the standard input of a run, in both modes.
  - `not_all_input_reaches_the_guest`: the reads that answer with success may miss some of it.
-/

import GuestHost.Proofs.Session.Reads
import GuestHost.Proofs.Stream.Inputs

namespace GuestHost

open Exec

/-! ## One read -/

/-- An input gives the next of its bytes: at once, or when the read is finished. -/
theorem Descriptor.Offers.serves {bytes : List UInt8} {streaming : Bool} {d : Descriptor} (h : d.Offers bytes streaming)
    (lens : List UInt32) :
    ((∃ bs more d', Descriptor.readv lens d = .ok (.ready bs) d' ∧ bytes = bs ++ more ∧ d'.Offers more streaming) ∨
        Descriptor.readv lens d = .ok (.pending lens) d) ∧
      ∃ bs more d', Descriptor.finishRead lens d = .ok bs d' ∧ bytes = bs ++ more ∧ d'.Offers more streaming := by
  cases h with
  | @buffered r h =>
    subst h
    exact ⟨.inl ⟨_, _, _, rfl, (List.take_append_drop ..).symm, .buffered (r.remaining_take lens)⟩,
      [], _, _, rfl, rfl, .buffered rfl⟩
  | @streaming r h =>
    obtain ⟨bs, more, r', hfill, hbytes, h', -⟩ := StreamingInput.fill_plain lens h
    refine ⟨?_, bs, more, _, by rw [finishRead, hfill, within], hbytes, .streaming h'⟩
    by_cases hempty : lens.all (· == 0) = true
    · exact .inl ⟨[], bytes, _, by simp only [Descriptor.readv, hempty, if_true], rfl, .streaming h⟩
    · exact .inr (by rw [Descriptor.readv, if_neg hempty])

structure InputRead where
  array : UInt32
  count : UInt32
  result : UInt32
  /-- The guest's memory at the call. -/
  called : Memory
  /-- The guest's memory when the bytes arrive. -/
  before : Memory
  /-- The guest's memory when the call has answered. -/
  after : Memory
  answer : UInt32

namespace InputRead

/-- The buffers that the array listed at the call. -/
def buffers (r : InputRead) : List IoVec := r.called.buffers r.array r.count

/-- The read was made where `d` stood behind the standard input, and left `d'` there. If it was not answered at once,
the input had to wait for it; nothing else had to. -/
inductive Takes (around : Surroundings) : Descriptor → InputRead → Descriptor → Prop
  | atOnce {m m' : Machine (Hosted Work Session)} {array count result w : UInt32}
      (hsize : m.memory.size ≤ UInt32.size)
      (hcall : HostCall.fdRead.run around [.i32 0, .i32 array, .i32 count, .i32 result] m = .ok (.ready w) m') :
      Takes around m.outer.host.stdio.input ⟨array, count, result, m.memory, m.memory, m'.memory, w⟩
        m'.outer.host.stdio.input
  | later {m m₁ n n' : Machine (Hosted Work Session)} {array count result w : UInt32} {work : Work}
      (hsize : m.memory.size ≤ UInt32.size)
      (hcall : HostCall.fdRead.run around [.i32 0, .i32 array, .i32 count, .i32 result] m = .ok (.suspend work) m₁)
      (hwaits : n.outer.host.stdio.input = m₁.outer.host.stdio.input) (hfinish : work.finish n = .ok w n') :
      Takes around m.outer.host.stdio.input ⟨array, count, result, m.memory, n.memory, n'.memory, w⟩
        n'.outer.host.stdio.input

inductive Account (r : InputRead) : List UInt8 → Prop
  /-- They lie in the buffers, from left to right, and their number is stored. -/
  | placed {bs : List UInt8} (hanswer : r.answer = Errno.success.raw)
      (hmemory : r.after = (r.before.patched (IoVec.pieces r.buffers bs)).write r.result.toNat
        (wordBytes (UInt32.ofNat bs.length))) : Account r bs
  /-- The array was out of bounds, and nothing was done. -/
  | refused (hanswer : r.answer = Errno.fault.raw) (harray : ¬ r.called.HoldsArray r.array r.count)
      (hmemory : r.after = r.before) : Account r []
  /-- A buffer that they came to was out of bounds, or there was no place for their number. -/
  | lost {bs : List UInt8} (hanswer : r.answer = Errno.fault.raw) (harray : r.called.HoldsArray r.array r.count)
      (hbad : (∃ i, r.before.Stops r.buffers bs.length i) ∨ r.before.size < r.result.toNat + 4) : Account r bs

/-- Placing bytes where a read wants them accounts for them. -/
theorem account_of_places {r : InputRead} {bs : List UInt8} {e : Errno} {memory : Memory}
    (harray : r.called.HoldsArray r.array r.count) (h : Places r.buffers bs r.result r.before e memory)
    (hanswer : r.answer = e.raw) (hafter : r.after = memory) : Account r bs := by
  cases h with
  | filled _ _ => exact .placed hanswer hafter
  | stopped hstops _ => exact .lost hanswer harray (.inl ⟨_, hstops⟩)
  | uncounted _ hresult => exact .lost hanswer harray (.inr hresult)

variable {around : Surroundings} {bytes : List UInt8} {streaming : Bool} {d d' : Descriptor}

theorem account_of_takes {r : InputRead} (h : Takes around d r d') (hd : d.Offers bytes streaming) :
    ∃ bs more, bytes = bs ++ more ∧ d'.Offers more streaming ∧ Account r bs := by
  cases h with
  | @atOnce m m' array count result w hsize hcall =>
    rcases HostCall.of_readStream_ready hsize hcall with ⟨harray, rfl, rfl⟩ | ⟨-, hfd, -⟩ |
      ⟨harray, d₀, bs, d', e, memory, hget, hr, hplaces, rfl, rfl⟩
    · exact ⟨[], bytes, rfl, hd, .refused rfl harray rfl⟩
    · exact absurd hfd (by decide)
    · cases hget
      rcases (hd.serves ((m.memory.buffers array count).map IoVec.len)).1 with
        ⟨bs', more, d₁, hserves, hbytes, hoffers⟩ | hserves
      · rw [hr] at hserves
        cases hserves
        exact ⟨bs, more, hbytes, hoffers, account_of_places harray hplaces rfl rfl⟩
      · rw [hr] at hserves
        cases hserves
  | @later m m₁ n n' array count result w work hsize hcall hwaits hfinish =>
    obtain ⟨harray, hfd, rfl, rfl⟩ := HostCall.of_readStream_suspend hsize hcall
    obtain ⟨d₀, bs, d', e, memory, hget, hr, hplaces, rfl, rfl⟩ := Work.of_finish_read hfd hfinish
    cases hget
    rw [← hwaits] at hd
    obtain ⟨bs', more, d₁, hserves, hbytes, hoffers⟩ := (hd.serves ((m₁.memory.buffers array count).map IoVec.len)).2
    rw [hr] at hserves
    cases hserves
    exact ⟨bs, more, hbytes, hoffers, account_of_places harray hplaces rfl rfl⟩

/-! ## Reads, one after the other -/

/-- Reads that follow each other: each finds the input as the one before it has left it. -/
inductive InTurn (around : Surroundings) : Descriptor → List InputRead → Descriptor → Prop
  | none (d : Descriptor) : InTurn around d [] d
  | next {d d₁ d' : Descriptor} {r : InputRead} {rest : List InputRead} (h : Takes around d r d₁)
      (hrest : InTurn around d₁ rest d') : InTurn around d (r :: rest) d'

theorem account_of_inTurn {reads : List InputRead} (h : InTurn around d reads d') (hd : d.Offers bytes streaming) :
    ∃ takens left, bytes = takens.flatten ++ left ∧ d'.Offers left streaming ∧ List.Forall₂ Account reads takens := by
  induction h generalizing bytes with
  | none d => exact ⟨[], bytes, rfl, hd, .nil⟩
  | next hfirst _ ih =>
    obtain ⟨bs, more, rfl, hmore, haccount⟩ := account_of_takes hfirst hd
    obtain ⟨takens, left, rfl, hleft, haccounts⟩ := ih hmore
    exact ⟨bs :: takens, left, (List.append_assoc ..).symm, hleft, .cons haccount haccounts⟩

/-- A read of the standard input that is called on `m` is answered: at once, or when its work is finished. -/
def Answered (around : Surroundings) (m : Machine (Hosted Work Session)) (array count result : UInt32) : Prop :=
  (∃ w m', HostCall.fdRead.run around [.i32 0, .i32 array, .i32 count, .i32 result] m = .ok (.ready w) m') ∨
    ∃ work, HostCall.fdRead.run around [.i32 0, .i32 array, .i32 count, .i32 result] m = .ok (.suspend work) m ∧
      ∀ n : Machine (Hosted Work Session), n.outer.host.stdio.input = m.outer.host.stdio.input →
        ∃ w n', work.finish n = .ok w n'

theorem answered_of_offers {m : Machine (Hosted Work Session)} (hsize : m.memory.size ≤ UInt32.size)
    (hd : m.outer.host.stdio.input.Offers bytes streaming) (array count result : UInt32) :
    Answered around m array count result := by
  by_cases harray : m.memory.HoldsArray array count
  case neg => exact .inl ⟨_, _, HostCall.readStream_of_not hsize harray⟩
  have hcall : HostCall.readStream [.i32 0, .i32 array, .i32 count, .i32 result] m = _ :=
    HostCall.readStream_of_holds hsize harray (by decide)
  have hserves := hd.serves ((m.memory.buffers array count).map IoVec.len)
  have hget : m.outer.host.stdio.get? (0 : UInt32).toNat = some m.outer.host.stdio.input := rfl
  rcases HostCall.readInto_cases hget (m.memory.buffers array count) result with
    ⟨bs, d', e, memory, -, hready, -⟩ | ⟨-, hsuspend⟩ | ⟨e, d', hr, -⟩
  · exact .inl ⟨_, _, hcall.trans hready⟩
  · refine .inr ⟨_, hcall.trans hsuspend, fun n hn => ?_⟩
    have hget' : n.outer.host.stdio.get? (0 : UInt32).toNat = some m.outer.host.stdio.input := congrArg some hn
    rcases Work.finish_read hget' (m.memory.buffers array count) result with
      ⟨bs, d', e, memory, -, hfinish, -⟩ | ⟨e, d', hr, -⟩
    · exact ⟨_, _, hfinish⟩
    · obtain ⟨bs, more, d₁, hok, -⟩ := hserves.2
      rw [hr] at hok
      cases hok
  · rcases hserves.1 with ⟨bs, more, d₁, hok, -⟩ | hok <;> rw [hr] at hok <;> cases hok

/-- The bytes that were placed by the reads that answered with success. -/
def placed : List InputRead → List (List UInt8) → List UInt8
  | r :: rest, bs :: takens => (if r.answer = Errno.success.raw then bs else []) ++ placed rest takens
  | _, _ => []

/-- Where no fault has cost anything, everything that was taken was placed. -/
theorem placed_eq_flatten {reads : List InputRead} {takens : List (List UInt8)} (h : List.Forall₂ Account reads takens)
    (hfree : ∀ p ∈ reads.zip takens, p.1.answer = Errno.fault.raw → p.2 = []) :
    placed reads takens = takens.flatten := by
  induction h with
  | nil => rfl
  | @cons r bs reads takens haccount _ ih =>
    have hrest := ih fun p hp => hfree p (List.mem_cons_of_mem _ hp)
    have hfirst : (if r.answer = Errno.success.raw then bs else []) = bs := by
      cases haccount with
      | placed hanswer _ => rw [if_pos hanswer]
      | refused _ _ _ => exact ite_self _
      | lost hanswer _ _ =>
        have hnone : bs = [] := hfree (r, bs) List.mem_cons_self hanswer
        rw [hnone, ite_self]
    rw [placed, hrest, hfirst, List.flatten_cons]

end InputRead

/-- What the source has is placed where a read has wanted it, lost in a read that faults, or still to come; and the next
read is answered. If no fault has cost anything, the bytes that were placed are a beginning of what the source has. -/
theorem input_is_placed_lost_or_to_come (around : Surroundings) {s : Source} (hs : s.Plain) (streaming : Bool)
    {d₀ d : Descriptor} {reads : List InputRead}
    (hstart : Descriptor.preRun (Descriptor.ofSource (some s) streaming) = .ok () d₀)
    (h : InputRead.InTurn around d₀ reads d) :
    (∃ takens left, s.content = takens.flatten ++ left ∧ d.Offers left streaming ∧
        List.Forall₂ InputRead.Account reads takens ∧
        ((∀ p ∈ reads.zip takens, p.1.answer = Errno.fault.raw → p.2 = []) →
          InputRead.placed reads takens <+: s.content)) ∧
      ∀ (m : Machine (Hosted Work Session)) (array count result : UInt32), m.memory.size ≤ UInt32.size →
        m.outer.host.stdio.input = d → InputRead.Answered around m array count result := by
  obtain ⟨d₁, hstart', hoffers⟩ := Descriptor.offers_ofSource hs streaming
  rw [hstart] at hstart'
  cases hstart'
  obtain ⟨takens, left, hcontent, hleft, haccounts⟩ := InputRead.account_of_inTurn h hoffers
  refine ⟨⟨takens, left, hcontent, hleft, haccounts, fun hfree => ?_⟩, fun m array count result hsize hm => ?_⟩
  · rw [InputRead.placed_eq_flatten haccounts hfree, hcontent]
    exact List.prefix_append ..
  · subst hm
    exact InputRead.answered_of_offers hsize hleft array count result

/-! ## A stray buffer -/

namespace InputRead

/-- The bytes that the guest finds in the buffers afterwards, as many as it is told. -/
def found (r : InputRead) : List UInt8 :=
  if r.answer = Errno.success.raw then
    (r.after.contents r.buffers).take (wordOfBytes (r.after.read r.result.toNat 4)).toNat
  else []

/-- Neither two buffers nor a buffer and the word for the number share an address. -/
def Separate (r : InputRead) : Prop :=
  r.buffers.Pairwise IoVec.Apart ∧
    ∀ v ∈ r.buffers, ∀ a, v.Covers a → ¬ (r.result.toNat ≤ a ∧ a < r.result.toNat + 4)

theorem separate_of_one {r : InputRead} {v : IoVec} (h : r.buffers = [v]) (hword : r.result.toNat + 4 ≤ v.ptr.toNat) :
    r.Separate := by
  rw [Separate, h]
  refine ⟨List.pairwise_singleton _ _, fun w hw a hcovers hin => ?_⟩
  obtain rfl := List.mem_singleton.1 hw
  have hstart := hcovers.1
  omega

end InputRead

/-- A memory with two buffers of four bytes named at its start, the first of them out of bounds. -/
def strayMemory : Memory :=
  (Memory.zeroed 64).write 0 (wordBytes 0xFFFFFFF0 ++ wordBytes 4 ++ wordBytes 32 ++ wordBytes 4)

/-- A guest with that memory and six bytes of input, of which it has read the first `offset`. -/
def strayGuest (offset : Nat) (h : offset ≤ 6) : Machine (Hosted Work Session) where
  memory := strayMemory
  outer :=
    { host :=
        { args := []
          env := []
          stdio := ⟨.bufferedInput ⟨some [], [⟨[1, 2, 3, 4, 5, 6], 1⟩], offset, h⟩, .null, .null⟩
          filesystem := { memory := default, outer := {} } } }

theorem buffers_strayMemory :
    strayMemory.buffers 0 1 = [⟨0xFFFFFFF0, 4⟩] ∧ strayMemory.buffers 8 1 = [⟨32, 4⟩] := by decide +kernel

/-- It reads into the first of its buffers, and then into the second. -/
def strayReads : List InputRead :=
  [⟨0, 1, 16, strayMemory, strayMemory, strayMemory, Errno.fault.raw⟩,
    ⟨8, 1, 16, strayMemory, strayMemory, (strayMemory.write 32 [5, 6]).write 16 (wordBytes 2), Errno.success.raw⟩]

theorem inTurn_strayReads (around : Surroundings) :
    InputRead.InTurn around (strayGuest 0 (by decide)).outer.host.stdio.input strayReads
      (strayGuest 6 (by decide)).outer.host.stdio.input := by
  have hsize : strayMemory.size ≤ UInt32.size := by decide +kernel
  have hfault : HostCall.readStream [.i32 0, .i32 0, .i32 1, .i32 16] (strayGuest 0 (by decide)) =
      .ok (.ready Errno.fault.raw) (strayGuest 4 (by decide)) := by
    rw [HostCall.readStream_of_holds hsize (by decide +kernel) (by decide)]
    show HostCall.readInto 0 (strayMemory.buffers 0 1) 16 _ = _
    rw [buffers_strayMemory.1]
    rfl
  have hsuccess : HostCall.readStream [.i32 0, .i32 8, .i32 1, .i32 16] (strayGuest 4 (by decide)) =
      .ok (.ready Errno.success.raw)
        { strayGuest 6 (by decide) with memory := (strayMemory.write 32 [5, 6]).write 16 (wordBytes 2) } := by
    rw [HostCall.readStream_of_holds hsize (by decide +kernel) (by decide)]
    show HostCall.readInto 0 (strayMemory.buffers 8 1) 16 _ = _
    rw [buffers_strayMemory.2]
    rfl
  exact .next (.atOnce hsize hfault) (.next (.atOnce hsize hsuccess) (.none _))

/-- All that the source has was taken by the two reads, and nothing is still to come. -/
theorem a_stray_buffer_costs_input :
    Source.Plain [.bytes [1, 2, 3, 4, 5, 6]] ∧
      Descriptor.preRun (Descriptor.ofSource (some [.bytes [1, 2, 3, 4, 5, 6]]) false) =
        .ok () (strayGuest 0 (by decide)).outer.host.stdio.input ∧
      InputRead.InTurn ⟨0, fun _ => some 0⟩ (strayGuest 0 (by decide)).outer.host.stdio.input strayReads
        (strayGuest 6 (by decide)).outer.host.stdio.input ∧
      ∃ takens, takens.flatten = [1, 2, 3, 4, 5, 6] ∧ List.Forall₂ InputRead.Account strayReads takens := by
  have hplain : Source.Plain [.bytes [1, 2, 3, 4, 5, 6]] := by simp [Source.Plain, Delivery.Plain]
  have hturn := inTurn_strayReads ⟨0, fun _ => some 0⟩
  obtain ⟨⟨takens, left, hcontent, hleft, haccounts, -⟩, -⟩ :=
    input_is_placed_lost_or_to_come ⟨0, fun _ => some 0⟩ hplain false rfl hturn
  cases hleft with
  | buffered h =>
    obtain rfl : [] = left := h
    exact ⟨hplain, rfl, hturn, takens, (hcontent.trans (List.append_nil _)).symm, haccounts⟩

/-- What the stray buffer has cost does not reach the guest. -/
theorem not_all_input_reaches_the_guest :
    ¬ ∀ (around : Surroundings) (s : Source) (streaming : Bool) (d₀ d : Descriptor) (reads : List InputRead),
      s.Plain → Descriptor.preRun (Descriptor.ofSource (some s) streaming) = .ok () d₀ →
        InputRead.InTurn around d₀ reads d → (∀ r ∈ reads, r.Separate) →
          reads.flatMap InputRead.found <+: s.content := by
  intro h
  have hplain : Source.Plain [.bytes [1, 2, 3, 4, 5, 6]] := by simp [Source.Plain, Delivery.Plain]
  have hseparate : ∀ r ∈ strayReads, r.Separate := by
    intro r hr
    rcases List.mem_cons.1 hr with rfl | hr
    · exact InputRead.separate_of_one buffers_strayMemory.1 (by decide)
    · obtain rfl := List.mem_singleton.1 hr
      exact InputRead.separate_of_one buffers_strayMemory.2 (by decide)
  have hfalse := h ⟨0, fun _ => some 0⟩ _ false _ _ strayReads hplain rfl (inTurn_strayReads _) hseparate
  have hfound : strayReads.flatMap InputRead.found = [5, 6] := by decide +kernel
  rw [hfound] at hfalse
  exact absurd hfalse (by decide)

end GuestHost
