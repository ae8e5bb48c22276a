/-
  GuestHost.Proofs.Abi.Careful — marshaling over steps that may slip.

  Each read and each write makes the one check that it makes anyway, and after it only steps that slip when the
  check was not enough: the entries of an array at sums and products of words, the bytes of a word by their
  indices, the pieces of a scattered read by an offset that runs along.

  Proved: none of these steps slips, and each read or write is the one that runs (`readIoVecs_eq`, `gather_eq`,
  `follows_writeWord`, `follows_scatter` and their like). An array needs a memory of no more bytes than there are
  addresses; the others need nothing.
-/

import GuestHost.Proofs.Abi.Buffers
import GuestHost.Proofs.Careful

namespace GuestHost

open Exec

namespace Careful

def part (m : Memory) (start stop : Nat) : Except Slip View :=
  if start ≤ stop ∧ stop ≤ m.size then .ok (m.view start (stop - start)) else .error .range

theorem part_eq_ok {m : Memory} {start len : Nat} (h : start + len ≤ m.size) :
    part m start (start + len) = .ok (m.view start len) := by
  rw [part, if_pos ⟨Nat.le_add_right .., h⟩, Nat.add_sub_cancel_left]

/-! ## Reads -/

def slice (m : Memory) (addr len : UInt32) : Reading View :=
  if m.holds addr.toNat len.toNat then part m addr.toNat (addr.toNat + len.toNat)
  else throw (.outOfBounds addr.toNat len.toNat m.size)

def readWord (m : Memory) (addr : UInt32) : Reading UInt32 := do
  let v ← slice m addr 4
  return wordOfBytes [← byteAt v 0, ← byteAt v 1, ← byteAt v 2, ← byteAt v 3]

def readIoVecs (m : Memory) (addr count : UInt32) : Reading (List IoVec) := do
  let total := count.toNat * IoVec.encodedSize.toNat
  if total < UInt32.size then
    let _ ← slice m addr (UInt32.ofNat total)
    (List.range count.toNat).mapM fun i => do
      let entry ← add addr (← mul (UInt32.ofNat i) IoVec.encodedSize)
      return ⟨← readWord m entry, ← readWord m (← add entry 4)⟩
  else throw (.outOfBounds addr.toNat total m.size)

def gather (m : Memory) (vs : List IoVec) : Reading (List View) := vs.mapM fun v => slice m v.ptr v.len

theorem slice_eq (m : Memory) (addr len : UInt32) : (slice m addr len).run = .ok (m.slice addr len) := by
  unfold slice Memory.slice
  by_cases h : m.holds addr.toNat len.toNat = true
  · rw [if_pos h, if_pos h, part_eq_ok (by simpa [Memory.holds] using h)]
    rfl
  · rw [if_neg h, if_neg h]
    rfl

theorem readWord_eq (m : Memory) (addr : UInt32) : (readWord m addr).run = .ok (m.readWord addr) := by
  refine Reading.bind_eq (slice_eq m addr 4) fun v hv => ?_
  have hend := (m.slice_eq_ok_iff addr 4).1 ⟨v, hv⟩
  obtain rfl : m.view addr.toNat 4 = v := Except.ok.inj ((Memory.slice_eq_ok hend).symm.trans hv)
  refine Reading.step_eq (byteAt_eq_ok (show 0 < 4 by decide)) ?_
  refine Reading.step_eq (byteAt_eq_ok (show 1 < 4 by decide)) ?_
  refine Reading.step_eq (byteAt_eq_ok (show 2 < 4 by decide)) ?_
  exact Reading.step_eq (byteAt_eq_ok (show 3 < 4 by decide)) rfl

/-- No sum on the way to an entry is too large, however close to the last address the array lies. -/
theorem readIoVecs_eq (m : Memory) (addr count : UInt32) (hsize : m.size ≤ UInt32.size) :
    (readIoVecs m addr count).run = .ok (m.readIoVecs addr count) := by
  unfold readIoVecs Memory.readIoVecs
  by_cases hcount : count.toNat * IoVec.encodedSize.toNat < UInt32.size
  · simp only [if_pos hcount]
    refine Reading.bind_eq (slice_eq ..) fun _ hslice => Reading.mapM_eq fun i hi => ?_
    have hword := UInt32.toNat_ofNat_of_lt' hcount
    have hholds : m.HoldsArray addr count := by
      refine ⟨hcount, ?_⟩
      have hend := (m.slice_eq_ok_iff ..).1 ⟨_, hslice⟩
      rwa [hword] at hend
    have hi : i < count.toNat := List.mem_range.1 hi
    obtain ⟨hproduct, hentry, -⟩ := hholds.toNat_entry hsize hi
    have hindex : (UInt32.ofNat i).toNat = i := UInt32.toNat_ofNat_of_lt' (Nat.lt_trans hi count.toNat_lt)
    obtain ⟨htotal, hend⟩ := hholds
    have hbelow : i * 8 < UInt32.size := by omega
    refine Reading.step_eq (mul_eq_ok (by rw [hindex]; exact hbelow)) ?_
    refine Reading.step_eq (add_eq_ok (by rw [hproduct]; omega)) ?_
    refine Reading.bind_eq (readWord_eq ..) fun ptr _ => ?_
    refine Reading.step_eq (add_eq_ok (by rw [hentry]; show _ + 4 < _; omega)) ?_
    exact Reading.bind_eq (readWord_eq ..) fun len _ => rfl
  · simp only [if_neg hcount]
    rfl

/-- In a memory with a page more, the second word of an entry may have no address. -/
example : (readIoVecs (.zeroed (UInt32.size + pageSize)) 0xFFFFFFFC 1).run = .error .overflow := by rfl

theorem gather_eq (m : Memory) (vs : List IoVec) : (gather m vs).run = .ok (m.gather vs) :=
  Reading.mapM_eq fun _ _ => slice_eq ..

/-! ## Writes -/

/-- A part of memory that was claimed for writing. -/
structure Window where
  start : Nat
  size : Nat

/-- Claims the `len` bytes at `addr`. -/
def window (addr len : UInt32) : Careful MarshalError Memory Window := fun m =>
  if m.holds addr.toNat len.toNat then do
    let v ← part m addr.toNat (addr.toNat + len.toNat)
    return .ok ⟨addr.toNat, v.size⟩ m
  else .ok (.error (.outOfBounds addr.toNat len.toNat m.size) m)

def Window.fill (w : Window) (n : Nat) (bs : List UInt8) : Careful MarshalError Memory Unit := fun m =>
  if w.size < n then .error .range
  else if bs.length = n then .ok (.ok () (m.write w.start bs))
  else .error .lengths

/-- Copies as many of the bytes from `offset` on as have a place in a window, and tells how many. -/
def Window.fillFrom (w : Window) (bs : List UInt8) (offset : Nat) : Careful MarshalError Memory Nat := do
  let n := min w.size (← sub bs.length offset)
  w.fill n (← cut bs offset (offset + n))
  return n

def Window.put (w : Window) (i : Nat) (b : UInt8) : Careful MarshalError Memory Unit := fun m =>
  if i < w.size then .ok (.ok () (m.set (w.start + i) b)) else .error .range

def writeWord (addr w : UInt32) : Careful MarshalError Memory Unit := do
  let dst ← window addr 4
  dst.fill dst.size (wordBytes w)

def writeLong (addr : UInt32) (w : UInt64) : Careful MarshalError Memory Unit := do
  let dst ← window addr 8
  dst.fill dst.size (longBytes w)

/-- Puts the bytes from `offset` on into the buffers, left to right, and tells how far it has come. -/
def scatter : List IoVec → List UInt8 → Nat → Careful MarshalError Memory Nat
  | [], _, offset => pure offset
  | v :: vs, bs, offset => do
    if offset = bs.length then pure offset
    else
      let dst ← window v.ptr v.len
      let n ← dst.fillFrom bs offset
      scatter vs bs (offset + n)

theorem Window.fill_eq {w : Window} {n : Nat} {bs : List UInt8} (hn : n ≤ w.size) (hbs : bs.length = n) (m : Memory) :
    w.fill n bs m = .ok (.ok () (m.write w.start bs)) := by
  rw [fill, if_neg (Nat.not_lt.2 hn), if_pos hbs]

theorem Window.put_eq {w : Window} {i : Nat} (hi : i < w.size) (b : UInt8) (m : Memory) :
    w.put i b m = .ok (.ok () (m.set (w.start + i) b)) := if_pos hi

theorem Window.fillFrom_eq {w : Window} {bs : List UInt8} {offset n : Nat} (h : offset ≤ bs.length)
    (hn : n = min w.size (bs.length - offset)) (m : Memory) :
    w.fillFrom bs offset m = .ok (.ok n (m.write w.start ((bs.drop offset).take n))) := by
  have hpiece : ((bs.drop offset).take (offset + n - offset)).length = n := by
    rw [List.length_take, List.length_drop]
    omega
  have hcut := cut_eq_ok (l := bs) (Nat.le_add_right offset n) (by omega)
  rw [Nat.add_sub_cancel_left] at hpiece hcut
  have hfill := Window.fill_eq (w := w) (by omega) hpiece m
  subst hn
  exact (bind_of_step (sub_eq_ok h)).trans ((bind_of_step hcut).trans (bind_of_value hfill))

/-- What is done with a window has only to be looked at where the window lies in memory. -/
theorem follows_window {β : Type} {addr len : UInt32} {f : Window → Careful MarshalError Memory β} {y : Marshal β}
    {m : Memory} (hin : addr.toNat + len.toNat ≤ m.size → Follows (f ⟨addr.toNat, len.toNat⟩) y m)
    (hout : m.size < addr.toNat + len.toNat → y m = .error (.outOfBounds addr.toNat len.toNat m.size) m) :
    Follows (window addr len >>= f) y m := by
  by_cases h : addr.toNat + len.toNat ≤ m.size
  · have hwindow : window addr len m = .ok (.ok ⟨addr.toNat, len.toNat⟩ m) := by
      rw [window, if_pos (by simpa [Memory.holds] using h), part_eq_ok h]
      rfl
    exact (bind_of_value hwindow).trans (hin h)
  · have hwindow : window addr len m = .ok (.error (.outOfBounds addr.toNat len.toNat m.size) m) := by
      rw [window, if_neg (by simpa [Memory.holds] using h)]
    exact (bind_of_failure hwindow).trans (congrArg _ (hout (Nat.not_le.1 h)).symm)

/-- Bytes that fill a window are stored as they are. -/
theorem follows_store (addr len : UInt32) {bs : List UInt8} (hbs : bs.length = len.toNat) (m : Memory) :
    Follows (do let dst ← window addr len; dst.fill dst.size bs) (Memory.store addr len bs) m :=
  follows_window
    (fun h => (Window.fill_eq (Nat.le_refl _) hbs m).trans (congrArg _ (Memory.store_eq_ok bs h).symm))
    fun h => Memory.store_eq_error bs h

/-- So are bytes that fill the beginning of one. -/
theorem follows_store_within (addr len : UInt32) {bs : List UInt8} (hbs : bs.length ≤ len.toNat) (m : Memory) :
    Follows (do let dst ← window addr len; dst.fill bs.length bs) (Memory.store addr len bs) m :=
  follows_window (fun h => (Window.fill_eq hbs rfl m).trans (congrArg _ (Memory.store_eq_ok bs h).symm))
    fun h => Memory.store_eq_error bs h

theorem follows_writeWord (addr w : UInt32) (m : Memory) : Follows (writeWord addr w) (Memory.writeWord addr w) m :=
  follows_store addr 4 (length_wordBytes w) m

theorem follows_writeLong (addr : UInt32) (w : UInt64) (m : Memory) :
    Follows (writeLong addr w) (Memory.writeLong addr w) m :=
  follows_store addr 8 (length_longBytes w) m

/-- Scattering from an offset on, where bytes are left: one piece, and then the rest from a later offset. -/
theorem scatter_rest {v : IoVec} {vs : List IoVec} {bs : List UInt8} {offset n : Nat} (h : offset < bs.length)
    (hn : n = min v.len.toNat (bs.length - offset)) :
    (do return offset + (← Memory.scatter (v :: vs) (bs.drop offset)) : Marshal Nat) = (do
      Memory.store v.ptr v.len ((bs.drop offset).take n)
      return offset + n + (← Memory.scatter vs (bs.drop (offset + n)))) := by
  have hlength : (bs.drop offset).length = bs.length - offset := List.length_drop
  obtain ⟨b, rest, hrest⟩ : ∃ b rest, bs.drop offset = b :: rest :=
    List.exists_cons_of_ne_nil (List.ne_nil_of_length_pos (by omega))
  rw [hrest, Memory.scatter, ← hrest, hlength, ← hn]
  simp only [bind_assoc, pure_bind, List.drop_drop, Nat.add_assoc]

/-- The offset never runs past the bytes, and each piece is as long as its place. -/
theorem follows_scatter (vs : List IoVec) {bs : List UInt8} {offset : Nat} (h : offset ≤ bs.length) (m : Memory) :
    Follows (scatter vs bs offset) (do return offset + (← Memory.scatter vs (bs.drop offset))) m := by
  induction vs generalizing offset m with
  | nil => rfl
  | cons v vs ih =>
    by_cases hend : offset = bs.length
    · rw [scatter, if_pos hend, List.drop_of_length_le (Nat.le_of_eq hend.symm)]
      rfl
    · rw [scatter, if_neg hend]
      obtain ⟨n, hn⟩ : ∃ n, n = min v.len.toNat (bs.length - offset) := ⟨_, rfl⟩
      rw [scatter_rest (Nat.lt_of_le_of_ne h hend) hn]
      refine follows_window (fun hin => ?_) fun hout => bind_of_error (Memory.store_eq_error _ hout)
      unfold Follows
      rw [bind_of_value (Window.fillFrom_eq h hn m), bind_of_ok (Memory.store_eq_ok _ hin)]
      exact ih (by omega) _

end Careful

end GuestHost
