/-
  GuestHost.Proofs.Abi.Buffers — which buffer lists lie in memory, and what they then name.

  A list is decoded by words at 32-bit addresses. As long as the memory has no more bytes than there are addresses,
  the address of every entry that the bounds check has let through is the one that a plain count gives: no sum
  wraps around.

  Proved:
  - `Memory.readIoVecs_eq`: an array is decoded exactly when it lies in memory, and then entry by entry.
  - `Memory.gather_eq_ok_iff`: its buffers are gathered exactly when each of them lies in memory.
-/

import GuestHost.Abi.IoVec

namespace GuestHost

theorem mapM_eq_ok {α β ε : Type} {f : α → Except ε β} {g : α → β} {l : List α} (h : ∀ x ∈ l, f x = .ok (g x)) :
    l.mapM f = .ok (l.map g) := by
  induction l with
  | nil => rfl
  | cons x l ih =>
    rw [List.mapM_cons, h x (List.mem_cons_self ..), ih fun y hy => h y (List.mem_cons_of_mem _ hy)]
    rfl

/-- The distance from a word, where the sum is a word. -/
theorem toNat_add_ofNat {w : UInt32} {n : Nat} (h : w.toNat + n < UInt32.size) :
    (w + UInt32.ofNat n).toNat = w.toNat + n := by
  rw [UInt32.toNat_add, UInt32.toNat_ofNat', Nat.mod_eq_of_lt (show n < UInt32.size by omega), Nat.mod_eq_of_lt h]

def IoVec.Fits (v : IoVec) (m : Memory) : Prop := v.ptr.toNat + v.len.toNat ≤ m.size

instance (v : IoVec) (m : Memory) : Decidable (v.Fits m) := inferInstanceAs (Decidable (_ ≤ _))

namespace Memory

/-- Entry `i` of the array of buffers at `addr`. -/
def entry (m : Memory) (addr i : Nat) : IoVec :=
  ⟨wordOfBytes (m.read (addr + i * 8) 4), wordOfBytes (m.read (addr + i * 8 + 4) 4)⟩

/-- The array of `count` buffers at `addr` lies in memory, and its size is a word. -/
def HoldsArray (m : Memory) (addr count : UInt32) : Prop :=
  count.toNat * 8 < UInt32.size ∧ addr.toNat + count.toNat * 8 ≤ m.size

instance (m : Memory) (addr count : UInt32) : Decidable (m.HoldsArray addr count) := inferInstanceAs (Decidable (_ ∧ _))

variable {m : Memory} {addr count : UInt32}

theorem slice_eq_error {len : UInt32} (h : m.size < addr.toNat + len.toNat) :
    m.slice addr len = .error (.outOfBounds addr.toNat len.toNat m.size) := by
  have h' : ¬ addr.toNat + len.toNat ≤ m.size := by omega
  simp [slice, holds, h']

theorem readWord_eq_ok (h : addr.toNat + 4 ≤ m.size) : m.readWord addr = .ok (wordOfBytes (m.read addr.toNat 4)) := by
  unfold readWord
  rw [slice_eq_ok h]
  rfl

/-- Nothing wraps around on the way to an entry of an array that lies in memory. -/
theorem HoldsArray.toNat_entry (h : m.HoldsArray addr count) (hsize : m.size ≤ UInt32.size) {i : Nat}
    (hi : i < count.toNat) :
    (UInt32.ofNat i * IoVec.encodedSize).toNat = i * 8 ∧
      (addr + UInt32.ofNat i * IoVec.encodedSize).toNat = addr.toNat + i * 8 ∧
      (addr + UInt32.ofNat i * IoVec.encodedSize + 4).toNat = addr.toNat + i * 8 + 4 := by
  obtain ⟨hcount, hend⟩ := h
  have hproduct : UInt32.ofNat i * IoVec.encodedSize = UInt32.ofNat (i * 8) := by
    rw [UInt32.ofNat_mul]
    rfl
  have hentry : (addr + UInt32.ofNat (i * 8)).toNat = addr.toNat + i * 8 := toNat_add_ofNat (by omega)
  rw [hproduct]
  refine ⟨UInt32.toNat_ofNat_of_lt' (by omega), hentry, ?_⟩
  have hnext := toNat_add_ofNat (w := addr + UInt32.ofNat (i * 8)) (n := 4) (by omega)
  rw [hentry] at hnext
  exact hnext

/-- An array is decoded entry by entry if it lies in memory, and not at all if it does not. -/
theorem readIoVecs_eq (m : Memory) (addr count : UInt32) (hsize : m.size ≤ UInt32.size) :
    m.readIoVecs addr count =
      if m.HoldsArray addr count then .ok ((List.range count.toNat).map (m.entry addr.toNat))
      else .error (.outOfBounds addr.toNat (count.toNat * 8) m.size) := by
  have htotal : count.toNat * IoVec.encodedSize.toNat = count.toNat * 8 := rfl
  simp only [readIoVecs, htotal]
  by_cases hcount : count.toNat * 8 < UInt32.size
  · have hword : (UInt32.ofNat (count.toNat * 8)).toNat = count.toNat * 8 := UInt32.toNat_ofNat_of_lt' hcount
    rw [if_pos hcount]
    by_cases hend : addr.toNat + count.toNat * 8 ≤ m.size
    · have hholds : m.HoldsArray addr count := ⟨hcount, hend⟩
      rw [if_pos hholds, slice_eq_ok (by omega)]
      refine mapM_eq_ok fun i hi => ?_
      have hi : i < count.toNat := List.mem_range.1 hi
      obtain ⟨-, hentry, hnext⟩ := hholds.toNat_entry hsize hi
      rw [readWord_eq_ok (by omega), readWord_eq_ok (by omega), hentry, hnext]
      rfl
    · rw [if_neg fun h : m.HoldsArray addr count => hend h.2, slice_eq_error (by omega), hword]
      rfl
  · rw [if_neg hcount, if_neg fun h : m.HoldsArray addr count => hcount h.1]
    rfl

theorem length_readIoVecs (hsize : m.size ≤ UInt32.size) {buffers : List IoVec}
    (h : m.readIoVecs addr count = .ok buffers) : buffers.length = count.toNat := by
  rw [readIoVecs_eq m addr count hsize] at h
  split at h
  · cases h
    simp
  · cases h

/-- Buffers are gathered if each of them lies in memory. -/
theorem gather_eq_ok_iff (m : Memory) (vs : List IoVec) (views : List View) :
    m.gather vs = .ok views ↔
      (∀ v ∈ vs, v.ptr.toNat + v.len.toNat ≤ m.size) ∧ views = vs.map fun v => m.view v.ptr.toNat v.len.toNat := by
  constructor
  · intro h
    have hfits : ∀ v ∈ vs, v.ptr.toNat + v.len.toNat ≤ m.size := by
      induction vs generalizing views with
      | nil => exact nofun
      | cons v vs ih =>
        rw [gather, List.mapM_cons] at h
        cases hv : v.view m with
        | error e => rw [hv] at h; cases h
        | ok view =>
          rw [hv] at h
          cases hvs : m.gather vs with
          | error e => rw [gather] at hvs; rw [hvs] at h; cases h
          | ok rest => exact List.forall_mem_cons.2 ⟨(m.slice_eq_ok_iff ..).1 ⟨view, hv⟩, ih rest hvs⟩
    have hall : m.gather vs = .ok (vs.map fun v => m.view v.ptr.toNat v.len.toNat) :=
      mapM_eq_ok fun v hv => slice_eq_ok (hfits v hv)
    rw [h] at hall
    exact ⟨hfits, Except.ok.inj hall⟩
  · rintro ⟨hfits, rfl⟩
    exact mapM_eq_ok fun v hv => slice_eq_ok (hfits v hv)

end Memory

end GuestHost
