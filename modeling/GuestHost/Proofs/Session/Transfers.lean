/-
  GuestHost.Proofs.Session.Transfers — what a read or a write on a standard descriptor comes to, step by step.

  A call decodes its array, and a write gathers the buffers, before the descriptor is touched; then the descriptor
  answers at once, or leaves work that is finished later, on the machine that there is then. Either way, what is
  stored in the guest's memory is stored last.

  Proved:
  - `HostCall.readStream_of_holds`, `HostCall.writeStream_of_lists`: a call whose array is in memory is what the
    descriptor makes of it.
-/

import GuestHost.Proofs.Abi.Scatter
import GuestHost.Proofs.Session.Discipline

namespace GuestHost

open Exec

/-! ## Arrays -/

namespace Memory

def buffers (m : Memory) (array count : UInt32) : List IoVec := (List.range count.toNat).map (m.entry array.toNat)

/-- The array lies in memory, and so does each of the buffers that it lists. -/
def Lists (m : Memory) (array count : UInt32) : Prop :=
  m.HoldsArray array count ∧ ∀ v ∈ m.buffers array count, v.Fits m

instance (m : Memory) (array count : UInt32) : Decidable (m.Lists array count) := inferInstanceAs (Decidable (_ ∧ _))

/-- The bytes of the buffers that an array lists, each buffer on its own. -/
def views (m : Memory) (array count : UInt32) : List View :=
  (m.buffers array count).map fun v => m.view v.ptr.toNat v.len.toNat

variable {m : Memory} {addr w : UInt32}

theorem writeWord_eq_ok (h : addr.toNat + 4 ≤ m.size) :
    writeWord addr w m = .ok () (m.write addr.toNat (wordBytes w)) := store_eq_ok _ h

theorem writeWord_eq_error (h : m.size < addr.toNat + 4) :
    writeWord addr w m = .error (.outOfBounds addr.toNat 4 m.size) m := store_eq_error _ h

end Memory

/-! ## Calls -/

theorem Stdio.get?_of_lt (s : Stdio) {fd : Nat} (h : fd < 3) : ∃ d, s.get? fd = some d := by
  match fd, h with
  | 0, _ | 1, _ | 2, _ => exact ⟨_, rfl⟩

theorem Stdio.lt_of_get? {s : Stdio} {fd : Nat} {d : Descriptor} (h : s.get? fd = some d) : fd < 3 := by
  match fd, h with
  | 0, _ | 1, _ | 2, _ => decide

section

variable {α : Type} {fd : Nat} {act : EStateM StreamError Descriptor α} {m : Machine (Hosted Work Session)}
  {d d' : Descriptor}

theorem Session.onStream_of_ok {a : α} (absent : α) (hd : m.outer.host.stdio.get? fd = some d) (h : act d = .ok a d') :
    onStream fd absent act m = .ok a (m.putStream fd d') := by rw [onStream_some absent act hd, h]

theorem Session.onStream_of_error {e : StreamError} (absent : α) (hd : m.outer.host.stdio.get? fd = some d)
    (h : act d = .error e d') : onStream fd absent act m = .error (.stream e) (m.putStream fd d') := by
  rw [onStream_some absent act hd, h]

end

namespace HostCall

variable {m : Machine (Hosted Work Session)} {fd array count result : UInt32}

theorem marshal_of_ok {act : Marshal Unit} {memory : Memory} (h : act m.memory = .ok () memory) :
    marshal act m = .ok .success { m with memory } := by simp only [marshal, h]

theorem marshal_of_error {act : Marshal Unit} {e : MarshalError} {memory : Memory}
    (h : act m.memory = .error e memory) : marshal act m = .ok .fault { m with memory } := by
  simp only [marshal, h]
  rfl

theorem bind_words {α : Type} (a b c d : UInt32) (next : UInt32 → UInt32 → UInt32 → UInt32 → Act α) :
    (do
      let first ← word [.i32 a, .i32 b, .i32 c, .i32 d] 0
      let second ← word [.i32 a, .i32 b, .i32 c, .i32 d] 1
      let third ← word [.i32 a, .i32 b, .i32 c, .i32 d] 2
      let fourth ← word [.i32 a, .i32 b, .i32 c, .i32 d] 3
      next first second third fourth) = next a b c d := rfl

/-! ### Reads -/

theorem readStream_of_error {e : MarshalError} (h : m.memory.readIoVecs array count = .error e) :
    readStream [.i32 fd, .i32 array, .i32 count, .i32 result] m = .ok (.ready Errno.fault.raw) m := by
  rw [readStream_eq, bind_words, bind_of_ok (get_apply m), h]
  rfl

theorem readStream_of_ok {buffers : List IoVec} (h : m.memory.readIoVecs array count = .ok buffers) :
    readStream [.i32 fd, .i32 array, .i32 count, .i32 result] m =
      (if 3 ≤ fd.toNat then answer .badf else readInto fd.toNat buffers result) m := by
  rw [readStream_eq, bind_words, bind_of_ok (get_apply m), h]
  rfl

/-- A read whose array is out of bounds does nothing. -/
theorem readStream_of_not (hsize : m.memory.size ≤ UInt32.size) (h : ¬ m.memory.HoldsArray array count) :
    readStream [.i32 fd, .i32 array, .i32 count, .i32 result] m = .ok (.ready Errno.fault.raw) m :=
  readStream_of_error ((m.memory.readIoVecs_eq array count hsize).trans (if_neg h))

theorem readStream_of_holds (hsize : m.memory.size ≤ UInt32.size) (h : m.memory.HoldsArray array count)
    (hfd : fd.toNat < 3) :
    readStream [.i32 fd, .i32 array, .i32 count, .i32 result] m =
      readInto fd.toNat (m.memory.buffers array count) result m := by
  rw [readStream_of_ok ((m.memory.readIoVecs_eq array count hsize).trans (if_pos h)), if_neg (Nat.not_le.2 hfd)]
  rfl

/-- A read on a number that no standard descriptor has does nothing. -/
theorem readStream_of_badf (hsize : m.memory.size ≤ UInt32.size) (h : m.memory.HoldsArray array count)
    (hfd : 3 ≤ fd.toNat) :
    readStream [.i32 fd, .i32 array, .i32 count, .i32 result] m = .ok (.ready Errno.badf.raw) m := by
  rw [readStream_of_ok ((m.memory.readIoVecs_eq array count hsize).trans (if_pos h)), if_pos hfd]
  rfl

/-! ### Writes -/

theorem writeStream_of_words {args : List Value} (hfd : wordArg args 0 = .ok fd) (harray : wordArg args 1 = .ok array)
    (hcount : wordArg args 2 = .ok count) (hresult : wordArg args 3 = .ok result) :
    writeStream args = writeStream [.i32 fd, .i32 array, .i32 count, .i32 result] := by
  simp only [writeStream, word_of_ok hfd, word_of_ok harray, word_of_ok hcount, word_of_ok hresult]
  rfl

/-- A write finds its four words, or one of them is missing and it does nothing. -/
theorem writeStream_words (args : List Value) :
    (∃ fd array count result, wordArg args 0 = .ok fd ∧ wordArg args 1 = .ok array ∧ wordArg args 2 = .ok count ∧
      wordArg args 3 = .ok result ∧ writeStream args = writeStream [.i32 fd, .i32 array, .i32 count, .i32 result]) ∨
    ∃ i < 4, ∃ e, wordArg args i = .error e ∧ writeStream args = throw (.marshal e) := by
  rcases word_eq args 0 with ⟨fd, hfd, h₀⟩ | ⟨e, he, h₀⟩
  case inr => exact .inr ⟨0, by decide, e, he, by rw [writeStream, h₀, throw_bind]⟩
  rcases word_eq args 1 with ⟨array, harray, h₁⟩ | ⟨e, he, h₁⟩
  case inr => exact .inr ⟨1, by decide, e, he, by rw [writeStream, h₀, pure_bind, h₁, throw_bind]⟩
  rcases word_eq args 2 with ⟨count, hcount, h₂⟩ | ⟨e, he, h₂⟩
  case inr => exact .inr ⟨2, by decide, e, he, by rw [writeStream, h₀, pure_bind, h₁, pure_bind, h₂, throw_bind]⟩
  rcases word_eq args 3 with ⟨result, hresult, h₃⟩ | ⟨e, he, h₃⟩
  case inr =>
    exact .inr ⟨3, by decide, e, he, by rw [writeStream, h₀, pure_bind, h₁, pure_bind, h₂, pure_bind, h₃, throw_bind]⟩
  exact .inl ⟨fd, array, count, result, hfd, harray, hcount, hresult,
    writeStream_of_words hfd harray hcount hresult⟩

theorem writeStream_of_error {e : MarshalError} (h : m.memory.readIoVecs array count = .error e) :
    writeStream [.i32 fd, .i32 array, .i32 count, .i32 result] m = .ok (.ready Errno.fault.raw) m := by
  rw [writeStream, bind_words, bind_of_ok (get_apply m), h]
  rfl

theorem writeStream_of_unfit {buffers : List IoVec} {e : MarshalError}
    (h : m.memory.readIoVecs array count = .ok buffers) (hviews : m.memory.gather buffers = .error e) :
    writeStream [.i32 fd, .i32 array, .i32 count, .i32 result] m = .ok (.ready Errno.fault.raw) m := by
  rw [writeStream, bind_words, bind_of_ok (get_apply m), h]
  dsimp only
  rw [hviews]
  rfl

theorem writeStream_of_ok {buffers : List IoVec} {views : List View} (h : m.memory.readIoVecs array count = .ok buffers)
    (hviews : m.memory.gather buffers = .ok views) (hstandard : fd.toNat < 3) :
    writeStream [.i32 fd, .i32 array, .i32 count, .i32 result] m =
      (Session.onStream fd.toNat (.ready 0) (Descriptor.writev views) >>= conclude fd.toNat result)
        (m.noting (.offered fd.toNat views)) := by
  rw [writeStream, bind_words, bind_of_ok (get_apply m), h]
  dsimp only
  rw [hviews]
  dsimp only
  rw [if_neg (Nat.not_le.2 hstandard)]
  rfl

theorem writeStream_of_unbound {buffers : List IoVec} {views : List View}
    (h : m.memory.readIoVecs array count = .ok buffers) (hviews : m.memory.gather buffers = .ok views)
    (hfd : 3 ≤ fd.toNat) :
    writeStream [.i32 fd, .i32 array, .i32 count, .i32 result] m = .ok (.ready Errno.badf.raw) m := by
  rw [writeStream, bind_words, bind_of_ok (get_apply m), h]
  dsimp only
  rw [hviews]
  dsimp only
  rw [if_pos hfd]
  rfl

/-- A write of which the array or a buffer is out of bounds does nothing. -/
theorem writeStream_of_not (hsize : m.memory.size ≤ UInt32.size) (h : ¬ m.memory.Lists array count) :
    writeStream [.i32 fd, .i32 array, .i32 count, .i32 result] m = .ok (.ready Errno.fault.raw) m := by
  have hread := m.memory.readIoVecs_eq array count hsize
  by_cases harray : m.memory.HoldsArray array count
  · rw [if_pos harray] at hread
    cases hviews : m.memory.gather (m.memory.buffers array count) with
    | error e => exact writeStream_of_unfit hread hviews
    | ok views => exact absurd ⟨harray, ((m.memory.gather_eq_ok_iff ..).1 hviews).1⟩ h
  · rw [if_neg harray] at hread
    exact writeStream_of_error hread

theorem writeStream_of_lists (hsize : m.memory.size ≤ UInt32.size) (h : m.memory.Lists array count)
    (hfd : fd.toNat < 3) :
    writeStream [.i32 fd, .i32 array, .i32 count, .i32 result] m =
      (Session.onStream fd.toNat (.ready 0) (Descriptor.writev (m.memory.views array count)) >>=
        conclude fd.toNat result) (m.noting (.offered fd.toNat (m.memory.views array count))) :=
  writeStream_of_ok ((m.memory.readIoVecs_eq array count hsize).trans (if_pos h.1))
    ((m.memory.gather_eq_ok_iff ..).2 ⟨h.2, rfl⟩) hfd

/-- A write on a number that no standard descriptor has does nothing. -/
theorem writeStream_of_badf (hsize : m.memory.size ≤ UInt32.size) (h : m.memory.Lists array count)
    (hfd : 3 ≤ fd.toNat) :
    writeStream [.i32 fd, .i32 array, .i32 count, .i32 result] m = .ok (.ready Errno.badf.raw) m :=
  writeStream_of_unbound ((m.memory.readIoVecs_eq array count hsize).trans (if_pos h.1))
    ((m.memory.gather_eq_ok_iff ..).2 ⟨h.2, rfl⟩) hfd

end HostCall

end GuestHost
