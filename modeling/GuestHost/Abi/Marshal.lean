/-
  GuestHost.Abi.Marshal — marshaling: reading the arguments of a call, and words and byte ranges at 32-bit
  addresses.

  A range is accepted exactly when it lies in memory, its end computed without wrap-around
  (`Memory.slice_eq_ok_iff`). Reads are functions of a memory; writes are `Marshal` actions, which keep what
  they had already stored when they fail.
-/

import GuestHost.Abi.Errno
import GuestHost.Abi.Value
import GuestHost.Bytes
import GuestHost.View

namespace GuestHost

inductive MarshalError where
  /-- The range of `len` bytes at `addr` does not fit a memory of `size` bytes. -/
  | outOfBounds (addr len size : Nat)
  /-- The argument at `index` is absent or of another type. -/
  | argument (index : Nat) (expected : ValType)
  deriving DecidableEq, Repr

/-- Every marshaling error is reported to the guest as a fault. -/
def MarshalError.errno (_ : MarshalError) : Errno := .fault

/-- A sequence of writes to a memory. -/
abbrev Marshal := EStateM MarshalError Memory

/-! ## Arguments -/

def wordArg (args : List Value) (i : Nat) : Except MarshalError UInt32 :=
  match args[i]? with
  | some (.i32 w) => .ok w
  | _ => .error (.argument i .i32)

def longArg (args : List Value) (i : Nat) : Except MarshalError UInt64 :=
  match args[i]? with
  | some (.i64 w) => .ok w
  | _ => .error (.argument i .i64)

namespace Memory

/-! ## Reads -/

def slice (m : Memory) (addr len : UInt32) : Except MarshalError View :=
  if m.holds addr.toNat len.toNat then .ok (m.view addr.toNat len.toNat)
  else .error (.outOfBounds addr.toNat len.toNat m.size)

def readWord (m : Memory) (addr : UInt32) : Except MarshalError UInt32 := do
  let v ← m.slice addr 4
  return wordOfBytes v.toList

/-! ## Writes -/

/-- Claims the `len` bytes at `addr` and stores `bs`, which is no longer, at their start. -/
def store (addr len : UInt32) (bs : List UInt8) : Marshal Unit := fun m =>
  if m.holds addr.toNat len.toNat then .ok () (m.write addr.toNat bs)
  else .error (.outOfBounds addr.toNat len.toNat m.size) m

def storeRuns (addr len : UInt32) (rs : Runs) : Marshal Unit := fun m =>
  if m.holds addr.toNat len.toNat then .ok () (m.writeRuns addr.toNat rs)
  else .error (.outOfBounds addr.toNat len.toNat m.size) m

def writeWord (addr w : UInt32) : Marshal Unit := store addr 4 (wordBytes w)

def writeLong (addr : UInt32) (w : UInt64) : Marshal Unit := store addr 8 (longBytes w)

theorem slice_eq_ok_iff (m : Memory) (addr len : UInt32) :
    (∃ v, m.slice addr len = .ok v) ↔ addr.toNat + len.toNat ≤ m.size := by
  unfold slice holds
  by_cases h : addr.toNat + len.toNat ≤ m.size <;> simp [h]

theorem slice_eq_ok {m : Memory} {addr len : UInt32} (h : addr.toNat + len.toNat ≤ m.size) :
    m.slice addr len = .ok (m.view addr.toNat len.toNat) := by
  simp [slice, holds, h]

theorem store_eq_ok {m : Memory} {addr len : UInt32} (bs : List UInt8) (h : addr.toNat + len.toNat ≤ m.size) :
    store addr len bs m = .ok () (m.write addr.toNat bs) := by
  simp [store, holds, h]

theorem storeRuns_eq_store (addr len : UInt32) (rs : Runs) : storeRuns addr len rs = store addr len rs.bytes := by
  funext m
  rw [storeRuns, store, writeRuns_eq]

theorem store_eq_error {m : Memory} {addr len : UInt32} (bs : List UInt8) (h : m.size < addr.toNat + len.toNat) :
    store addr len bs m = .error (.outOfBounds addr.toNat len.toNat m.size) m := by
  have h' : ¬addr.toNat + len.toNat ≤ m.size := by omega
  simp [store, holds, h']

end Memory

end GuestHost
