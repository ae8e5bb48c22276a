/-
  GuestHost.Abi.IoVec — buffer lists: the arrays of (address, length) pairs by which a guest names where
  bytes are taken from or put.

  An array is decoded only if it lies in memory as a whole. Bytes are gathered from the buffers in order,
  and scattered over them left to right until none are left; a buffer that no byte reaches is not looked at.
-/

import GuestHost.Abi.Marshal

namespace GuestHost

structure IoVec where
  ptr : UInt32
  len : UInt32
  deriving DecidableEq, Repr

/-- The size of an encoded buffer: its address and its length, a word each. -/
def IoVec.encodedSize : UInt32 := 8

def IoVec.view (v : IoVec) (m : Memory) : Except MarshalError View := m.slice v.ptr v.len

namespace Memory

/-- The buffers that the array of `count` entries at `addr` lists. -/
def readIoVecs (m : Memory) (addr count : UInt32) : Except MarshalError (List IoVec) := do
  let total := count.toNat * IoVec.encodedSize.toNat
  if total < UInt32.size then
    let _ ← m.slice addr (UInt32.ofNat total)
    (List.range count.toNat).mapM fun i => do
      let entry := addr + UInt32.ofNat i * IoVec.encodedSize
      return ⟨← m.readWord entry, ← m.readWord (entry + 4)⟩
  else throw (.outOfBounds addr.toNat total m.size)

def gather (m : Memory) (vs : List IoVec) : Except MarshalError (List View) := vs.mapM (·.view m)

/-- Puts the bytes into the buffers, left to right, and tells how many found a place. -/
def scatter : List IoVec → List UInt8 → Marshal Nat
  | [], _ => pure 0
  | _ :: _, [] => pure 0
  | v :: vs, b :: bs => do
    let n := min v.len.toNat (b :: bs).length
    store v.ptr v.len ((b :: bs).take n)
    let placed ← scatter vs ((b :: bs).drop n)
    return n + placed

def scatterRuns : List IoVec → Runs → Marshal Nat
  | [], _ => pure 0
  | v :: vs, rs =>
    if rs.size = 0 then pure 0
    else do
      let n := min v.len.toNat rs.size
      storeRuns v.ptr v.len (rs.takeBytes n)
      let placed ← scatterRuns vs (rs.dropBytes n)
      return n + placed

theorem scatterRuns_eq_scatter (vs : List IoVec) (rs : Runs) : scatterRuns vs rs = scatter vs rs.bytes := by
  induction vs generalizing rs with
  | nil => rw [scatterRuns, scatter]
  | cons v vs ih =>
    rw [scatterRuns]
    cases hbytes : rs.bytes with
    | nil => rw [scatter, ← Runs.length_bytes, hbytes, List.length_nil, if_pos rfl]
    | cons b bs =>
      have hsize : rs.size = (b :: bs).length := by rw [← Runs.length_bytes, hbytes]
      have hsome : (b :: bs).length ≠ 0 := Nat.succ_ne_zero _
      rw [scatter, hsize, if_neg hsome]
      simp only [storeRuns_eq_store, ih, Runs.bytes_takeBytes, Runs.bytes_dropBytes, hbytes]

end Memory

end GuestHost
