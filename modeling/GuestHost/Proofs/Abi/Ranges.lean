/-
  GuestHost.Proofs.Abi.Ranges — the ranges of a memory that the host reads and stores to.

  What is done to a memory in some ranges neither sees nor changes what lies elsewhere. A row of stores keeps to its
  ranges (`Marshal.StoresIn`): a patch anywhere else makes no difference to it, and stays. What is decoded or gathered
  depends on nothing but the ranges that it names (`Memory.Alike`).

  Proved:
  - `Memory.read_patched_of_apart`, `Memory.write_patched`: what is read or written elsewhere is the same with a patch
    as without.
  - `Memory.Alike.readIoVecs`, `Memory.Alike.gather`: an array of buffers depends on its own words, and what is
    gathered on the buffers.
-/

import GuestHost.Abi.IoVec
import GuestHost.Proofs.Abi.Patches
import GuestHost.Proofs.Program.Actions

namespace GuestHost

open Exec

/-! ## Ranges that a patch leaves out -/

/-- A range of a memory: its first address, and its length. -/
abbrev Range := Nat × Nat

/-- No address of the range is filled by the patch. -/
def Range.Apart (r : Range) (p : Patch) : Prop := r.2 = 0 ∨ r.1 + r.2 ≤ p.start ∨ p.start + p.bytes.length ≤ r.1

instance (r : Range) (p : Patch) : Decidable (r.Apart p) := inferInstanceAs (Decidable (_ ∨ _))

theorem Range.Apart.mono {r r' : Range} {p : Patch} (h : r.Apart p) (hstart : r.1 ≤ r'.1)
    (hstop : r'.1 + r'.2 ≤ r.1 + r.2) : r'.Apart p := by
  unfold Apart at h ⊢
  omega

namespace Memory

variable {m : Memory} {p : Patch}

@[simp] theorem holds_patched (m : Memory) (ps : List Patch) (a n : Nat) : (m.patched ps).holds a n = m.holds a n := by
  rw [holds, holds, size_patched]

theorem read_patched_of_apart {a n : Nat} (h : Range.Apart (a, n) p) : (m.patched [p]).read a n = m.read a n :=
  read_congr fun _ _ _ => byte_write_of_not fun hin => by
    unfold Range.Apart at h
    omega

theorem write_patched {a : Nat} {bs : List UInt8} (h : Range.Apart (a, bs.length) p) :
    (m.patched [p]).write a bs = (m.write a bs).patched [p] := by
  refine eq_of_view (by simp) fun c => ?_
  unfold Range.Apart at h
  simp only [patched_cons, patched_nil, byte_write, size_write]
  split <;> split <;> first | rfl | (exfalso; omega)

theorem grow_patched (h : p.Fits m) (n : Nat) : (m.patched [p]).grow n = (m.grow n).patched [p] := by
  refine eq_of_view (by simp) fun c => ?_
  show (m.write p.start p.bytes).byte c = ((m.grow n).write p.start p.bytes).byte c
  unfold Patch.Fits at h
  rw [byte_write, byte_write, byte_grow]
  by_cases hin : p.start ≤ c ∧ c < p.start + p.bytes.length
  · have hc : c < m.size := by omega
    rw [if_pos ⟨hin.1, hin.2, hc⟩, if_pos ⟨hin.1, hin.2, Nat.lt_add_right n hc⟩]
  · rw [if_neg fun h => hin ⟨h.1, h.2.1⟩, if_neg fun h => hin ⟨h.1, h.2.1⟩]

end Memory

/-! ## Stores -/

/-- The memory that is left, whether all was stored or not. -/
def Memory.after {α : Type} (m : Memory) (act : Marshal α) : Memory :=
  match act m with
  | .ok _ m' | .error _ m' => m'

/-- The action stores bytes in these ranges, and sees and changes nothing else but the size of the memory, which stays:
a patch anywhere else makes no difference to it, and stays too. -/
structure Marshal.StoresIn {α : Type} (ranges : List Range) (act : Marshal α) : Prop where
  size : ∀ m : Memory, (m.after act).size = m.size
  apart : ∀ (p : Patch) (m : Memory), (∀ r ∈ ranges, r.Apart p) →
    act (m.patched [p]) = forget (fun m => m.patched [p]) (act m)

namespace Marshal.StoresIn

variable {α β : Type} {ranges : List Range}

theorem pure (a : α) : StoresIn ranges (Pure.pure a) := ⟨fun _ => rfl, fun _ _ _ => rfl⟩

theorem bind {x : Marshal α} {f : α → Marshal β} (hx : StoresIn ranges x) (hf : ∀ a, StoresIn ranges (f a)) :
    StoresIn ranges (x >>= f) := by
  constructor
  · intro m
    have hfirst := hx.size m
    unfold Memory.after at hfirst ⊢
    rw [bind_apply]
    cases hr : x m with
    | ok a m' =>
      rw [hr] at hfirst
      exact ((hf a).size m').trans hfirst
    | error e m' =>
      rw [hr] at hfirst
      exact hfirst
  · intro p m hp
    have hfirst := hx.apart p m hp
    cases hr : x m with
    | ok a m' =>
      rw [hr] at hfirst
      rw [bind_of_ok hr, bind_of_ok hfirst]
      exact (hf a).apart p m' hp
    | error e m' =>
      rw [hr] at hfirst
      rw [bind_of_error hr, bind_of_error hfirst]
      rfl

theorem store {addr len : UInt32} {bs : List UInt8} {r : Range} (hr : r ∈ ranges) (hstart : r.1 ≤ addr.toNat)
    (hstop : addr.toNat + bs.length ≤ r.1 + r.2) : StoresIn ranges (Memory.store addr len bs) := by
  constructor
  · intro m
    unfold Memory.after Memory.store
    by_cases h : m.holds addr.toNat len.toNat = true
    · rw [if_pos h]
      exact Memory.size_write ..
    · rw [if_neg h]
  · intro p m hp
    have hapart : Range.Apart (addr.toNat, bs.length) p := (hp r hr).mono hstart hstop
    unfold Memory.store
    rw [Memory.holds_patched, Memory.write_patched hapart, Memory.size_patched]
    split <;> rfl

theorem writeWord {addr w : UInt32} (h : (addr.toNat, 4) ∈ ranges) : StoresIn ranges (Memory.writeWord addr w) :=
  .store h (Nat.le_refl _) (Nat.le_of_eq (by rw [length_wordBytes]))

theorem writeLong {addr : UInt32} {w : UInt64} (h : (addr.toNat, 8) ∈ ranges) :
    StoresIn ranges (Memory.writeLong addr w) :=
  .store h (Nat.le_refl _) (Nat.le_of_eq (by rw [length_longBytes]))

theorem scatter {vs : List IoVec} (h : ∀ v ∈ vs, (v.ptr.toNat, v.len.toNat) ∈ ranges) (bs : List UInt8) :
    StoresIn ranges (Memory.scatter vs bs) := by
  induction vs generalizing bs with
  | nil =>
    rw [Memory.scatter]
    exact .pure 0
  | cons v vs ih =>
    obtain ⟨hv, hvs⟩ := List.forall_mem_cons.1 h
    cases bs with
    | nil => exact .pure 0
    | cons b bs =>
      refine .bind (.store hv (Nat.le_refl _) ?_) fun _ => .bind (ih hvs _) fun _ => .pure _
      rw [List.length_take]
      omega

end Marshal.StoresIn

/-! ## Looks -/

/-- A word of the arguments of a call; zero if there is none, and then the call ends before it does anything. -/
def wordOr (args : List Value) (i : Nat) : UInt32 :=
  match wordArg args i with
  | .ok w => w
  | .error _ => 0

theorem wordOr_of_ok {args : List Value} {i : Nat} {w : UInt32} (h : wordArg args i = .ok w) : wordOr args i = w := by
  rw [wordOr, h]

theorem mapM_congr {α β ε : Type} {l : List α} {f g : α → Except ε β} (h : ∀ a ∈ l, f a = g a) :
    l.mapM f = l.mapM g := by
  induction l with
  | nil => rfl
  | cons a l ih =>
    obtain ⟨ha, hl⟩ := List.forall_mem_cons.1 h
    rw [List.mapM_cons, List.mapM_cons, ha, ih hl]

namespace Memory

def arrayWords (array count : UInt32) : List Range :=
  (List.range count.toNat).flatMap fun i =>
    let entry := array + UInt32.ofNat i * IoVec.encodedSize
    [(entry.toNat, 4), ((entry + 4).toNat, 4)]

/-- The buffers that an array lists, if it can be decoded. -/
def bufferRanges (m : Memory) (array count : UInt32) : List Range :=
  match m.readIoVecs array count with
  | .ok buffers => buffers.map fun v => (v.ptr.toNat, v.len.toNat)
  | .error _ => []

theorem mem_bufferRanges {m : Memory} {array count : UInt32} {buffers : List IoVec}
    (h : m.readIoVecs array count = .ok buffers) :
    ∀ v ∈ buffers, (v.ptr.toNat, v.len.toNat) ∈ m.bufferRanges array count := by
  intro v hv
  rw [bufferRanges, h]
  exact List.mem_map_of_mem hv

structure Alike (ranges : List Range) (m m' : Memory) : Prop where
  size : m'.size = m.size
  read : ∀ r ∈ ranges, m'.read r.1 r.2 = m.read r.1 r.2

namespace Alike

variable {ranges : List Range} {m m' : Memory}

theorem slice (h : Alike ranges m m') {addr len : UInt32} (hr : (addr.toNat, len.toNat) ∈ ranges) :
    m'.slice addr len = m.slice addr len := by
  unfold Memory.slice
  rw [holds, holds, h.size, view_congr (h.read _ hr)]

theorem readIoVecs (h : Alike ranges m m') {array count : UInt32} (hr : ∀ r ∈ arrayWords array count, r ∈ ranges) :
    m'.readIoVecs array count = m.readIoVecs array count := by
  have hword {i : Nat} (hi : i ∈ List.range count.toNat) {addr : UInt32}
      (haddr : addr = array + UInt32.ofNat i * IoVec.encodedSize ∨
        addr = array + UInt32.ofNat i * IoVec.encodedSize + 4) : m'.readWord addr = m.readWord addr := by
    have hmem : (addr.toNat, (4 : UInt32).toNat) ∈ ranges := by
      refine hr _ (List.mem_flatMap.2 ⟨i, hi, ?_⟩)
      rcases haddr with rfl | rfl
      · exact List.mem_cons_self
      · exact List.mem_cons_of_mem _ List.mem_cons_self
    unfold readWord
    rw [h.slice hmem]
  have hentries := mapM_congr (l := List.range count.toNat)
    (f := fun i => do
      let entry := array + UInt32.ofNat i * IoVec.encodedSize
      return (⟨← m'.readWord entry, ← m'.readWord (entry + 4)⟩ : IoVec))
    (g := fun i => do
      let entry := array + UInt32.ofNat i * IoVec.encodedSize
      return (⟨← m.readWord entry, ← m.readWord (entry + 4)⟩ : IoVec))
    fun i hi => by simp only [hword hi (.inl rfl), hword hi (.inr rfl)]
  unfold Memory.readIoVecs
  dsimp only
  rw [hentries, h.size]
  split
  · unfold Memory.slice
    rw [holds, holds, h.size]
    split <;> rfl
  · rfl

theorem gather (h : Alike ranges m m') {vs : List IoVec} (hr : ∀ v ∈ vs, (v.ptr.toNat, v.len.toNat) ∈ ranges) :
    m'.gather vs = m.gather vs := by
  induction vs with
  | nil => rfl
  | cons v vs ih =>
    obtain ⟨hv, hvs⟩ := List.forall_mem_cons.1 hr
    have hview : v.view m' = v.view m := h.slice hv
    have hrest := ih hvs
    unfold Memory.gather at hrest ⊢
    rw [List.mapM_cons, List.mapM_cons, hview, hrest]

end Alike

end Memory

end GuestHost
