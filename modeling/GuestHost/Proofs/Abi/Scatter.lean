/-
  GuestHost.Proofs.Abi.Scatter — bytes that are spread over buffers, and gathered from them again.

  Spreading goes over the buffers from left to right and stores in each as many of the bytes as it holds, until no
  bytes are left. It stops at the first buffer out of bounds that it comes to, and what it has stored before stays
  (`Memory.Stops`). A buffer that it does not come to may lie anywhere.

  Proved:
  - `Memory.scatter_append`: spreading over more buffers goes on where the first ones are full.
  - `Memory.scatter_eq_ok`, `Memory.scatter_eq_error`: when spreading ends, and what it leaves then.
  - `Memory.contents_patched`: what buffers that do not overlap hold afterwards.
-/

import Mathlib.Data.Nat.Find
import GuestHost.Proofs.Abi.Buffers
import GuestHost.Proofs.Abi.Patches
import GuestHost.Proofs.Program.Actions
import GuestHost.Stream.Descriptor

namespace GuestHost

open Exec

namespace IoVec

def Covers (v : IoVec) (a : Nat) : Prop := v.ptr.toNat ≤ a ∧ a < v.ptr.toNat + v.len.toNat

/-- No address lies in both. -/
def Apart (v w : IoVec) : Prop := ∀ a, v.Covers a → ¬ w.Covers a

/-- How many bytes buffers hold together. -/
def capacity (vs : List IoVec) : Nat := totalLength (vs.map len)

@[simp] theorem capacity_nil : capacity [] = 0 := rfl

@[simp] theorem capacity_cons (v : IoVec) (vs : List IoVec) : capacity (v :: vs) = v.len.toNat + capacity vs := rfl

/-- What falls to each buffer when bytes are spread over them, left to right. -/
def pieces : List IoVec → List UInt8 → List Patch
  | [], _ => []
  | v :: vs, bs => ⟨v.ptr.toNat, bs.take v.len.toNat⟩ :: pieces vs (bs.drop v.len.toNat)

/-- A piece lies in the buffer to which it falls. -/
theorem covers_of_piece {vs : List IoVec} {bs : List UInt8} {p : Patch} {a : Nat} (hp : p ∈ pieces vs bs)
    (ha : p.Covers a) : ∃ v ∈ vs, v.Covers a := by
  induction vs generalizing bs with
  | nil => cases hp
  | cons v vs ih =>
    rcases List.mem_cons.1 hp with rfl | hp
    · have hlen : (bs.take v.len.toNat).length ≤ v.len.toNat := List.length_take_le _ _
      exact ⟨v, List.mem_cons_self, ha.1, Nat.lt_of_lt_of_le ha.2 (Nat.add_le_add_left hlen _)⟩
    · obtain ⟨w, hw, hcovers⟩ := ih hp
      exact ⟨w, List.mem_cons_of_mem _ hw, hcovers⟩

end IoVec

namespace Memory

open IoVec

def contents (m : Memory) (vs : List IoVec) : List UInt8 := vs.flatMap fun v => m.read v.ptr.toNat v.len.toNat

/-- Spreading `n` bytes comes to buffer number `i`, which is out of bounds. -/
def Stops (m : Memory) (vs : List IoVec) (n i : Nat) : Prop :=
  ∃ v, vs[i]? = some v ∧ ¬ v.Fits m ∧ capacity (vs.take i) < n

section

variable {m : Memory} {vs : List IoVec} {bs : List UInt8}

/-! ## Where spreading ends -/

theorem scatter_nil (vs : List IoVec) : scatter vs [] = pure 0 := by cases vs <;> rfl

theorem scatter_cons (v : IoVec) (vs : List IoVec) (h : bs ≠ []) :
    scatter (v :: vs) bs = (do
      store v.ptr v.len (bs.take (min v.len.toNat bs.length))
      return min v.len.toNat bs.length + (← scatter vs (bs.drop (min v.len.toNat bs.length)))) := by
  cases bs with
  | nil => exact absurd rfl h
  | cons b bs => rfl

/-- Spreading goes on with what the first buffers did not take. -/
theorem scatter_append (vs ws : List IoVec) (bs : List UInt8) :
    scatter (vs ++ ws) bs = (do
      let n ← scatter vs bs
      return n + (← scatter ws (bs.drop n))) := by
  induction vs generalizing bs with
  | nil =>
    have hzero : (fun k : Nat => (pure (0 + k) : Marshal Nat)) = pure := funext fun k => by rw [Nat.zero_add]
    rw [List.nil_append, scatter, pure_bind, List.drop_zero, hzero, bind_pure]
  | cons v vs ih =>
    by_cases hbs : bs = []
    · simp [hbs, scatter_nil]
    · rw [List.cons_append, scatter_cons v _ hbs, scatter_cons v _ hbs, ih]
      simp only [bind_assoc, pure_bind, List.drop_drop, Nat.add_assoc]

theorem patched_pieces_nil (m : Memory) (vs : List IoVec) : m.patched (pieces vs []) = m := by
  induction vs generalizing m with
  | nil => rfl
  | cons v vs ih =>
    rw [pieces, List.take_nil, List.drop_nil, patched_cons, write]
    exact ih m

/-- Nothing is in the way of the first buffer, and of the rest. -/
theorem stops_succ {v : IoVec} {n i : Nat} (h : m.Stops vs (n - v.len.toNat) i) : m.Stops (v :: vs) n (i + 1) := by
  obtain ⟨w, hw, hfits, hlt⟩ := h
  refine ⟨w, hw, hfits, ?_⟩
  rw [List.take_succ_cons, capacity_cons]
  omega

/-- If nothing is in the way, each buffer that bytes come to gets its piece. -/
theorem scatter_eq_ok (h : ∀ i, ¬ m.Stops vs bs.length i) :
    scatter vs bs m = .ok (min bs.length (capacity vs)) (m.patched (pieces vs bs)) := by
  induction vs generalizing m bs with
  | nil => simp [scatter, pieces]; rfl
  | cons v vs ih =>
    by_cases hbs : bs = []
    · rw [hbs, scatter_nil, patched_pieces_nil, List.length_nil, Nat.zero_min]
      rfl
    have hfits : v.Fits m := by
      exact Decidable.byContradiction fun hout => h 0 ⟨v, rfl, hout, List.length_pos_iff.2 hbs⟩
    have hlen : bs.take (min v.len.toNat bs.length) = bs.take v.len.toNat := List.take_eq_take_min.symm
    have hdrop : bs.drop (min v.len.toNat bs.length) = bs.drop v.len.toNat := by
      rcases Nat.le_total v.len.toNat bs.length with hle | hle
      · rw [Nat.min_eq_left hle]
      · rw [Nat.min_eq_right hle, List.drop_length, List.drop_of_length_le hle]
    have hrest (i : Nat) : ¬ (m.write v.ptr.toNat (bs.take v.len.toNat)).Stops vs (bs.drop v.len.toNat).length i := by
      intro hstops
      refine h (i + 1) (stops_succ ?_)
      rw [List.length_drop] at hstops
      simpa only [Stops, Fits, size_write] using hstops
    rw [scatter_cons v vs hbs, hlen, hdrop, bind_of_ok (store_eq_ok _ hfits), bind_of_ok (ih hrest), pieces,
      patched_cons, List.length_drop, capacity_cons]
    show EStateM.Result.ok _ _ = _
    congr 1
    omega

/-- Of the buffers that are in the way one is the first. -/
theorem Stops.first {n i : Nat} (h : m.Stops vs n i) : ∃ j, m.Stops vs n j ∧ ∀ k < j, ¬ m.Stops vs n k := by
  classical
  exact ⟨Nat.find ⟨i, h⟩, Nat.find_spec ⟨i, h⟩, fun _ hk => Nat.find_min ⟨i, h⟩ hk⟩

/-- If buffer number `i` is the first in the way, the others before it get their pieces, and they are full. -/
theorem scatter_eq_error {i : Nat} (h : m.Stops vs bs.length i) (hfirst : ∀ j < i, ¬ m.Stops vs bs.length j) :
    ∃ v m', vs[i]? = some v ∧ scatter (vs.take i) bs m = .ok (capacity (vs.take i)) m' ∧
      scatter vs bs m = .error (.outOfBounds v.ptr.toNat v.len.toNat m.size) m' := by
  obtain ⟨v, hv, hfits, hlt⟩ := h
  obtain ⟨hi, rfl⟩ := List.getElem?_eq_some_iff.1 hv
  have hbefore (j : Nat) : ¬ m.Stops (vs.take i) bs.length j := by
    rintro ⟨w, hw, hout, hbytes⟩
    have hj : j < i := by
      have hj := (List.getElem?_eq_some_iff.1 hw).1
      rw [List.length_take] at hj
      omega
    rw [List.getElem?_take_of_lt hj] at hw
    rw [List.take_take, Nat.min_eq_left (Nat.le_of_lt hj)] at hbytes
    exact hfirst j hj ⟨w, hw, hout, hbytes⟩
  have hok := scatter_eq_ok hbefore
  rw [Nat.min_eq_right (Nat.le_of_lt hlt)] at hok
  have hmore : bs.drop (capacity (vs.take i)) ≠ [] := by
    rw [ne_eq, List.drop_eq_nil_iff]
    omega
  have hsplit : vs = vs.take i ++ vs[i] :: vs.drop (i + 1) := by
    rw [← List.drop_eq_getElem_cons hi, List.take_append_drop]
  refine ⟨vs[i], _, hv, hok, ?_⟩
  conv => lhs; rw [hsplit, scatter_append]
  rw [bind_of_ok hok, scatter_cons _ _ hmore]
  refine bind_of_error (bind_of_error ?_)
  rw [← size_patched m (pieces (vs.take i) bs)]
  exact store_eq_error _ (by rw [size_patched]; exact Nat.not_le.1 hfits)

/-- Buffers that come after all bytes have a place do not matter. -/
theorem scatter_take {k : Nat} (h : bs.length ≤ capacity (vs.take k)) : scatter vs bs = scatter (vs.take k) bs := by
  funext m
  conv => lhs; rw [← List.take_append_drop k vs, scatter_append]
  by_cases hstops : ∃ i, m.Stops (vs.take k) bs.length i
  · obtain ⟨_, hstop⟩ := hstops
    obtain ⟨i, hi, hfirst⟩ := hstop.first
    obtain ⟨v, m', -, -, herror⟩ := scatter_eq_error hi hfirst
    rw [bind_of_error herror, herror]
  · have hok := scatter_eq_ok (not_exists.1 hstops)
    rw [Nat.min_eq_left h] at hok
    rw [bind_of_ok hok, List.drop_length, scatter_nil, hok]
    rfl

/-! ## What is gathered afterwards -/

theorem gather_contents {views : List View} (h : m.gather vs = .ok views) :
    views.flatMap View.toList = m.contents vs := by
  obtain ⟨-, rfl⟩ := (m.gather_eq_ok_iff vs views).1 h
  simp only [List.flatMap_map, Memory.toList_view, contents]

theorem length_contents (m : Memory) (vs : List IoVec) : (m.contents vs).length = capacity vs := by
  induction vs with
  | nil => rfl
  | cons v vs ih =>
    rw [contents, List.flatMap_cons, List.length_append, length_read, capacity_cons]
    exact congrArg (v.len.toNat + ·) ih

/-- A buffer that shares no address with those of the list is as it was. -/
theorem read_patched_pieces {v : IoVec} (h : ∀ w ∈ vs, v.Apart w) :
    (m.patched (pieces vs bs)).read v.ptr.toNat v.len.toNat = m.read v.ptr.toNat v.len.toNat := by
  refine read_congr fun c hc hlt => byte_patched fun p hp hcovers => ?_
  obtain ⟨w, hw, hcovers⟩ := covers_of_piece hp hcovers
  exact h w hw c ⟨hc, hlt⟩ hcovers

/-- Buffers that share no address hold the bytes that were spread over them, and behind those what they held. -/
theorem contents_patched (hfits : ∀ v ∈ vs, v.Fits m) (hapart : vs.Pairwise IoVec.Apart) (bs : List UInt8) :
    (m.patched (pieces vs bs)).contents vs = bs.take (capacity vs) ++ (m.contents vs).drop bs.length := by
  induction vs generalizing m bs with
  | nil => simp [contents]
  | cons v vs ih =>
    obtain ⟨hv, hvs⟩ := List.pairwise_cons.1 hapart
    obtain ⟨hfirst, hrest⟩ := List.forall_mem_cons.1 hfits
    have hcontents (m : Memory) : m.contents (v :: vs) = m.read v.ptr.toNat v.len.toNat ++ m.contents vs := rfl
    have htake : (bs.take v.len.toNat).length ≤ v.len.toNat := List.length_take_le _ _
    -- the first piece touches none of the other buffers
    have hothers : (m.write v.ptr.toNat (bs.take v.len.toNat)).contents vs = m.contents vs := by
      rw [contents, contents, List.flatMap_def, List.flatMap_def]
      refine congrArg List.flatten (List.map_congr_left fun w hw => read_congr fun c hc hlt => ?_)
      refine byte_write_of_not fun hcovers => hv w hw c ⟨hcovers.1, ?_⟩ ⟨hc, hlt⟩
      exact Nat.lt_of_lt_of_le hcovers.2 (Nat.add_le_add_left htake _)
    rw [pieces, patched_cons, hcontents, hcontents, read_patched_pieces hv, read_write_of_le htake hfirst,
      ih (fun w hw => by rw [IoVec.Fits, size_write]; exact hrest w hw) hvs, hothers, capacity_cons, List.take_add,
      List.length_take, List.length_drop, List.drop_append, length_read]
    by_cases hle : v.len.toNat ≤ bs.length
    · have hnone : (m.read v.ptr.toNat v.len.toNat).drop bs.length = [] :=
        List.drop_of_length_le (by rw [length_read]; exact hle)
      have hfull : (m.read v.ptr.toNat v.len.toNat).drop v.len.toNat = [] :=
        List.drop_of_length_le (by rw [length_read])
      rw [Nat.min_eq_left hle, hnone, hfull]
      simp only [List.append_nil, List.nil_append, List.append_assoc]
    · have hlt : bs.length ≤ v.len.toNat := Nat.le_of_not_le hle
      rw [Nat.min_eq_right hlt, List.drop_of_length_le hlt, Nat.sub_eq_zero_of_le hlt]
      simp only [List.take_nil, List.append_nil, List.nil_append, List.drop_zero, List.append_assoc]

end

end Memory

end GuestHost
