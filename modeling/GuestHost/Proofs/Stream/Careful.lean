/-
  GuestHost.Proofs.Stream.Careful — reads of the standard descriptors over steps that may slip.

  A buffered input cuts what it gives out of its buffer, from an offset that it moves on; a streaming input takes
  from the front of its last chunk, and asks for what is then still missing. A write only counts and copies, and
  counts stay at the largest word, so nothing of it can slip.

  Proved:
  - `follows_readv`: a read can be made of any descriptor. The offset lies in the buffer by what a buffered input
    is; the sum of the lengths needs that there are no more lengths than words can count.
  - `follows_finishRead`: a pending read can be finished on any descriptor.
-/

import GuestHost.Proofs.Careful
import GuestHost.Stream.Descriptor

namespace GuestHost

namespace Careful

/-! ## Buffered input -/

def totalLength (lens : List UInt32) : Except Slip Nat :=
  lens.foldlM (fun total len => addLength total len.toNat) 0

/-- Takes as many of the remaining bytes as the lengths ask for. An offset past the end slips: the next read
would begin there. -/
def take (lens : List UInt32) (r : BufferedInput) : Except Slip (List UInt8 × BufferedInput) := do
  let wanted ← totalLength lens
  let remaining ← cut r.buffer r.offset r.buffer.length
  let n := min wanted remaining.length
  let bs ← cut remaining 0 n
  if h : r.offset + n ≤ r.buffer.length then return (bs, { r with offset := r.offset + n, inRange := h })
  else throw .range

theorem totalLength_le (lens : List UInt32) : GuestHost.totalLength lens ≤ lens.length * (UInt32.size - 1) := by
  induction lens with
  | nil => exact Nat.le_refl 0
  | cons len lens ih =>
    have hlen : len.toNat < UInt32.size := len.toNat_lt
    rw [GuestHost.totalLength, List.length_cons, Nat.add_mul]
    omega

/-- Word many words add up to a number of 64 bits. -/
theorem totalLength_lt {lens : List UInt32} (h : lens.length < UInt32.size) :
    GuestHost.totalLength lens < UInt64.size :=
  calc GuestHost.totalLength lens
    _ ≤ lens.length * (UInt32.size - 1) := totalLength_le lens
    _ ≤ (UInt32.size - 1) * (UInt32.size - 1) := Nat.mul_le_mul_right _ (Nat.le_sub_one_of_lt h)
    _ < UInt64.size := by decide

theorem foldlM_addLength (lens : List UInt32) {total : Nat} (h : total + GuestHost.totalLength lens < UInt64.size) :
    lens.foldlM (fun total len => addLength total len.toNat) total = .ok (total + GuestHost.totalLength lens) := by
  induction lens generalizing total with
  | nil => rfl
  | cons len lens ih =>
    rw [GuestHost.totalLength] at h ⊢
    rw [List.foldlM_cons, addLength_eq_ok (by omega), ← Nat.add_assoc]
    exact ih (by omega)

theorem totalLength_eq {lens : List UInt32} (h : lens.length < UInt32.size) :
    totalLength lens = .ok (GuestHost.totalLength lens) := by
  have hbound := totalLength_lt h
  rw [totalLength, foldlM_addLength lens (by omega), Nat.zero_add]

theorem take_eq {lens : List UInt32} (h : lens.length < UInt32.size) (r : BufferedInput) :
    take lens r = .ok (r.take lens) := by
  have hremaining : cut r.buffer r.offset r.buffer.length = .ok r.remaining := cut_length r.inRange
  have hinside := (r.take lens).2.inRange
  unfold take
  rw [totalLength_eq h, hremaining]
  show (do
    let bs ← cut r.remaining 0 (min (GuestHost.totalLength lens) r.remaining.length)
    if h : (r.take lens).2.offset ≤ r.buffer.length then
      pure (bs, { r with offset := (r.take lens).2.offset, inRange := h })
    else throw Slip.range) = _
  rw [cut_zero (Nat.min_le_right ..)]
  exact dif_pos hinside

/-! ## Streaming input -/

def consume (n : Nat) : Careful StreamError StreamingInput (List UInt8) := fun r => do
  let taken := min n r.leftover.length
  let bs ← cut r.leftover 0 taken
  return .ok bs { r with leftover := ← cut r.leftover taken r.leftover.length }

/-- Fills buffers of the given lengths in order, with at most one pull for each. -/
def fill : List UInt32 → Careful StreamError StreamingInput (List UInt8)
  | [] => pure []
  | len :: lens => do
    let first ← consume len.toNat
    if first.length = len.toNat then return first ++ (← fill lens)
    else if ← StreamingInput.pull then
      let second ← consume (← sub len.toNat first.length)
      if first.length + second.length = len.toNat then return first ++ second ++ (← fill lens)
      else return first ++ second
    else return first

theorem follows_consume (n : Nat) (r : StreamingInput) : Follows (consume n) (StreamingInput.consume n) r := by
  have hall : min n r.leftover.length ≤ r.leftover.length := Nat.min_le_right ..
  have htake : r.leftover.take (min n r.leftover.length) = r.leftover.take n := by simp
  have hdrop : r.leftover.drop (min n r.leftover.length) = r.leftover.drop n := by simp
  show (do
    let bs ← cut r.leftover 0 (min n r.leftover.length)
    let rest ← cut r.leftover (min n r.leftover.length) r.leftover.length
    pure (.ok bs { r with leftover := rest }) : Except Slip (EStateM.Result StreamError _ _)) = _
  rw [cut_zero hall, cut_length hall, htake, hdrop]
  rfl

theorem follows_fill (lens : List UInt32) (r : StreamingInput) : Follows (fill lens) (StreamingInput.fill lens) r := by
  induction lens generalizing r with
  | nil => rfl
  | cons len lens ih =>
    refine Follows.bind (follows_consume ..) fun first r₁ hfirst => ?_
    have hle : first.length ≤ len.toNat := by
      obtain ⟨rfl, -⟩ : r.leftover.take len.toNat = first ∧ _ = r₁ := EStateM.Result.ok.inj hfirst
      exact List.length_take_le ..
    refine Follows.ite (fun _ => ?_) fun _ => ?_
    · exact Follows.bind (ih r₁) fun rest _ _ => .pure ..
    · refine Follows.lift_bind fun more r₂ _ => ?_
      refine Follows.ite (fun _ => ?_) fun _ => .pure ..
      refine Follows.step (sub_eq_ok hle) ?_
      refine Follows.bind (follows_consume ..) fun second r₃ _ => ?_
      refine Follows.ite (fun _ => ?_) fun _ => .pure ..
      exact Follows.bind (ih r₃) fun rest _ _ => .pure ..

/-! ## Descriptors -/

def readv (lens : List UInt32) : Careful StreamError Descriptor (Transfer (List UInt8) PendingRead) := fun d =>
  match d with
  | .bufferedInput r => do
    let (bs, r') ← take lens r
    return .ok (.ready bs) (.bufferedInput r')
  | d => .ok (Descriptor.readv lens d)

def finishRead (work : PendingRead) : Careful StreamError Descriptor (List UInt8) := fun d =>
  match d with
  | .streamingInput r => (fill work r).map (Descriptor.within .streamingInput)
  | d => .ok (Descriptor.finishRead work d)

theorem follows_readv {lens : List UInt32} (h : lens.length < UInt32.size) (d : Descriptor) :
    Follows (readv lens) (Descriptor.readv lens) d := by
  cases d with
  | bufferedInput r =>
    unfold Follows readv
    simp only [take_eq h]
    rfl
  | null | bufferedOutput w | streamingInput r | streamingOutput w => rfl

theorem follows_finishRead (work : PendingRead) (d : Descriptor) :
    Follows (finishRead work) (Descriptor.finishRead work) d := by
  cases d with
  | streamingInput r =>
    show (fill work r).map _ = _
    rw [follows_fill work r]
    rfl
  | null | bufferedInput r | bufferedOutput w | streamingOutput w => rfl

end Careful

end GuestHost
