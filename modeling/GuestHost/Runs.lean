/-
  GuestHost.Runs — bytes as runs: pieces that are repeated.

  What is repeated is not laid out, so any number of bytes can be kept, counted and cut. Runs stand for the bytes that
  they spell (`Runs.bytes`), and each operation is described by what it does to these.
-/

namespace GuestHost

/-- A piece of bytes, some number of times over. -/
structure Run where
  piece : List UInt8
  times : Nat
  deriving DecidableEq, Repr

abbrev Runs := List Run

namespace Run

def bytes (r : Run) : List UInt8 := (List.replicate r.times r.piece).flatten

def size (r : Run) : Nat := r.times * r.piece.length

/-- Whether all of them are zero. -/
def isZero (r : Run) : Bool := r.piece.all (· == 0)

def takeBytes (n : Nat) (r : Run) : Runs :=
  [⟨r.piece, n / r.piece.length⟩, ⟨r.piece.take (n % r.piece.length), 1⟩]

def dropBytes (n : Nat) (r : Run) : Runs :=
  [⟨r.piece.drop (n % r.piece.length), 1⟩, ⟨r.piece, r.times - (n / r.piece.length + 1)⟩]

@[simp] theorem length_bytes (r : Run) : r.bytes.length = r.size := by simp [bytes, size]

theorem eq_zero_of_isZero {r : Run} (h : r.isZero = true) {b : UInt8} (hb : b ∈ r.bytes) : b = 0 := by
  obtain ⟨piece, hpiece, hmem⟩ := List.mem_flatten.1 hb
  rw [(List.mem_replicate.1 hpiece).2] at hmem
  exact eq_of_beq (List.all_eq_true.1 h b hmem)

@[simp] theorem bytes_one (bs : List UInt8) : bytes ⟨bs, 1⟩ = bs := by simp [bytes]

end Run

namespace Runs

def bytes : Runs → List UInt8
  | [] => []
  | r :: rs => r.bytes ++ bytes rs

def size : Runs → Nat
  | [] => 0
  | r :: rs => r.size + size rs

/-- The first `n` bytes, or all if there are no more. -/
def takeBytes (n : Nat) : Runs → Runs
  | [] => []
  | r :: rs => if r.size ≤ n then r :: takeBytes (n - r.size) rs else r.takeBytes n

def dropBytes (n : Nat) : Runs → Runs
  | [] => []
  | r :: rs => if r.size ≤ n then dropBytes (n - r.size) rs else r.dropBytes n ++ rs

def ofBytes (bs : List UInt8) : Runs := [⟨bs, 1⟩]

@[simp] theorem length_bytes (rs : Runs) : (bytes rs).length = size rs := by
  induction rs with
  | nil => rfl
  | cons r rs ih => rw [bytes, List.length_append, Run.length_bytes, ih, size]

@[simp] theorem bytes_ofBytes (bs : List UInt8) : bytes (ofBytes bs) = bs := by simp [ofBytes, bytes]

theorem bytes_append (rs rs' : Runs) : bytes (rs ++ rs') = bytes rs ++ bytes rs' := by
  induction rs with
  | nil => rfl
  | cons r rs ih => rw [List.cons_append, bytes, ih, bytes, List.append_assoc]

end Runs

/-! ## Cutting -/

namespace Run

/-- A cut within a run goes through one of its pieces. -/
theorem bytes_cut {r : Run} {n : Nat} (h : n < r.size) :
    r.bytes = Runs.bytes (r.takeBytes n) ++ Runs.bytes (r.dropBytes n) := by
  obtain ⟨piece, times⟩ := r
  have hwhole : n / piece.length < times := Nat.div_lt_of_lt_mul (by rwa [size, Nat.mul_comm] at h)
  obtain ⟨more, rfl⟩ := Nat.exists_eq_add_of_le (Nat.succ_le_of_lt hwhole)
  have hpiece : [piece].flatten = piece.take (n % piece.length) ++ piece.drop (n % piece.length) := by
    rw [List.flatten_singleton, List.take_append_drop]
  have hsplit : List.replicate (n / piece.length).succ piece = List.replicate (n / piece.length) piece ++ [piece] :=
    List.replicate_succ'
  simp only [bytes, takeBytes, dropBytes, Runs.bytes, ← List.replicate_append_replicate, List.flatten_append, hsplit,
    hpiece, Nat.succ_eq_add_one, Nat.add_sub_cancel_left, List.replicate_one, List.flatten_singleton, List.append_nil,
    List.append_assoc]

theorem size_takeBytes {r : Run} {n : Nat} (h : n < r.size) : Runs.size (r.takeBytes n) = n := by
  have hpos : 0 < r.piece.length := Nat.pos_of_ne_zero fun hzero => by simp [size, hzero] at h
  have hpart : (r.piece.take (n % r.piece.length)).length = n % r.piece.length :=
    List.length_take_of_le (Nat.le_of_lt (Nat.mod_lt n hpos))
  simp only [takeBytes, Runs.size, size, hpart, Nat.one_mul, Nat.add_zero]
  rw [Nat.mul_comm, Nat.div_add_mod]

end Run

namespace Runs

theorem bytes_takeBytes (n : Nat) (rs : Runs) : bytes (takeBytes n rs) = (bytes rs).take n := by
  induction rs generalizing n with
  | nil => rw [takeBytes, bytes, List.take_nil]
  | cons r rs ih =>
    rw [takeBytes, bytes]
    split
    · next hall =>
      have htake : r.bytes.take n = r.bytes := List.take_of_length_le (by rwa [Run.length_bytes])
      rw [bytes, ih, List.take_append, htake, Run.length_bytes]
    · next hinside =>
      have hin : n < r.size := Nat.lt_of_not_le hinside
      have hlen : (bytes (r.takeBytes n)).length = n := by rw [length_bytes, Run.size_takeBytes hin]
      rw [Run.bytes_cut hin, List.append_assoc, List.take_left' hlen]

theorem bytes_dropBytes (n : Nat) (rs : Runs) : bytes (dropBytes n rs) = (bytes rs).drop n := by
  induction rs generalizing n with
  | nil => rw [dropBytes, bytes, List.drop_nil]
  | cons r rs ih =>
    rw [dropBytes, bytes]
    split
    · next hall =>
      have hdrop : r.bytes.drop n = [] := List.drop_of_length_le (by rwa [Run.length_bytes])
      rw [ih, List.drop_append, hdrop, Run.length_bytes, List.nil_append]
    · next hinside =>
      have hin : n < r.size := Nat.lt_of_not_le hinside
      have hlen : (bytes (r.takeBytes n)).length = n := by rw [length_bytes, Run.size_takeBytes hin]
      rw [bytes_append, Run.bytes_cut hin, List.append_assoc, List.drop_left' hlen]

end Runs

end GuestHost
