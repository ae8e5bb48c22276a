/-
  GuestHost.Bytes — little-endian numerals: a number as a fixed count of bytes, least significant first.

  Proved: the bytes of `n` read back as `n` modulo `256 ^ k` (`ofBytesLE_toBytesLE`), and `k` bytes are
  written (`length_toBytesLE`).
-/

namespace GuestHost

/-- The lowest `k` bytes of `n`, least significant first. -/
def toBytesLE : Nat → Nat → List UInt8
  | 0, _ => []
  | k + 1, n => UInt8.ofNat n :: toBytesLE k (n / 256)

/-- The number that the bytes spell, least significant first. -/
def ofBytesLE : List UInt8 → Nat
  | [] => 0
  | b :: bs => b.toNat + 256 * ofBytesLE bs

def wordBytes (w : UInt32) : List UInt8 := toBytesLE 4 w.toNat

def longBytes (w : UInt64) : List UInt8 := toBytesLE 8 w.toNat

def wordOfBytes (bs : List UInt8) : UInt32 := UInt32.ofNat (ofBytesLE bs)

@[simp] theorem length_toBytesLE (k n : Nat) : (toBytesLE k n).length = k := by
  induction k generalizing n with
  | zero => rfl
  | succ k ih => simp [toBytesLE, ih]

theorem ofBytesLE_toBytesLE (k n : Nat) : ofBytesLE (toBytesLE k n) = n % Nat.pow 256 k := by
  induction k generalizing n with
  | zero => simp [toBytesLE, ofBytesLE, Nat.mod_one]
  | succ k ih =>
    have h : (UInt8.ofNat n).toNat = n % 256 := by simp
    have hp : Nat.pow 256 (k + 1) = 256 * Nat.pow 256 k := Nat.mul_comm _ _
    rw [toBytesLE, ofBytesLE, ih, h, hp, Nat.mod_mul]

@[simp] theorem length_wordBytes (w : UInt32) : (wordBytes w).length = 4 := length_toBytesLE 4 _

@[simp] theorem length_longBytes (w : UInt64) : (longBytes w).length = 8 := length_toBytesLE 8 _

@[simp] theorem wordOfBytes_wordBytes (w : UInt32) : wordOfBytes (wordBytes w) = w := by
  have h : w.toNat % Nat.pow 256 4 = w.toNat := Nat.mod_eq_of_lt w.toNat_lt
  rw [wordOfBytes, wordBytes, ofBytesLE_toBytesLE, h]
  exact UInt32.ofNat_toNat

end GuestHost
