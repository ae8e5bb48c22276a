/-
  GuestHost.Proofs.Abi.Patches — bytes that are stored one piece after the other.

  Whatever the host stores for a guest is a row of patches: the words of an array and the strings that it points to,
  or the pieces of a read. Patches are applied in order, so where two of them share an address the later one counts.

  Proved:
  - `Memory.byte_patched`: a byte that no patch covers is as it was.
  - `Memory.read_patched`: where no two patches share an address, each of them can be read back.
-/

import GuestHost.Bytes
import GuestHost.Memory

namespace GuestHost

namespace Memory

theorem read_congr {m m' : Memory} {a n : Nat} (h : ∀ c, a ≤ c → c < a + n → m'.byte c = m.byte c) :
    m'.read a n = m.read a n := by
  refine List.map_congr_left fun i hi => ?_
  have hi : i < n := List.mem_range.1 hi
  exact h (a + i) (by omega) (by omega)

theorem read_add (m : Memory) (a j k : Nat) : m.read a (j + k) = m.read a j ++ m.read (a + j) k := by
  simp only [read, List.range_add, List.map_append, List.map_map]
  congr 2
  funext i
  simp [Nat.add_assoc]

theorem byte_write_of_not {m : Memory} {a c : Nat} {bs : List UInt8} (h : ¬ (a ≤ c ∧ c < a + bs.length)) :
    (m.write a bs).byte c = m.byte c := by
  rw [byte_write, if_neg fun h' => h ⟨h'.1, h'.2.1⟩]

theorem read_write {m : Memory} {a : Nat} {bs : List UInt8} (h : a + bs.length ≤ m.size) :
    (m.write a bs).read a bs.length = bs := by
  refine List.ext_getElem (length_read ..) fun i hi hbs => ?_
  rw [getElem_read, byte_write, if_pos (by omega), Nat.add_sub_cancel_left]
  simp [hbs]

/-- A run of which the beginning was stored. -/
theorem read_write_of_le {m : Memory} {a n : Nat} {bs : List UInt8} (hn : bs.length ≤ n) (h : a + n ≤ m.size) :
    (m.write a bs).read a n = bs ++ (m.read a n).drop bs.length := by
  obtain ⟨k, rfl⟩ := Nat.exists_eq_add_of_le hn
  have hrest : (m.write a bs).read (a + bs.length) k = m.read (a + bs.length) k :=
    read_congr fun c hc _ => byte_write_of_not (by omega)
  rw [read_add, read_write (by omega), hrest, read_add m, List.drop_left' (m.length_read a bs.length)]

end Memory

/-- Bytes, and the address at which they are stored. -/
structure Patch where
  start : Nat
  bytes : List UInt8

namespace Patch

/-- The address is one of those that the patch fills. -/
def Covers (p : Patch) (a : Nat) : Prop := p.start ≤ a ∧ a < p.start + p.bytes.length

/-- No address is filled by both. -/
def Apart (p q : Patch) : Prop := ∀ a, p.Covers a → ¬ q.Covers a

def Fits (p : Patch) (m : Memory) : Prop := p.start + p.bytes.length ≤ m.size

theorem covers_mk {start a : Nat} {bs : List UInt8} :
    (⟨start, bs⟩ : Patch).Covers a ↔ start ≤ a ∧ a < start + bs.length := Iff.rfl

theorem fits_mk {start : Nat} {bs : List UInt8} {m : Memory} :
    (⟨start, bs⟩ : Patch).Fits m ↔ start + bs.length ≤ m.size := Iff.rfl

end Patch

namespace Memory

/-- The memory with patches stored, one after the other. -/
def patched (m : Memory) (ps : List Patch) : Memory := ps.foldl (fun m p => m.write p.start p.bytes) m

@[simp] theorem patched_nil (m : Memory) : m.patched [] = m := rfl

theorem patched_cons (m : Memory) (p : Patch) (ps : List Patch) :
    m.patched (p :: ps) = (m.write p.start p.bytes).patched ps := rfl

@[simp] theorem size_patched (m : Memory) (ps : List Patch) : (m.patched ps).size = m.size := by
  induction ps generalizing m with
  | nil => rfl
  | cons p ps ih => rw [patched_cons, ih, size_write]

theorem byte_patched {m : Memory} {ps : List Patch} {a : Nat} (h : ∀ p ∈ ps, ¬ p.Covers a) :
    (m.patched ps).byte a = m.byte a := by
  induction ps generalizing m with
  | nil => rfl
  | cons p ps ih =>
    obtain ⟨hp, hps⟩ := List.forall_mem_cons.1 h
    rw [patched_cons, ih hps, byte_write_of_not hp]

/-- A patch can be read back if none of the later ones fills an address of it. -/
theorem read_patched_cons {m : Memory} {p : Patch} {ps : List Patch} (hp : p.Fits m) (h : ∀ q ∈ ps, p.Apart q) :
    (m.patched (p :: ps)).read p.start p.bytes.length = p.bytes := by
  rw [patched_cons]
  refine (read_congr fun c hc hlt => ?_).trans (read_write hp)
  exact byte_patched fun q hq => h q hq c ⟨hc, hlt⟩

theorem read_patched {m : Memory} {ps : List Patch} (hfits : ∀ p ∈ ps, p.Fits m) (hapart : ps.Pairwise Patch.Apart)
    {p : Patch} (hp : p ∈ ps) : (m.patched ps).read p.start p.bytes.length = p.bytes := by
  induction ps generalizing m with
  | nil => cases hp
  | cons q ps ih =>
    obtain ⟨hq, hps⟩ := List.pairwise_cons.1 hapart
    obtain ⟨hfirst, hrest⟩ := List.forall_mem_cons.1 hfits
    rcases List.mem_cons.1 hp with rfl | hp
    · exact read_patched_cons hfirst hq
    · refine ih (fun r hr => ?_) hps hp
      rw [Patch.Fits, size_write]
      exact hrest r hr

/-- A word that was stored can be read back. -/
theorem wordOfBytes_read_patched {m : Memory} {ps : List Patch} (hfits : ∀ p ∈ ps, p.Fits m)
    (hapart : ps.Pairwise Patch.Apart) {a : Nat} {w : UInt32} (h : ⟨a, wordBytes w⟩ ∈ ps) :
    wordOfBytes ((m.patched ps).read a 4) = w := by
  have hread := read_patched hfits hapart h
  rw [length_wordBytes] at hread
  rw [hread, wordOfBytes_wordBytes]

end Memory

end GuestHost
