/-
  GuestHost.Memory — a linear memory: `size` bytes, of which only those that differ from zero are stored.

  The view of a memory is the pair of `size` and `byte`: two memories with the same view are equal
  (`Memory.eq_of_view`), and each operation is described by its effect on the view (`byte_set`,
  `byte_write`, `byte_grow`). Nothing outside the memory is ever stored, so a write past the end drops
  what does not fit; callers check the range first.
-/

import GuestHost.Runs
import Std.Data.ExtTreeMap

namespace GuestHost

def pageSize : Nat := 65536

/-- The most pages that a memory can have. -/
def pageLimit : Nat := 65536

/-- A byte memory. A cell that is absent holds zero, and no cell stores a zero or lies past the end. -/
structure Memory where
  size : Nat
  cells : Std.ExtTreeMap Nat UInt8
  stored : ∀ a v, cells[a]? = some v → v ≠ 0 ∧ a < size

namespace Memory

def zeroed (size : Nat) : Memory := ⟨size, ∅, by simp⟩

instance : Inhabited Memory := ⟨zeroed 0⟩

/-- The byte at `a`; zero past the end. -/
def byte (m : Memory) (a : Nat) : UInt8 := (m.cells[a]?).getD 0

/-- The memory with `v` at `a`; unchanged if `a` is past the end. -/
def set (m : Memory) (a : Nat) (v : UInt8) : Memory :=
  if h : a < m.size then
    if hv : v = 0 then
      { m with
        cells := m.cells.erase a
        stored := by
          intro b w hb
          rw [Std.ExtTreeMap.getElem?_erase] at hb
          split at hb
          · simp at hb
          · exact m.stored b w hb }
    else
      { m with
        cells := m.cells.insert a v
        stored := by
          intro b w hb
          rw [Std.ExtTreeMap.getElem?_insert] at hb
          split at hb
          · next hab => rw [Nat.compare_eq_eq] at hab; cases hab; cases hb; exact ⟨hv, h⟩
          · exact m.stored b w hb }
  else m

/-- The memory with `bs` stored from `a` on. -/
def write (m : Memory) (a : Nat) : List UInt8 → Memory
  | [] => m
  | b :: bs => (m.set a b).write (a + 1) bs

/-- The memory with zeros in the `n` bytes from `a` on. -/
def clear (m : Memory) (a n : Nat) : Memory :=
  { m with
    cells := m.cells.filter fun b _ => !(a ≤ b && b < a + n)
    stored := by
      intro b v hb
      rw [Std.ExtTreeMap.getElem?_filter', Option.filter_eq_some_iff] at hb
      exact m.stored b v hb.1 }

/-- The memory with the bytes of runs stored from `a` on. Zeros take no more time than there are cells. -/
def writeRuns (m : Memory) (a : Nat) : Runs → Memory
  | [] => m
  | r :: rs => (if r.isZero then m.clear a r.size else m.write a r.bytes).writeRuns (a + r.size) rs

def read (m : Memory) (a n : Nat) : List UInt8 := (List.range n).map fun i => m.byte (a + i)

def grow (m : Memory) (n : Nat) : Memory :=
  { m with
    size := m.size + n
    stored := fun a v h => ⟨(m.stored a v h).1, Nat.lt_add_right n (m.stored a v h).2⟩ }

/-- Whether the `n` bytes from `a` on all lie in memory. -/
def holds (m : Memory) (a n : Nat) : Bool := a + n ≤ m.size

/-- How many whole pages the memory has. -/
def pages (m : Memory) : Nat := m.size / pageSize

/-! ## The view -/

@[simp] theorem size_zeroed (n : Nat) : (zeroed n).size = n := rfl

@[simp] theorem byte_zeroed (n a : Nat) : (zeroed n).byte a = 0 := by simp [zeroed, byte]

@[simp] theorem size_set (m : Memory) (a : Nat) (v : UInt8) : (m.set a v).size = m.size := by
  unfold set; split <;> (try split) <;> rfl

@[simp] theorem size_write (m : Memory) (a : Nat) (bs : List UInt8) : (m.write a bs).size = m.size := by
  induction bs generalizing m a with
  | nil => rfl
  | cons b bs ih => rw [write, ih, size_set]

@[simp] theorem size_grow (m : Memory) (n : Nat) : (m.grow n).size = m.size + n := rfl

@[simp] theorem byte_grow (m : Memory) (n a : Nat) : (m.grow n).byte a = m.byte a := rfl

theorem byte_of_size_le (m : Memory) {a : Nat} (h : m.size ≤ a) : m.byte a = 0 := by
  unfold byte
  cases hc : m.cells[a]? with
  | none => rfl
  | some v => exact absurd (m.stored a v hc).2 (Nat.not_lt.2 h)

theorem byte_set (m : Memory) (a b : Nat) (v : UInt8) :
    (m.set a v).byte b = if b = a ∧ a < m.size then v else m.byte b := by
  unfold set
  by_cases h : a < m.size
  · by_cases hv : v = 0
    · subst hv
      by_cases hb : b = a
      · simp [h, hb, byte]
      · simp [h, hb, byte, Std.ExtTreeMap.getElem?_erase, Ne.symm hb]
    · by_cases hb : b = a
      · simp [h, hv, hb, byte]
      · simp [h, hv, hb, byte, Std.ExtTreeMap.getElem?_insert, Ne.symm hb]
  · simp [h]

theorem byte_write (m : Memory) (a c : Nat) (bs : List UInt8) :
    (m.write a bs).byte c = if a ≤ c ∧ c < a + bs.length ∧ c < m.size then bs.getD (c - a) 0 else m.byte c := by
  induction bs generalizing m a with
  | nil =>
    have h : ¬(a ≤ c ∧ c < a + List.length ([] : List UInt8) ∧ c < m.size) := by simp; omega
    rw [if_neg h, write]
  | cons b bs ih =>
    rw [write, ih, size_set, byte_set, List.length_cons]
    by_cases hca : c = a
    · subst hca
      have h1 : ¬(c + 1 ≤ c ∧ c < c + 1 + bs.length ∧ c < m.size) := by omega
      rw [if_neg h1]
      by_cases hs : c < m.size
      · have h2 : c ≤ c ∧ c < c + (bs.length + 1) ∧ c < m.size := ⟨Nat.le_refl c, by omega, hs⟩
        rw [if_pos ⟨rfl, hs⟩, if_pos h2, Nat.sub_self, List.getD_cons_zero]
      · rw [if_neg (fun h => hs h.2), if_neg (fun h => hs h.2.2)]
    · by_cases hr : a + 1 ≤ c ∧ c < a + 1 + bs.length ∧ c < m.size
      · have h2 : a ≤ c ∧ c < a + (bs.length + 1) ∧ c < m.size := by omega
        have h3 : c - a = (c - (a + 1)) + 1 := by omega
        rw [if_pos hr, if_pos h2, h3, List.getD_cons_succ]
      · have h2 : ¬(a ≤ c ∧ c < a + (bs.length + 1) ∧ c < m.size) := by omega
        rw [if_neg hr, if_neg h2, if_neg (fun h => hca h.1)]

@[simp] theorem size_clear (m : Memory) (a n : Nat) : (m.clear a n).size = m.size := rfl

theorem byte_clear (m : Memory) (a n c : Nat) :
    (m.clear a n).byte c = if a ≤ c ∧ c < a + n then 0 else m.byte c := by
  unfold byte clear
  rw [Std.ExtTreeMap.getElem?_filter']
  by_cases h : a ≤ c ∧ c < a + n
  · cases m.cells[c]? <;> simp [h]
  · have hkeep : (!(decide (a ≤ c) && decide (c < a + n))) = true := by
      rw [Bool.not_eq_true', Bool.and_eq_false_iff, decide_eq_false_iff_not, decide_eq_false_iff_not]
      omega
    rw [if_neg h]
    cases m.cells[c]? with
    | none => rfl
    | some v => rw [Option.filter_some, hkeep, if_pos rfl]

@[simp] theorem length_read (m : Memory) (a n : Nat) : (m.read a n).length = n := by simp [read]

theorem getElem_read (m : Memory) (a n i : Nat) (h : i < (m.read a n).length) : (m.read a n)[i] = m.byte (a + i) := by
  simp [read]

/-- Memories are equal when they have the same size and the same bytes. -/
theorem eq_of_view {m n : Memory} (hs : m.size = n.size) (hb : ∀ a, m.byte a = n.byte a) : m = n := by
  have hc : m.cells = n.cells := by
    apply Std.ExtTreeMap.ext_getElem?
    intro a
    have h := hb a
    unfold byte at h
    cases hm : m.cells[a]? with
    | none =>
      cases hn : n.cells[a]? with
      | none => rfl
      | some w => rw [hm, hn] at h; exact absurd h.symm (n.stored a w hn).1
    | some v =>
      cases hn : n.cells[a]? with
      | none => rw [hm, hn] at h; exact absurd h (m.stored a v hm).1
      | some w => rw [hm, hn] at h; exact congrArg some h
  cases m
  cases n
  cases hs
  cases hc
  rfl

theorem write_append (m : Memory) (a : Nat) (bs more : List UInt8) :
    m.write a (bs ++ more) = (m.write a bs).write (a + bs.length) more := by
  induction bs generalizing m a with
  | nil => rfl
  | cons b bs ih => rw [List.cons_append, write, ih, write, List.length_cons, Nat.add_assoc, Nat.add_comm 1]

/-- Storing zeros is clearing. -/
theorem clear_eq_write (m : Memory) (a : Nat) {r : Run} (h : r.isZero = true) :
    m.clear a r.size = m.write a r.bytes := by
  refine eq_of_view (by rw [size_clear, size_write]) fun c => ?_
  have hzero : r.bytes.getD (c - a) 0 = 0 := by
    rw [List.getD_eq_getElem?_getD]
    cases hc : r.bytes[c - a]? with
    | none => rfl
    | some b => exact Run.eq_zero_of_isZero h (List.mem_of_getElem? hc)
  rw [byte_clear, byte_write, hzero, Run.length_bytes]
  by_cases hin : c < m.size
  · simp only [hin, and_true]
  · have hout : m.byte c = 0 := m.byte_of_size_le (Nat.le_of_not_lt hin)
    simp only [hout, ite_self]

/-- Runs are stored as the bytes that they spell. -/
theorem writeRuns_eq (m : Memory) (a : Nat) (rs : Runs) : m.writeRuns a rs = m.write a rs.bytes := by
  induction rs generalizing m a with
  | nil => rfl
  | cons r rs ih =>
    have hfirst : (if r.isZero then m.clear a r.size else m.write a r.bytes) = m.write a r.bytes := by
      split
      · next hzero => exact m.clear_eq_write a hzero
      · rfl
    rw [writeRuns, hfirst, ih, Runs.bytes, write_append, Run.length_bytes]

instance : DecidableEq Memory := fun m n =>
  decidable_of_iff (m.size = n.size ∧ m.cells.toList = n.cells.toList) (by
    constructor
    · rintro ⟨hs, hc⟩
      have hcells : m.cells = n.cells := Std.ExtTreeMap.toList_inj.1 hc
      exact eq_of_view hs fun a => by unfold byte; rw [hcells]
    · rintro rfl
      exact ⟨rfl, rfl⟩)

end Memory

end GuestHost
