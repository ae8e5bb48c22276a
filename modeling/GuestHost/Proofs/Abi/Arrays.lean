/-
  GuestHost.Proofs.Abi.Arrays — arrays of buffers, written and read back.

  An array is refused or decoded as a whole: the check of its bounds comes before its first word is read. To say so,
  decoding is run with a note of every address at which it reads (`Memory.Noting`); but for the notes it is the
  decoding that runs (`Memory.Noting.forgets_readIoVecs`).

  Writing an array word by word is the inverse of decoding it. An entry ends where the next one begins, so what is
  written is a row of patches of which no two share an address.

  Proved:
  - `Memory.Noting.readIoVecs_eq`: which words are read, and what they make.
  - `Memory.writeIoVecs_eq_ok`: what writing an array comes to.
  - `Memory.arrays_are_decoded_exactly`: the arrays that are decoded are those that lie in memory, and what has been
    written is what is decoded.
-/

import GuestHost.Proofs.Abi.Patches
import GuestHost.Proofs.Session.Transfers

namespace GuestHost

open Exec

namespace Memory

/-! ## What decoding reads -/

/-- Decoding that notes the address of every word that it reads. -/
abbrev Noting := EStateM MarshalError (List UInt32)

namespace Noting

variable {α β : Type} {m : Memory} {addr count : UInt32}

/-- A step that reads no word, whatever is noted. -/
def unnoted {σ : Type} (x : Except MarshalError α) : EStateM MarshalError σ α := fun noted =>
  match x with
  | .ok a => .ok a noted
  | .error e => .error e noted

/-- The word at `addr`, of which a note is taken before it is read. -/
def readWord (m : Memory) (addr : UInt32) : Noting UInt32 := fun noted => unnoted (m.readWord addr) (noted ++ [addr])

def readIoVecs (m : Memory) (addr count : UInt32) : Noting (List IoVec) := do
  let total := count.toNat * IoVec.encodedSize.toNat
  if total < UInt32.size then
    let _ ← unnoted (m.slice addr (UInt32.ofNat total))
    (List.range count.toNat).mapM fun i => do
      let entry := addr + UInt32.ofNat i * IoVec.encodedSize
      return ⟨← readWord m entry, ← readWord m (entry + 4)⟩
  else throw (.outOfBounds addr.toNat total m.size)

/-- The addresses of the words of an array, entry by entry. -/
def words (addr count : Nat) : List Nat := (List.range count).flatMap fun i => [addr + i * 8, addr + i * 8 + 4]

/-- But for the notes, `x` comes to `y`. -/
def Forgets (x : Noting α) (y : Except MarshalError α) : Prop := Exec.Forgets (fun _ => ()) x (unnoted y)

theorem unnoted_bind {σ : Type} (x : Except MarshalError α) (f : α → Except MarshalError β) :
    (unnoted (x >>= f) : EStateM MarshalError σ β) = unnoted x >>= fun a => unnoted (f a) := by
  cases x <;> rfl

theorem unnoted_mapM {σ : Type} (f : β → Except MarshalError α) (l : List β) :
    (unnoted (l.mapM f) : EStateM MarshalError σ (List α)) = l.mapM fun b => unnoted (f b) := by
  induction l with
  | nil => rfl
  | cons b l ih =>
    simp only [List.mapM_cons, unnoted_bind, ih]
    rfl

theorem forgets_unnoted (y : Except MarshalError α) : Forgets (unnoted y) y := by
  intro noted
  cases y <;> rfl

theorem forgets_readWord (m : Memory) (addr : UInt32) : Forgets (readWord m addr) (m.readWord addr) :=
  fun _ => forgets_unnoted _ _

/-- Noting what is read changes nothing else. -/
theorem forgets_readIoVecs (m : Memory) (addr count : UInt32) :
    Forgets (readIoVecs m addr count) (m.readIoVecs addr count) := by
  unfold Forgets readIoVecs Memory.readIoVecs
  dsimp only
  split
  · simp only [unnoted_bind, unnoted_mapM]
    refine Exec.Forgets.bind (forgets_unnoted _) fun _ => .mapM (fun i => ?_) _
    exact Exec.Forgets.bind (forgets_readWord m _) fun _ => .bind (forgets_readWord m _) fun _ => .pure _
  · exact fun _ => rfl

theorem readWord_eq_ok {noted : List UInt32} (h : addr.toNat + 4 ≤ m.size) :
    readWord m addr noted = .ok (wordOfBytes (m.read addr.toNat 4)) (noted ++ [addr]) := by
  rw [readWord, Memory.readWord_eq_ok h]
  rfl

/-- An action on each element of a list, where none fails and each takes notes of its own. -/
theorem mapM_eq_ok {f : Nat → Noting α} {g : Nat → α} {taken : Nat → List UInt32} {l : List Nat}
    (h : ∀ i ∈ l, ∀ noted, f i noted = .ok (g i) (noted ++ taken i)) (noted : List UInt32) :
    l.mapM f noted = .ok (l.map g) (noted ++ l.flatMap taken) := by
  induction l generalizing noted with
  | nil =>
    rw [List.flatMap_nil, List.append_nil]
    rfl
  | cons i l ih =>
    have hrest := ih (fun j hj => h j (List.mem_cons_of_mem i hj)) (noted ++ taken i)
    rw [List.mapM_cons, bind_of_ok (h i List.mem_cons_self noted), bind_of_ok hrest, List.flatMap_cons,
      List.append_assoc]
    rfl

/-- An array that lies in memory is read word by word, each word once and in order. -/
theorem readIoVecs_eq (hsize : m.size ≤ UInt32.size) (h : m.HoldsArray addr count) :
    ∃ noted, noted.map UInt32.toNat = words addr.toNat count.toNat ∧
      readIoVecs m addr count [] = .ok ((List.range count.toNat).map (m.entry addr.toNat)) noted := by
  obtain ⟨hcount, hend⟩ := id h
  have htotal : count.toNat * IoVec.encodedSize.toNat = count.toNat * 8 := rfl
  have hword : (UInt32.ofNat (count.toNat * 8)).toNat = count.toNat * 8 := UInt32.toNat_ofNat_of_lt' hcount
  have hslice : (unnoted (m.slice addr (UInt32.ofNat (count.toNat * 8))) : Noting View) [] =
      .ok (m.view addr.toNat (count.toNat * 8)) [] := by
    rw [slice_eq_ok (by omega), hword]
    rfl
  refine ⟨(List.range count.toNat).flatMap fun i =>
    [addr + UInt32.ofNat i * IoVec.encodedSize, addr + UInt32.ofNat i * IoVec.encodedSize + 4], ?_, ?_⟩
  · rw [List.map_flatMap, words]
    refine congrArg List.flatten (List.map_congr_left fun i hi => ?_)
    obtain ⟨-, hentry, hnext⟩ := h.toNat_entry hsize (List.mem_range.1 hi)
    rw [List.map_cons, List.map_cons, List.map_nil, hentry, hnext]
  · simp only [readIoVecs, htotal]
    rw [if_pos hcount, bind_of_ok hslice, mapM_eq_ok, List.nil_append]
    intro i hi noted
    obtain ⟨-, hentry, hnext⟩ := h.toNat_entry hsize (List.mem_range.1 hi)
    have hi : i < count.toNat := List.mem_range.1 hi
    rw [bind_of_ok (readWord_eq_ok (by omega)), bind_of_ok (readWord_eq_ok (by omega)), hentry, hnext,
      List.append_assoc]
    rfl

/-- Of an array that does not lie in memory no word is read. -/
theorem readIoVecs_eq_error (h : ¬ m.HoldsArray addr count) :
    readIoVecs m addr count [] = .error (.outOfBounds addr.toNat (count.toNat * 8) m.size) [] := by
  have htotal : count.toNat * IoVec.encodedSize.toNat = count.toNat * 8 := rfl
  simp only [readIoVecs, htotal]
  by_cases hcount : count.toNat * 8 < UInt32.size
  · have hword : (UInt32.ofNat (count.toNat * 8)).toNat = count.toNat * 8 := UInt32.toNat_ofNat_of_lt' hcount
    have hend : ¬ addr.toNat + count.toNat * 8 ≤ m.size := fun hend => h ⟨hcount, hend⟩
    rw [if_pos hcount, slice_eq_error (by omega), hword]
    rfl
  · rw [if_neg hcount]
    rfl

end Noting

/-! ## Writing arrays -/

/-- Writes buffers as an array, each as its address and its length. -/
def writeIoVecs : UInt32 → List IoVec → Marshal Unit
  | _, [] => pure ()
  | addr, v :: vs => do
    writeWord addr v.ptr
    writeWord (addr + 4) v.len
    writeIoVecs (addr + IoVec.encodedSize) vs

/-- The words of an array, each at its address. -/
def arrayPatches : Nat → List IoVec → List Patch
  | _, [] => []
  | a, v :: vs => ⟨a, wordBytes v.ptr⟩ :: ⟨a + 4, wordBytes v.len⟩ :: arrayPatches (a + 8) vs

variable {m : Memory} {vs : List IoVec} {a : Nat} {p : Patch}

/-- A word of an array lies within the array. -/
theorem within_of_arrayPatch (hp : p ∈ arrayPatches a vs) :
    a ≤ p.start ∧ p.start + p.bytes.length ≤ a + vs.length * 8 := by
  induction vs generalizing a with
  | nil => cases hp
  | cons v vs ih =>
    rw [List.length_cons]
    rcases List.mem_cons.1 hp with rfl | hp
    · rw [length_wordBytes]
      dsimp only
      omega
    · rcases List.mem_cons.1 hp with rfl | hp
      · rw [length_wordBytes]
        dsimp only
        omega
      · have hrest := ih hp
        omega

theorem apart_arrayPatches (a : Nat) (vs : List IoVec) : (arrayPatches a vs).Pairwise Patch.Apart := by
  induction vs generalizing a with
  | nil => exact .nil
  | cons v vs ih =>
    refine .cons (fun q hq c hc hqc => ?_) (.cons (fun q hq c hc hqc => ?_) (ih (a + 8)))
    · rw [Patch.covers_mk, length_wordBytes] at hc
      rcases List.mem_cons.1 hq with rfl | hq
      · rw [Patch.covers_mk, length_wordBytes] at hqc
        omega
      · have hwithin := (within_of_arrayPatch hq).1
        have hstart := hqc.1
        omega
    · rw [Patch.covers_mk, length_wordBytes] at hc
      have hwithin := (within_of_arrayPatch hq).1
      have hstart := hqc.1
      omega

/-- Both words of every entry are among the patches, at the addresses at which the entry is decoded. -/
theorem mem_arrayPatches {i : Nat} {v : IoVec} (h : vs[i]? = some v) :
    (⟨a + i * 8, wordBytes v.ptr⟩ : Patch) ∈ arrayPatches a vs ∧
      (⟨a + i * 8 + 4, wordBytes v.len⟩ : Patch) ∈ arrayPatches a vs := by
  induction vs generalizing a i with
  | nil => cases h
  | cons w vs ih =>
    cases i with
    | zero =>
      obtain rfl : w = v := Option.some.inj h
      rw [Nat.zero_mul, Nat.add_zero]
      exact ⟨List.mem_cons_self, List.mem_cons_of_mem _ List.mem_cons_self⟩
    | succ i =>
      have haddr : a + (i + 1) * 8 = a + 8 + i * 8 := by omega
      rw [haddr]
      obtain ⟨hptr, hlen⟩ := ih (a := a + 8) h
      exact ⟨List.mem_cons_of_mem _ (List.mem_cons_of_mem _ hptr), List.mem_cons_of_mem _ (List.mem_cons_of_mem _ hlen)⟩

theorem fits_arrayPatches (h : a + vs.length * 8 ≤ m.size) : ∀ p ∈ arrayPatches a vs, p.Fits m :=
  fun _ hp => Nat.le_trans (within_of_arrayPatch hp).2 h

theorem writeIoVecs_eq_ok {addr : UInt32} (hsize : m.size ≤ UInt32.size)
    (h : addr.toNat + vs.length * 8 ≤ m.size) :
    writeIoVecs addr vs m = .ok () (m.patched (arrayPatches addr.toNat vs)) := by
  induction vs generalizing m addr with
  | nil => rfl
  | cons v vs ih =>
    rw [List.length_cons] at h
    have hnext : (addr + 4).toNat = addr.toNat + 4 := toNat_add_ofNat (n := 4) (by omega)
    have hlen : (addr + 4).toNat + 4 ≤ (m.write addr.toNat (wordBytes v.ptr)).size := by
      rw [hnext, size_write]
      omega
    rw [writeIoVecs, bind_of_ok (writeWord_eq_ok (by omega)), bind_of_ok (writeWord_eq_ok hlen), hnext, arrayPatches,
      patched_cons, patched_cons]
    -- The last entry may end at the last address, and then the address after it is no word any more.
    cases vs with
    | nil =>
      rw [writeIoVecs, arrayPatches, patched_nil]
      rfl
    | cons w vs =>
      have hrest : (addr + IoVec.encodedSize).toNat = addr.toNat + 8 := by
        rw [List.length_cons] at h
        exact toNat_add_ofNat (n := 8) (by omega)
      rw [← hrest]
      refine ih (by rwa [size_write, size_write]) ?_
      rw [size_write, size_write, hrest]
      omega

/-- What has been written as an entry is decoded as that entry. -/
theorem entry_patched (h : a + vs.length * 8 ≤ m.size) {i : Nat} {v : IoVec} (hv : vs[i]? = some v) :
    (m.patched (arrayPatches a vs)).entry a i = v := by
  obtain ⟨hptr, hlen⟩ := mem_arrayPatches (a := a) hv
  rw [entry, wordOfBytes_read_patched (fits_arrayPatches h) (apart_arrayPatches a vs) hptr,
    wordOfBytes_read_patched (fits_arrayPatches h) (apart_arrayPatches a vs) hlen]

theorem readIoVecs_patched {addr : UInt32} (hsize : m.size ≤ UInt32.size) (hcount : vs.length * 8 < UInt32.size)
    (h : addr.toNat + vs.length * 8 ≤ m.size) :
    (m.patched (arrayPatches addr.toNat vs)).readIoVecs addr (UInt32.ofNat vs.length) = .ok vs := by
  have hword : (UInt32.ofNat vs.length).toNat = vs.length := UInt32.toNat_ofNat_of_lt' (by omega)
  have hholds : (m.patched (arrayPatches addr.toNat vs)).HoldsArray addr (UInt32.ofNat vs.length) := by
    rw [HoldsArray, hword, size_patched]
    exact ⟨hcount, h⟩
  rw [readIoVecs_eq _ addr _ (by rwa [size_patched]), if_pos hholds, hword]
  congr 1
  refine List.ext_getElem (by simp) fun i hi hvs => ?_
  rw [List.getElem_map, List.getElem_range]
  exact entry_patched h (List.getElem?_eq_getElem hvs)

/-! ## Both directions -/

/-- In a memory with no more bytes than there are addresses, an array is decoded exactly if it lies in memory and its
size is a word, an array of no entries included; then each entry is the two words at its place, and these are all
that is read. Any other array is refused with its exact size before a word of it is read. What is written as an array
is decoded as what it was, and writing it changes no byte beside it. -/
theorem arrays_are_decoded_exactly (m : Memory) (hsize : m.size ≤ UInt32.size) (addr : UInt32) :
    (∀ count, Noting.Forgets (Noting.readIoVecs m addr count) (m.readIoVecs addr count)) ∧
    (∀ count, (∃ vs, m.readIoVecs addr count = .ok vs) ↔
      8 * count.toNat < UInt32.size ∧ addr.toNat + 8 * count.toNat ≤ m.size) ∧
    (∀ count e, m.readIoVecs addr count = .error e →
      e = .outOfBounds addr.toNat (8 * count.toNat) m.size ∧ Noting.readIoVecs m addr count [] = .error e []) ∧
    (∀ count vs, m.readIoVecs addr count = .ok vs →
      vs.length = count.toNat ∧
      (∀ (i : Nat) (v : IoVec), vs[i]? = some v →
        v = ⟨wordOfBytes (m.read (addr.toNat + 8 * i) 4), wordOfBytes (m.read (addr.toNat + 8 * i + 4) 4)⟩) ∧
      ∃ noted, noted.map UInt32.toNat = Noting.words addr.toNat count.toNat ∧
        Noting.readIoVecs m addr count [] = .ok vs noted) ∧
    ∀ vs : List IoVec, 8 * vs.length < UInt32.size → addr.toNat + 8 * vs.length ≤ m.size →
      ∃ m', writeIoVecs addr vs m = .ok () m' ∧ m'.readIoVecs addr (UInt32.ofNat vs.length) = .ok vs ∧
        m'.size = m.size ∧ ∀ c, ¬ (addr.toNat ≤ c ∧ c < addr.toNat + 8 * vs.length) → m'.byte c = m.byte c := by
  have hdecoded := fun count => m.readIoVecs_eq addr count hsize
  refine ⟨fun count => Noting.forgets_readIoVecs m addr count, fun count => ?_, fun count e he => ?_,
    fun count vs hvs => ?_, fun vs hcount hend => ?_⟩
  · have hholds : m.HoldsArray addr count ↔ 8 * count.toNat < UInt32.size ∧ addr.toNat + 8 * count.toNat ≤ m.size := by
      rw [HoldsArray, Nat.mul_comm]
    rw [← hholds, hdecoded count]
    by_cases h : m.HoldsArray addr count <;> simp [h]
  · have h : ¬ m.HoldsArray addr count := fun h => by
      rw [hdecoded count, if_pos h] at he
      cases he
    rw [hdecoded count, if_neg h] at he
    cases he
    rw [Nat.mul_comm 8]
    exact ⟨rfl, Noting.readIoVecs_eq_error h⟩
  · have h : m.HoldsArray addr count := by
      by_contra h
      rw [hdecoded count, if_neg h] at hvs
      cases hvs
    rw [hdecoded count, if_pos h] at hvs
    cases hvs
    refine ⟨by simp, fun i v hv => ?_, Noting.readIoVecs_eq hsize h⟩
    obtain ⟨hi, rfl⟩ := List.getElem?_eq_some_iff.1 hv
    rw [List.getElem_map, List.getElem_range, entry, Nat.mul_comm 8]
  · rw [Nat.mul_comm] at hcount hend ⊢
    refine ⟨_, writeIoVecs_eq_ok hsize hend, readIoVecs_patched hsize hcount hend, size_patched .., fun c hc => ?_⟩
    refine byte_patched fun p hp hcovers => hc ?_
    have hwithin := within_of_arrayPatch hp
    exact ⟨Nat.le_trans hwithin.1 hcovers.1, Nat.lt_of_lt_of_le hcovers.2 hwithin.2⟩

/-- Where every address is in memory, an array may end with the last one; with an entry more it is refused. -/
theorem an_array_may_end_at_the_last_address :
    (zeroed UInt32.size).size ≤ UInt32.size ∧
    (∃ m', writeIoVecs 0xFFFFFFF0 [⟨64, 3⟩, ⟨100, 0⟩] (zeroed UInt32.size) = .ok () m' ∧
      m'.readIoVecs 0xFFFFFFF0 2 = .ok [⟨64, 3⟩, ⟨100, 0⟩]) ∧
    (zeroed UInt32.size).readIoVecs 0xFFFFFFF0 3 = .error (.outOfBounds 0xFFFFFFF0 24 UInt32.size) := by
  have hsize : (zeroed UInt32.size).size ≤ UInt32.size := Nat.le_refl _
  obtain ⟨-, hdecoded, hrefused, -, hwritten⟩ := arrays_are_decoded_exactly (zeroed UInt32.size) hsize 0xFFFFFFF0
  refine ⟨hsize, ?_, ?_⟩
  · obtain ⟨m', hwrite, hread, -⟩ := hwritten [⟨64, 3⟩, ⟨100, 0⟩] (by decide) (by decide)
    exact ⟨m', hwrite, hread⟩
  · cases h : (zeroed UInt32.size).readIoVecs 0xFFFFFFF0 3 with
    | ok vs => exact absurd ((hdecoded 3).1 ⟨vs, h⟩) (by decide)
    | error e => rw [(hrefused 3 e h).1]; rfl

end Memory

end GuestHost
