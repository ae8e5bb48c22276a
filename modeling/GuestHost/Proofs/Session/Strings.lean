/-
  GuestHost.Proofs.Session.Strings — the command line and the environment, as a guest reads them.

  A list of strings is stored as one run of bytes, each string with its end mark, and an array with the address of each.
  The guest asks for the sizes of both first. As long as the array and the run lie in memory and share no address, none
  of the 32-bit sums by which they are laid out wraps around before its last use, and what is stored for one string is
  not touched by what is stored for another; so the guest reads the list back, by the addresses or by the end marks.

  Proved:
  - `Strings.layOut_eq_ok`: laying out strings stores a row of patches.
  - `Strings.LaidOut.cut`, `Strings.LaidOut.upToMark`: both ways of reading them back.
  - `strings_reach_the_guest`: the calls for the command line and for the environment.
-/

import GuestHost.Proofs.Abi.Patches
import GuestHost.Proofs.Session.Careful
import GuestHost.Proofs.Session.Transfers
import GuestHost.Proofs.Stream.Twins
import GuestHost.Session.Run

namespace GuestHost

open Exec

/-! ## Texts -/

/-- The text that bytes spell, if they spell one. -/
def text? (bs : List UInt8) : Option String := String.fromUTF8? ⟨bs.toArray⟩

theorem text?_utf8 (s : String) : text? (utf8 s) = some s := by
  have hbytes : (⟨(utf8 s).toArray⟩ : ByteArray) = s.toByteArray := by
    rw [utf8, Array.toArray_toList]
    rfl
  rw [text?, hbytes, String.fromUTF8?, dif_pos s.isValidUTF8]
  rfl

theorem zero_notMem_utf8EncodeChar {c : Char} (h : c ≠ '\x00') : 0 ∉ String.utf8EncodeChar c := by
  have hval : c.val.toNat ≠ 0 := fun hzero => h (Char.ext (UInt32.toNat_inj.1 hzero))
  have hbyte {n : Nat} (hn : n % 256 ≠ 0) : (0 : UInt8) ≠ UInt8.ofNat n := by
    intro hzero
    refine hn ?_
    rw [← UInt8.toNat_ofNat', ← hzero]
    rfl
  unfold String.utf8EncodeChar
  dsimp only
  split
  · simp only [List.mem_singleton]
    exact hbyte (by omega)
  · split
    · simp only [List.mem_cons, List.not_mem_nil, or_false, not_or]
      exact ⟨hbyte (by omega), hbyte (by omega)⟩
    · split
      · simp only [List.mem_cons, List.not_mem_nil, or_false, not_or]
        exact ⟨hbyte (by omega), hbyte (by omega), hbyte (by omega)⟩
      · simp only [List.mem_cons, List.not_mem_nil, or_false, not_or]
        exact ⟨hbyte (by omega), hbyte (by omega), hbyte (by omega), hbyte (by omega)⟩

/-- Only the character zero is encoded with a byte zero. -/
theorem zero_notMem_utf8 {s : String} (h : '\x00' ∉ s.toList) : 0 ∉ utf8 s := by
  have hbytes : utf8 s = s.toList.flatMap String.utf8EncodeChar := by
    rw [utf8, String.toUTF8_eq_toByteArray, ← String.utf8Encode_toList, List.utf8Encode]
    simp
  rw [hbytes, List.mem_flatMap]
  rintro ⟨c, hc, hzero⟩
  exact zero_notMem_utf8EncodeChar (fun hnul => h (hnul ▸ hc)) hzero

namespace Strings

/-! ## Sizes -/

/-- How many bytes strings take with their end marks. -/
def extent : List String → Nat
  | [] => 0
  | s :: rest => (utf8 s).length + 1 + extent rest

@[simp] theorem extent_nil : extent [] = 0 := rfl

@[simp] theorem extent_cons (s : String) (rest : List String) :
    extent (s :: rest) = (utf8 s).length + 1 + extent rest := rfl

@[simp] theorem length_terminated (s : String) : (terminated s).length = (utf8 s).length + 1 := by simp [terminated]

theorem length_le_extent (strings : List String) : strings.length ≤ extent strings := by
  induction strings with
  | nil => exact Nat.le_refl 0
  | cons s rest ih =>
    rw [List.length_cons, extent_cons]
    omega

theorem toNat_totalSize {strings : List String} (h : extent strings < UInt32.size) :
    (totalSize strings).toNat = extent strings := by
  have hfold (total : UInt32) (htotal : total.toNat + extent strings < UInt32.size) :
      (strings.foldl (fun total s => addCount total (UInt32.ofNat (utf8 s).length + 1).toNat) total).toNat =
        total.toNat + extent strings := by
    induction strings generalizing total with
    | nil => rfl
    | cons s rest ih =>
      rw [extent_cons] at h htotal
      have hlen := Careful.toNat_terminatedSize (s := s) (by omega)
      have hsum : (addCount total (UInt32.ofNat (utf8 s).length + 1).toNat).toNat =
          total.toNat + ((utf8 s).length + 1) := by
        rw [toNat_addCount, hlen]
        omega
      rw [List.foldl_cons, ih (by omega) _ (by omega), hsum, extent_cons]
      omega
  have hsum := hfold 0 (by rwa [UInt32.toNat_zero, Nat.zero_add])
  rwa [UInt32.toNat_zero, Nat.zero_add] at hsum

def sizePatches (strings : List String) (count size : Nat) : List Patch :=
  [⟨count, wordBytes (UInt32.ofNat strings.length)⟩, ⟨size, wordBytes (totalSize strings)⟩]

theorem sizes_eq_ok {strings : List String} {count size : UInt32} {m : Memory} (hcount : count.toNat + 4 ≤ m.size)
    (hbytes : size.toNat + 4 ≤ m.size) :
    sizes strings count size m = .ok () (m.patched (sizePatches strings count.toNat size.toNat)) := by
  rw [sizes, bind_of_ok (Memory.writeWord_eq_ok hcount), Memory.writeWord_eq_ok (by rwa [Memory.size_write]),
    sizePatches, Memory.patched_cons, Memory.patched_cons, Memory.patched_nil]

section

variable {strings : List String} {count size : Nat} {p : Patch} {m : Memory}

theorem covers_of_sizePatch {a : Nat} (hp : p ∈ sizePatches strings count size) (ha : p.Covers a) :
    (count ≤ a ∧ a < count + 4) ∨ (size ≤ a ∧ a < size + 4) := by
  rw [sizePatches, List.mem_cons, List.mem_singleton] at hp
  rcases hp with rfl | rfl <;> rw [Patch.covers_mk, length_wordBytes] at ha
  · exact .inl ha
  · exact .inr ha

theorem fits_of_sizePatch (hcount : count + 4 ≤ m.size) (hbytes : size + 4 ≤ m.size)
    (hp : p ∈ sizePatches strings count size) : p.Fits m := by
  rw [sizePatches, List.mem_cons, List.mem_singleton] at hp
  rcases hp with rfl | rfl <;> rw [Patch.fits_mk, length_wordBytes]
  · exact hcount
  · exact hbytes

theorem pairwise_sizePatches (hapart : count + 4 ≤ size ∨ size + 4 ≤ count) :
    (sizePatches strings count size).Pairwise Patch.Apart := by
  refine List.pairwise_pair.2 fun a hnumber htotal => ?_
  rw [Patch.covers_mk, length_wordBytes] at hnumber htotal
  omega

end

/-! ## Laying out -/

/-- What is stored for strings: for each its address, and then its bytes with the end mark. -/
def patches : List String → Nat → Nat → List Patch
  | [], _, _ => []
  | s :: rest, slot, next =>
    ⟨slot, wordBytes (UInt32.ofNat next)⟩ :: ⟨next, terminated s⟩ ::
      patches rest (slot + 4) (next + ((utf8 s).length + 1))

theorem layOut_eq_ok {strings : List String} {slot next : UInt32} {m : Memory} (hsize : m.size ≤ UInt32.size)
    (hslots : slot.toNat + 4 * strings.length ≤ m.size) (hbytes : next.toNat + extent strings ≤ m.size)
    (hextent : extent strings < UInt32.size) :
    layOut strings slot next m = .ok () (m.patched (patches strings slot.toNat next.toNat)) := by
  induction strings generalizing slot next m with
  | nil => rfl
  | cons s rest ih =>
    rw [List.length_cons] at hslots
    rw [extent_cons] at hbytes hextent
    have hlen := Careful.toNat_terminatedSize (s := s) (by omega)
    let m₁ := m.write slot.toNat (wordBytes next)
    let m₂ := m₁.write next.toNat (terminated s)
    have hword : Memory.writeWord slot next m = .ok () m₁ := Memory.writeWord_eq_ok (by omega)
    have hstore : Memory.store next (UInt32.ofNat (utf8 s).length + 1) (terminated s) m₁ = .ok () m₂ :=
      Memory.store_eq_ok _ (by rw [Memory.size_write]; omega)
    have hsame : m₂.size = m.size := by rw [Memory.size_write, Memory.size_write]
    -- the sums may wrap around only if no string comes after this one
    have hrest : layOut rest (slot + 4) (next + (UInt32.ofNat (utf8 s).length + 1)) m₂ =
        .ok () (m₂.patched (patches rest (slot.toNat + 4) (next.toNat + ((utf8 s).length + 1)))) := by
      cases rest with
      | nil => rfl
      | cons t rest =>
        have hmore := length_le_extent (t :: rest)
        rw [List.length_cons] at hslots hmore
        have hslot : (slot + 4).toNat = slot.toNat + 4 := toNat_add_ofNat (n := 4) (by omega)
        have hnext : (next + (UInt32.ofNat (utf8 s).length + 1)).toNat = next.toNat + ((utf8 s).length + 1) := by
          rw [UInt32.toNat_add, hlen]
          exact Nat.mod_eq_of_lt (by show _ < UInt32.size; omega)
        rw [← hslot, ← hnext]
        exact ih (hsame ▸ hsize) (by rw [hslot, hsame, List.length_cons]; omega) (by rw [hnext, hsame]; omega)
          (by omega)
    rw [layOut, bind_of_ok hword, bind_of_ok hstore, hrest, patches, Memory.patched_cons, Memory.patched_cons,
      UInt32.ofNat_toNat]

/-! ### What a patch touches -/

section

variable {strings : List String} {slot next : Nat} {p : Patch} {m : Memory}

theorem covers_of_patch {a : Nat} (hp : p ∈ patches strings slot next) (ha : p.Covers a) :
    (slot ≤ a ∧ a < slot + 4 * strings.length) ∨ (next ≤ a ∧ a < next + extent strings) := by
  induction strings generalizing slot next with
  | nil => cases hp
  | cons s rest ih =>
    rw [List.length_cons, extent_cons]
    rcases List.mem_cons.1 hp with rfl | hp
    · rw [Patch.covers_mk, length_wordBytes] at ha
      omega
    · rcases List.mem_cons.1 hp with rfl | hp
      · rw [Patch.covers_mk, length_terminated] at ha
        omega
      · have hrest := ih hp
        omega

theorem fits_of_patch (hslots : slot + 4 * strings.length ≤ m.size) (hbytes : next + extent strings ≤ m.size)
    (hp : p ∈ patches strings slot next) : p.Fits m := by
  induction strings generalizing slot next with
  | nil => cases hp
  | cons s rest ih =>
    rw [List.length_cons] at hslots
    rw [extent_cons] at hbytes
    rcases List.mem_cons.1 hp with rfl | hp
    · rw [Patch.fits_mk, length_wordBytes]
      omega
    · rcases List.mem_cons.1 hp with rfl | hp
      · rw [Patch.fits_mk, length_terminated]
        omega
      · exact ih (by omega) (by omega) hp

/-- If the array and the run share no address, no two patches do. -/
theorem pairwise_patches (hapart : slot + 4 * strings.length ≤ next ∨ next + extent strings ≤ slot) :
    (patches strings slot next).Pairwise Patch.Apart := by
  induction strings generalizing slot next with
  | nil => exact .nil
  | cons s rest ih =>
    rw [List.length_cons, extent_cons] at hapart
    refine .cons (fun q hq a hword hcovers => ?_) (.cons (fun q hq a hbytes hcovers => ?_) (ih (by omega)))
    · rw [Patch.covers_mk, length_wordBytes] at hword
      rcases List.mem_cons.1 hq with rfl | hq
      · rw [Patch.covers_mk, length_terminated] at hcovers
        omega
      · have hrest := covers_of_patch hq hcovers
        omega
    · rw [Patch.covers_mk, length_terminated] at hbytes
      have hrest := covers_of_patch hq hcovers
      omega

end

/-! ## Reading back -/

/-- The address of each string is in the array at `slot`, and there the string lies with its end mark; they follow each
other from `next` on. -/
def LaidOut : List String → Nat → Nat → Memory → Prop
  | [], _, _, _ => True
  | s :: rest, slot, next, m =>
    (wordOfBytes (m.read slot 4)).toNat = next ∧ m.read next ((utf8 s).length + 1) = terminated s ∧
      LaidOut rest (slot + 4) (next + ((utf8 s).length + 1)) m

theorem laidOut_of_patches {strings : List String} {slot next : Nat} {m : Memory}
    (h : ∀ p ∈ patches strings slot next, m.read p.start p.bytes.length = p.bytes)
    (hbytes : next + extent strings ≤ UInt32.size) : LaidOut strings slot next m := by
  induction strings generalizing slot next with
  | nil => trivial
  | cons s rest ih =>
    rw [extent_cons] at hbytes
    have hword : m.read slot 4 = wordBytes (UInt32.ofNat next) := h ⟨slot, _⟩ List.mem_cons_self
    have hstring := h ⟨next, terminated s⟩ (List.mem_cons_of_mem _ List.mem_cons_self)
    rw [length_terminated] at hstring
    refine ⟨?_, hstring, ih (fun p hp => h p ?_) (by omega)⟩
    · rw [hword, wordOfBytes_wordBytes, UInt32.toNat_ofNat_of_lt' (by omega)]
    · exact List.mem_cons_of_mem _ (List.mem_cons_of_mem _ hp)

namespace LaidOut

variable {strings : List String} {slot next : Nat} {m : Memory}

/-- Where the address of a string is, and where the string. -/
theorem getElem (h : LaidOut strings slot next m) {i : Nat} (hi : i < strings.length) :
    (wordOfBytes (m.read (slot + 4 * i) 4)).toNat = next + extent (strings.take i) ∧
      m.read (next + extent (strings.take i)) ((utf8 strings[i]).length + 1) = terminated strings[i] := by
  induction strings generalizing slot next i with
  | nil => exact absurd hi (Nat.not_lt_zero i)
  | cons s rest ih =>
    obtain ⟨hword, hstring, hrest⟩ := h
    cases i with
    | zero => exact ⟨hword, hstring⟩
    | succ i =>
      obtain ⟨hword, hstring⟩ := ih hrest (Nat.lt_of_succ_lt_succ hi)
      rw [List.take_succ_cons, extent_cons, List.getElem_cons_succ, Nat.mul_succ, Nat.add_comm (4 * i), ← Nat.add_assoc,
        ← Nat.add_assoc]
      exact ⟨hword, hstring⟩

end LaidOut

end Strings

/-- The numbers of the words of an array. -/
def Memory.wordsAt (m : Memory) : Nat → Nat → List Nat
  | _, 0 => []
  | a, n + 1 => (wordOfBytes (m.read a 4)).toNat :: m.wordsAt (a + 4) n

/-- The bytes from each of the addresses up to the next one, and from the last one up to `stop`. -/
def Memory.cut (m : Memory) (stop : Nat) : List Nat → List (List UInt8)
  | [] => []
  | a :: rest => m.read a (rest.headD stop - a) :: m.cut stop rest

/-- The bytes from an address up to the first that is zero. -/
def Memory.upToMark (m : Memory) (a : Nat) : List UInt8 := (m.read a (m.size - a)).takeWhile (· != 0)

namespace Strings.LaidOut

variable {strings : List String} {slot next : Nat} {m : Memory}

/-- Cut at the addresses, the run comes to the strings with their end marks. -/
theorem cut (h : LaidOut strings slot next m) :
    m.cut (next + extent strings) (m.wordsAt slot strings.length) = strings.map terminated := by
  induction strings generalizing slot next with
  | nil => rfl
  | cons s rest ih =>
    obtain ⟨hword, hstring, hrest⟩ := h
    have hnext : (m.wordsAt (slot + 4) rest.length).headD (next + extent (s :: rest)) =
        next + ((utf8 s).length + 1) := by
      cases rest with
      | nil => rfl
      | cons t rest => exact hrest.1
    have hcut := ih hrest
    rw [Nat.add_assoc, ← extent_cons] at hcut
    rw [List.length_cons, Memory.wordsAt, Memory.cut, hnext, hword, Nat.add_sub_cancel_left, hstring, hcut,
      List.map_cons]

theorem upToMark_eq {s : String} {a : Nat} (hs : 0 ∉ utf8 s) (hfits : a + ((utf8 s).length + 1) ≤ m.size)
    (h : m.read a ((utf8 s).length + 1) = terminated s) : m.upToMark a = utf8 s := by
  obtain ⟨k, hk⟩ := Nat.exists_eq_add_of_le hfits
  have hbefore : ∀ b ∈ utf8 s, (b != 0) = true := fun b hb => by
    rw [bne_iff_ne]
    rintro rfl
    exact hs hb
  rw [Memory.upToMark, show m.size - a = (utf8 s).length + 1 + k by omega, Memory.read_add, h, terminated,
    List.append_assoc, List.takeWhile_append_of_pos hbefore]
  exact List.append_nil _

/-- Read up to their end marks, strings without a byte zero come to their bytes. -/
theorem upToMark (h : LaidOut strings slot next m) (hfits : next + extent strings ≤ m.size)
    (hmarks : ∀ s ∈ strings, 0 ∉ utf8 s) : (m.wordsAt slot strings.length).map m.upToMark = strings.map utf8 := by
  induction strings generalizing slot next with
  | nil => rfl
  | cons s rest ih =>
    rw [extent_cons] at hfits
    obtain ⟨hword, hstring, hrest⟩ := h
    obtain ⟨hs, hmarks⟩ := List.forall_mem_cons.1 hmarks
    rw [List.length_cons, Memory.wordsAt, List.map_cons, List.map_cons, hword,
      upToMark_eq hs (by omega) hstring, ih hrest (by omega) hmarks]

end Strings.LaidOut

/-! ## Calls -/

namespace Strings

/-- The number of the strings and the number of their bytes are in two words, and nothing else has changed. -/
structure Measured (strings : List String) (count size : Nat) (before after : Memory) : Prop where
  number : (wordOfBytes (after.read count 4)).toNat = strings.length
  total : (wordOfBytes (after.read size 4)).toNat = extent strings
  sameSize : after.size = before.size
  beside : ∀ a, ¬ (count ≤ a ∧ a < count + 4) → ¬ (size ≤ a ∧ a < size + 4) → after.byte a = before.byte a

/-- The strings lie one after the other from `next` on, and their addresses in the array at `slots`; nothing else has
changed; and the strings can be read back. -/
structure Stored (strings : List String) (slots next : Nat) (before after : Memory) : Prop where
  address : ∀ i < strings.length,
    (wordOfBytes (after.read (slots + 4 * i) 4)).toNat = next + extent (strings.take i)
  bytes : ∀ i (hi : i < strings.length),
    after.read (next + extent (strings.take i)) ((utf8 strings[i]).length + 1) = utf8 strings[i] ++ [0]
  sameSize : after.size = before.size
  beside : ∀ a, ¬ (slots ≤ a ∧ a < slots + 4 * strings.length) → ¬ (next ≤ a ∧ a < next + extent strings) →
    after.byte a = before.byte a
  /-- Cut at the addresses, the run comes to the strings and their end marks. -/
  cut : (after.cut (next + extent strings) (after.wordsAt slots strings.length)).map
    (fun piece => text? piece.dropLast) = strings.map some
  /-- Strings without the character zero are what lies between their addresses and the next byte zero. -/
  upToMark : (∀ s ∈ strings, '\x00' ∉ s.toList) →
    (after.wordsAt slots strings.length).map (fun a => text? (after.upToMark a)) = strings.map some

theorem measured_of_sizes {strings : List String} {count size : UInt32} {m : Memory}
    (hcount : count.toNat + 4 ≤ m.size) (hbytes : size.toNat + 4 ≤ m.size)
    (hapart : count.toNat + 4 ≤ size.toNat ∨ size.toNat + 4 ≤ count.toNat) (hextent : extent strings < UInt32.size) :
    ∃ memory, sizes strings count size m = .ok () memory ∧ Measured strings count.toNat size.toNat m memory := by
  have hlength := length_le_extent strings
  have hfits {p : Patch} (hp : p ∈ sizePatches strings count.toNat size.toNat) : p.Fits m :=
    fits_of_sizePatch hcount hbytes hp
  have hpairs := @pairwise_sizePatches strings _ _ hapart
  refine ⟨_, sizes_eq_ok hcount hbytes, {
    number := ?_
    total := ?_
    sameSize := Memory.size_patched ..
    beside := fun a hcounted hmeasured => Memory.byte_patched fun p hp hcovers =>
      (covers_of_sizePatch hp hcovers).elim hcounted hmeasured }⟩
  · rw [Memory.wordOfBytes_read_patched (fun _ => hfits) hpairs List.mem_cons_self,
      UInt32.toNat_ofNat_of_lt' (by omega)]
  · rw [Memory.wordOfBytes_read_patched (fun _ => hfits) hpairs (List.mem_cons_of_mem _ List.mem_cons_self),
      toNat_totalSize hextent]

theorem stored_of_layOut {strings : List String} {slots next : UInt32} {m : Memory} (hsize : m.size ≤ UInt32.size)
    (hslots : slots.toNat + 4 * strings.length ≤ m.size) (hbytes : next.toNat + extent strings ≤ m.size)
    (hapart : slots.toNat + 4 * strings.length ≤ next.toNat ∨ next.toNat + extent strings ≤ slots.toNat)
    (hextent : extent strings < UInt32.size) :
    ∃ memory, layOut strings slots next m = .ok () memory ∧ Stored strings slots.toNat next.toNat m memory := by
  let after := m.patched (patches strings slots.toNat next.toNat)
  have hlaid : LaidOut strings slots.toNat next.toNat after :=
    laidOut_of_patches (fun p hp => Memory.read_patched (fun q hq => fits_of_patch hslots hbytes hq)
      (pairwise_patches hapart) hp) (by omega)
  have hsame : after.size = m.size := Memory.size_patched ..
  refine ⟨after, layOut_eq_ok hsize hslots hbytes hextent, {
    address := fun i hi => (hlaid.getElem hi).1
    bytes := fun i hi => (hlaid.getElem hi).2
    sameSize := hsame
    beside := fun a hslot hbyte => Memory.byte_patched fun p hp hcovers =>
      (covers_of_patch hp hcovers).elim hslot hbyte
    cut := ?_
    upToMark := fun hnul => ?_ }⟩
  · rw [hlaid.cut, List.map_map]
    refine List.map_congr_left fun s _ => ?_
    rw [Function.comp_apply, terminated, List.dropLast_concat, text?_utf8]
  · have hread := hlaid.upToMark (by rwa [hsame]) fun s hs => zero_notMem_utf8 (hnul s hs)
    have htexts := congrArg (List.map text?) hread
    rw [List.map_map, List.map_map] at htexts
    refine htexts.trans (List.map_congr_left fun s _ => ?_)
    rw [Function.comp_apply, text?_utf8]

end Strings

/-- What two calls make of a list of strings: one stores its sizes, the other lays it out. Both have to be given places
in memory that share no address. -/
structure Readable (around : Surroundings) (m : Machine (Hosted Work Session)) (strings : List String)
    (sizesCall layOutCall : HostCall) : Prop where
  measured : ∀ count size : UInt32, count.toNat + 4 ≤ m.memory.size → size.toNat + 4 ≤ m.memory.size →
    count.toNat + 4 ≤ size.toNat ∨ size.toNat + 4 ≤ count.toNat →
    ∃ memory, sizesCall.run around [.i32 count, .i32 size] m = .ok (.ready Errno.success.raw) { m with memory } ∧
      Strings.Measured strings count.toNat size.toNat m.memory memory
  stored : ∀ slots next : UInt32, slots.toNat + 4 * strings.length ≤ m.memory.size →
    next.toNat + Strings.extent strings ≤ m.memory.size →
    slots.toNat + 4 * strings.length ≤ next.toNat ∨ next.toNat + Strings.extent strings ≤ slots.toNat →
    ∃ memory, layOutCall.run around [.i32 slots, .i32 next] m = .ok (.ready Errno.success.raw) { m with memory } ∧
      Strings.Stored strings slots.toNat next.toNat m.memory memory

/-- Storing something that finds its place, and answering so. -/
theorem HostCall.answer_of_ok {act : Marshal Unit} {m : Machine (Hosted Work Session)} {memory : Memory}
    (h : act m.memory = .ok () memory) :
    (do answer (← marshal act)) m = .ok (.ready Errno.success.raw) { m with memory } :=
  bind_of_ok (marshal_of_ok h)

theorem readable_of_run {around : Surroundings} {m : Machine (Hosted Work Session)} {strings : List String}
    {sizesCall layOutCall : HostCall} (hsize : m.memory.size ≤ UInt32.size)
    (hextent : Strings.extent strings < UInt32.size)
    (hsizes : ∀ count size, sizesCall.run around [.i32 count, .i32 size] m =
      (do HostCall.answer (← HostCall.marshal (Strings.sizes strings count size))) m)
    (hlayOut : ∀ slots next, layOutCall.run around [.i32 slots, .i32 next] m =
      (do HostCall.answer (← HostCall.marshal (Strings.layOut strings slots next))) m) :
    Readable around m strings sizesCall layOutCall where
  measured count size hcount hbytes hapart := by
    obtain ⟨memory, hok, hmeasured⟩ := Strings.measured_of_sizes hcount hbytes hapart hextent
    exact ⟨memory, (hsizes count size).trans (HostCall.answer_of_ok hok), hmeasured⟩
  stored slots next hslots hbytes hapart := by
    obtain ⟨memory, hok, hstored⟩ := Strings.stored_of_layOut hsize hslots hbytes hapart hextent
    exact ⟨memory, (hlayOut slots next).trans (HostCall.answer_of_ok hok), hstored⟩

/-- A session has the command line and the environment that it was set up with, also if that failed. -/
theorem Session.strings_setUp (o : Options) (fs : Filesystem) :
    (setUp o fs).2.args = o.args ∧ (setUp o fs).2.env = o.env.map fun (key, value) => key ++ "=" ++ value := by
  simp only [setUp]
  split <;> exact ⟨rfl, rfl⟩

/-- Whatever command line and environment a session was set up with, the guest reads them as they were given: the
strings of the one, and key and value of each pair of the other, in their order. -/
theorem strings_reach_the_guest (around : Surroundings) (o : Options) (fs : Filesystem)
    (m : Machine (Hosted Work Session)) (hargs : m.outer.host.args = (Session.setUp o fs).2.args)
    (henv : m.outer.host.env = (Session.setUp o fs).2.env) (hsize : m.memory.size ≤ UInt32.size) :
    (Strings.extent o.args < UInt32.size → Readable around m o.args .argsSizesGet .argsGet) ∧
      (Strings.extent (o.env.map fun (key, value) => key ++ "=" ++ value) < UInt32.size →
        Readable around m (o.env.map fun (key, value) => key ++ "=" ++ value) .environSizesGet .environGet) := by
  obtain ⟨hargs', henv'⟩ := Session.strings_setUp o fs
  rw [hargs'] at hargs
  rw [henv'] at henv
  constructor
  · intro hextent
    rw [← hargs] at hextent ⊢
    exact readable_of_run hsize hextent (fun _ _ => rfl) fun _ _ => rfl
  · intro hextent
    rw [← henv] at hextent ⊢
    exact readable_of_run hsize hextent (fun _ _ => rfl) fun _ _ => rfl

/-- A command line with an empty string and one of more bytes than characters, and an environment with an empty pair. -/
def polyglotOptions : Options where
  args := ["guest", "", "é€"]
  env := [("LANG", "a=b"), ("", "")]

/-- A guest with that command line and environment, and little memory. -/
def polyglot : Machine (Hosted Work Session) where
  memory := Memory.zeroed 64
  outer :=
    { host :=
        { args := polyglotOptions.args
          env := polyglotOptions.rendered
          stdio := polyglotOptions.stdio
          filesystem := { memory := default, outer := {} } } }

/-- It has both laid out up to the end of its memory. -/
theorem a_polyglot_reads_its_strings :
    let fs : Filesystem := ⟨.standard, 0, 100⟩
    polyglot.outer.host.args = (Session.setUp polyglotOptions fs).2.args ∧
      polyglot.outer.host.env = (Session.setUp polyglotOptions fs).2.env ∧ polyglot.memory.size ≤ UInt32.size ∧
      Strings.extent polyglotOptions.args = 13 ∧ Strings.extent polyglotOptions.rendered = 11 ∧
      (∃ memory, HostCall.argsGet.run ⟨0, fun _ => some 0⟩ [.i32 0, .i32 51] polyglot =
          .ok (.ready Errno.success.raw) { polyglot with memory } ∧
        (memory.cut 64 (memory.wordsAt 0 3)).map (fun piece => text? piece.dropLast) =
          [some "guest", some "", some "é€"]) ∧
      ∃ memory, HostCall.environGet.run ⟨0, fun _ => some 0⟩ [.i32 56, .i32 45] polyglot =
          .ok (.ready Errno.success.raw) { polyglot with memory } ∧
        (memory.wordsAt 56 2).map (fun a => text? (memory.upToMark a)) = [some "LANG=a=b", some "="] := by
  intro fs
  have hargs : Strings.extent polyglotOptions.args = 13 := by decide +kernel
  have henv : Strings.extent polyglotOptions.rendered = 11 := by decide +kernel
  have hsetUp := Session.strings_setUp polyglotOptions fs
  obtain ⟨hreadArgs, hreadEnv⟩ := strings_reach_the_guest ⟨0, fun _ => some 0⟩ polyglotOptions fs polyglot hsetUp.1.symm
    hsetUp.2.symm (by decide)
  obtain ⟨memory, hcall, hstored⟩ := (hreadArgs (by rw [hargs]; decide)).stored 0 51 (by decide)
    (by rw [hargs]; decide) (.inl (by decide))
  obtain ⟨memory', hcall', hstored'⟩ := (hreadEnv (henv.symm ▸ by decide)).stored 56 45 (by decide)
    (henv.symm ▸ by decide) (.inr (henv.symm ▸ by decide))
  have hcut := hstored.cut
  rw [hargs] at hcut
  exact ⟨hsetUp.1.symm, hsetUp.2.symm, by decide, hargs, henv, ⟨memory, hcall, hcut⟩, memory', hcall',
    hstored'.upToMark (by decide)⟩

end GuestHost
