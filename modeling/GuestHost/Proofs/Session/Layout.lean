/-
  GuestHost.Proofs.Session.Layout — where the command line and the environment fit.

  Strings are laid out entry by entry, and before each entry is stored it is seen whether it lies in memory: its place
  in the array, and then its bytes. What the entries take together is looked at nowhere. From one entry to the next the
  addresses go on as 32-bit words, so after the last address there is they go on at zero. A row that runs past the end
  of memory is found out nevertheless, at the entry that does so, unless the end is the end of the address space and
  falls between two entries (`Strings.Meets`): then no entry runs past it, and the rest is stored at the bottom of
  memory (`an_array_goes_on_at_zero`).

  Proved:
  - `Strings.layOut_cases`: patches are stored up to the first that does not fit, at addresses that wrap around.
  - `Strings.start_lt_of_stored`: with no entry at the end of the address space, none that is stored has wrapped around.
  - `strings_are_laid_out_where_they_fit`: when the calls succeed, and what they may change.
-/

import Mathlib.Data.List.TakeWhile
import GuestHost.Proofs.Session.Strings

namespace GuestHost

open Exec

/-- The patch at the address to which its own wraps around. -/
def Patch.wrapped (p : Patch) : Patch := ⟨p.start % UInt32.size, p.bytes⟩

theorem Patch.wrapped_of_lt {p : Patch} (h : p.start < UInt32.size) : p.wrapped = p := by
  rw [wrapped, Nat.mod_eq_of_lt h]

namespace Strings

variable {strings : List String} {slot next size : Nat}

/-! ## Up to the first entry that does not fit -/

/-- The patch lies in a memory of `size` bytes, at the address to which its own wraps around. -/
def Finds (size : Nat) (p : Patch) : Prop := p.start % UInt32.size + p.bytes.length ≤ size

instance (size : Nat) (p : Patch) : Decidable (Finds size p) := inferInstanceAs (Decidable (_ ≤ _))

/-- Every patch lies in a memory of `size` bytes, at the address to which its own wraps around. -/
def AllFit (size : Nat) (strings : List String) (slot next : Nat) : Prop :=
  ∀ p ∈ patches strings slot next, Finds size p

/-- The patches before the first that does not lie in a memory of `size` bytes. -/
def stored (size : Nat) (strings : List String) (slot next : Nat) : List Patch :=
  (patches strings slot next).takeWhile fun p => Finds size p

theorem stored_of_allFit (h : AllFit size strings slot next) :
    stored size strings slot next = patches strings slot next :=
  List.takeWhile_eq_self_iff.2 fun p hp => decide_eq_true (h p hp)

theorem allFit_cons {s : String} {rest : List String} :
    AllFit size (s :: rest) slot next ↔ slot % UInt32.size + 4 ≤ size ∧
      next % UInt32.size + ((utf8 s).length + 1) ≤ size ∧
        AllFit size rest (slot + 4) (next + ((utf8 s).length + 1)) := by
  simp only [AllFit, patches, List.forall_mem_cons, Finds, length_wordBytes, length_terminated]

theorem stored_cons (s : String) (rest : List String) : stored size (s :: rest) slot next =
    if slot % UInt32.size + 4 ≤ size then
      ⟨slot, wordBytes (UInt32.ofNat next)⟩ ::
        if next % UInt32.size + ((utf8 s).length + 1) ≤ size then
          ⟨next, terminated s⟩ :: stored size rest (slot + 4) (next + ((utf8 s).length + 1))
        else []
    else [] := by
  simp only [stored, patches, List.takeWhile_cons, Finds, length_wordBytes, length_terminated, decide_eq_true_eq]

section

variable {slot' next' : Nat} (hslot : slot % UInt32.size = slot' % UInt32.size)
  (hnext : next % UInt32.size = next' % UInt32.size)

include hslot hnext

/-- Of two addresses only the words to which they come matter for what is stored. -/
theorem wrapped_stored : (stored size strings slot next).map Patch.wrapped =
    (stored size strings slot' next').map Patch.wrapped := by
  induction strings generalizing slot slot' next next' with
  | nil => rfl
  | cons s rest ih =>
    have hword : UInt32.ofNat next = UInt32.ofNat next' :=
      UInt32.toNat_inj.1 (by rwa [UInt32.toNat_ofNat', UInt32.toNat_ofNat'])
    have hrest := ih (Nat.add_mod_eq_add_mod_right 4 hslot)
      (Nat.add_mod_eq_add_mod_right ((utf8 s).length + 1) hnext)
    rw [stored_cons, stored_cons, hslot, hnext, hword]
    split
    · split
      · simp only [List.map_cons, Patch.wrapped, hslot, hnext, hrest]
      · simp only [List.map_cons, Patch.wrapped, hslot, List.map_nil]
    · rfl

theorem allFit_congr : AllFit size strings slot next ↔ AllFit size strings slot' next' := by
  induction strings generalizing slot slot' next next' with
  | nil => exact Iff.rfl
  | cons s rest ih =>
    rw [allFit_cons, allFit_cons, hslot, hnext, ih (Nat.add_mod_eq_add_mod_right 4 hslot)
      (Nat.add_mod_eq_add_mod_right ((utf8 s).length + 1) hnext)]

end

/-- Laying out strings stores patches up to the first that does not lie in memory, and fails if there is one. -/
theorem layOut_cases (m : Memory) (slot next : UInt32) (hextent : extent strings < UInt32.size) :
    ∃ after, after = m.patched ((stored m.size strings slot.toNat next.toNat).map Patch.wrapped) ∧
      (layOut strings slot next m = .ok () after ∧ AllFit m.size strings slot.toNat next.toNat ∨
        (∃ e, layOut strings slot next m = .error e after) ∧ ¬ AllFit m.size strings slot.toNat next.toNat) := by
  refine ⟨_, rfl, ?_⟩
  induction strings generalizing slot next m with
  | nil => exact .inl ⟨rfl, nofun⟩
  | cons s rest ih =>
    rw [extent_cons] at hextent
    have hlen := Careful.toNat_terminatedSize (s := s) (by omega)
    have hslot : slot.toNat % UInt32.size = slot.toNat := Nat.mod_eq_of_lt slot.toNat_lt_size
    have hnext : next.toNat % UInt32.size = next.toNat := Nat.mod_eq_of_lt next.toNat_lt_size
    have hslotPatch (w : UInt32) : (⟨slot.toNat, wordBytes w⟩ : Patch).wrapped = ⟨slot.toNat, wordBytes w⟩ :=
      Patch.wrapped_of_lt slot.toNat_lt_size
    have hnextPatch : (⟨next.toNat, terminated s⟩ : Patch).wrapped = ⟨next.toNat, terminated s⟩ :=
      Patch.wrapped_of_lt next.toNat_lt_size
    rw [stored_cons, allFit_cons, hslot, hnext, UInt32.ofNat_toNat, layOut]
    by_cases hword : slot.toNat + 4 ≤ m.size
    · let m₁ := m.write slot.toNat (wordBytes next)
      rw [bind_of_ok (Memory.writeWord_eq_ok hword), if_pos hword, List.map_cons, hslotPatch, Memory.patched_cons]
      by_cases hstring : next.toNat + ((utf8 s).length + 1) ≤ m.size
      · let m₂ := m₁.write next.toNat (terminated s)
        have hsame : m₂.size = m.size := by rw [Memory.size_write, Memory.size_write]
        have hstore : Memory.store next (UInt32.ofNat (utf8 s).length + 1) (terminated s) m₁ = .ok () m₂ :=
          Memory.store_eq_ok _ (by rw [hlen, Memory.size_write]; exact hstring)
        -- The rest goes on at the words to which the sums wrap around.
        have hslotNext : (slot + 4).toNat % UInt32.size = (slot.toNat + 4) % UInt32.size := by
          rw [UInt32.toNat_add]
          exact Nat.mod_mod ..
        have hstringNext : (next + (UInt32.ofNat (utf8 s).length + 1)).toNat % UInt32.size =
            (next.toNat + ((utf8 s).length + 1)) % UInt32.size := by
          rw [UInt32.toNat_add, hlen]
          exact Nat.mod_mod ..
        have hrest := ih m₂ (slot + 4) (next + (UInt32.ofNat (utf8 s).length + 1)) (by omega)
        rw [wrapped_stored hslotNext hstringNext, allFit_congr hslotNext hstringNext, hsame] at hrest
        rw [bind_of_ok hstore, if_pos hstring, List.map_cons, hnextPatch, Memory.patched_cons]
        simpa only [hword, hstring, true_and] using hrest
      · have hstore : Memory.store next (UInt32.ofNat (utf8 s).length + 1) (terminated s) m₁ = .error _ m₁ :=
          Memory.store_eq_error _ (by rw [hlen, Memory.size_write]; omega)
        rw [bind_of_error hstore, if_neg hstring, List.map_nil, Memory.patched_nil]
        exact .inr ⟨⟨_, rfl⟩, fun h => hstring h.2.1⟩
    · rw [bind_of_error (Memory.writeWord_eq_error (by omega)), if_neg hword, List.map_nil, Memory.patched_nil]
      exact .inr ⟨⟨_, rfl⟩, fun h => hword h.1⟩

/-! ## At the end of the address space -/

/-- An entry of the array, or a string, begins where the address space ends. -/
def Meets (strings : List String) (slot next : Nat) : Prop := ∃ p ∈ patches strings slot next, p.start = UInt32.size

/-- With no entry at the end of the address space, and as many bytes of memory, a patch that is stored has not wrapped
around. -/
theorem start_lt_of_stored (hsize : size ≤ UInt32.size) (hmeets : ¬ (size = UInt32.size ∧ Meets strings slot next))
    (hslot : slot < UInt32.size) (hnext : next < UInt32.size) {p : Patch} (hp : p ∈ stored size strings slot next) :
    p.start < UInt32.size := by
  induction strings generalizing slot next with
  | nil => cases hp
  | cons s rest ih =>
    rw [stored_cons, Nat.mod_eq_of_lt hslot, Nat.mod_eq_of_lt hnext] at hp
    split at hp
    · next hword =>
      rcases List.mem_cons.1 hp with rfl | hp
      · exact hslot
      · split at hp
        · next hstring =>
          rcases List.mem_cons.1 hp with rfl | hp
          · exact hnext
          · have hrest : ¬ (size = UInt32.size ∧ Meets rest (slot + 4) (next + ((utf8 s).length + 1))) := by
              rintro ⟨hfull, q, hq, hstart⟩
              exact hmeets ⟨hfull, q, List.mem_cons_of_mem _ (List.mem_cons_of_mem _ hq), hstart⟩
            cases rest with
            | nil => cases hp
            | cons t rest =>
              -- What follows begins where this one ends, which is in memory, and so before the end unless it is met.
              refine ih hrest ?_ ?_ hp
              · refine Nat.lt_of_le_of_ne (Nat.le_trans hword hsize) fun hend => hrest ⟨by omega, ?_⟩
                exact ⟨_, List.mem_cons_self, hend⟩
              · refine Nat.lt_of_le_of_ne (Nat.le_trans hstring hsize) fun hend => hrest ⟨by omega, ?_⟩
                exact ⟨_, List.mem_cons_of_mem _ List.mem_cons_self, hend⟩
        · cases hp
    · cases hp

/-! ## Entry by entry -/

/-- Number `i` of the patches for the array, and number `i` of those for the strings. -/
theorem mem_patches_iff {p : Patch} : p ∈ patches strings slot next ↔ ∃ i, ∃ hi : i < strings.length,
    p = ⟨slot + 4 * i, wordBytes (UInt32.ofNat (next + extent (strings.take i)))⟩ ∨
      p = ⟨next + extent (strings.take i), terminated strings[i]⟩ := by
  induction strings generalizing slot next with
  | nil => exact ⟨nofun, fun ⟨_, hi, _⟩ => absurd hi (Nat.not_lt_zero _)⟩
  | cons s rest ih =>
    have hslot (i : Nat) : slot + 4 + 4 * i = slot + 4 * (i + 1) := by omega
    have hnext (i : Nat) : next + ((utf8 s).length + 1) + extent (rest.take i) =
        next + extent ((s :: rest).take (i + 1)) := by
      rw [List.take_succ_cons, extent_cons]
      omega
    rw [patches, List.mem_cons, List.mem_cons, ih, ← or_assoc]
    constructor
    · rintro (h | ⟨i, hi, h⟩)
      · exact ⟨0, Nat.succ_pos _, h⟩
      · rw [hslot, hnext] at h
        exact ⟨i + 1, Nat.succ_lt_succ hi, h⟩
    · rintro ⟨i, hi, h⟩
      cases i with
      | zero => exact .inl h
      | succ i =>
        rw [← hslot, ← hnext] at h
        exact .inr ⟨i, Nat.lt_of_succ_lt_succ hi, h⟩

theorem allFit_iff : AllFit size strings slot next ↔ ∀ i (hi : i < strings.length),
    (slot + 4 * i) % UInt32.size + 4 ≤ size ∧
      (next + extent (strings.take i)) % UInt32.size + ((utf8 strings[i]).length + 1) ≤ size := by
  constructor
  · intro h i hi
    have hword := h _ (mem_patches_iff.2 ⟨i, hi, .inl rfl⟩)
    have hstring := h _ (mem_patches_iff.2 ⟨i, hi, .inr rfl⟩)
    rw [Finds, length_wordBytes] at hword
    rw [Finds, length_terminated] at hstring
    exact ⟨hword, hstring⟩
  · intro h p hp
    obtain ⟨i, hi, rfl | rfl⟩ := mem_patches_iff.1 hp
    · rw [Finds, length_wordBytes]
      exact (h i hi).1
    · rw [Finds, length_terminated]
      exact (h i hi).2

theorem meets_iff : Meets strings slot next ↔
    ∃ i < strings.length, slot + 4 * i = UInt32.size ∨ next + extent (strings.take i) = UInt32.size := by
  constructor
  · rintro ⟨p, hp, hstart⟩
    obtain ⟨i, hi, rfl | rfl⟩ := mem_patches_iff.1 hp
    · exact ⟨i, hi, .inl hstart⟩
    · exact ⟨i, hi, .inr hstart⟩
  · rintro ⟨i, hi, hstart | hstart⟩
    · exact ⟨_, mem_patches_iff.2 ⟨i, hi, .inl rfl⟩, hstart⟩
    · exact ⟨_, mem_patches_iff.2 ⟨i, hi, .inr rfl⟩, hstart⟩

/-- If each patch for at least one string lies in memory, so do the array and the run of the strings. -/
theorem ends_of_fits (hne : strings ≠ []) (h : ∀ p ∈ patches strings slot next, p.start + p.bytes.length ≤ size) :
    slot + 4 * strings.length ≤ size ∧ next + extent strings ≤ size := by
  induction strings generalizing slot next with
  | nil => exact absurd rfl hne
  | cons s rest ih =>
    have hword := h _ List.mem_cons_self
    have hstring := h _ (List.mem_cons_of_mem _ List.mem_cons_self)
    rw [length_wordBytes] at hword
    rw [length_terminated] at hstring
    dsimp only at hword hstring
    rw [List.length_cons, extent_cons]
    cases rest with
    | nil =>
      rw [List.length_nil, extent_nil]
      exact ⟨by omega, by omega⟩
    | cons t rest =>
      have hrest := ih (List.cons_ne_nil t rest) fun p hp => h p (List.mem_cons_of_mem _ (List.mem_cons_of_mem _ hp))
      omega

section

variable (hsize : size ≤ UInt32.size) (hmeets : ¬ (size = UInt32.size ∧ Meets strings slot next))
  (hslot : slot < UInt32.size) (hnext : next < UInt32.size)

include hsize

/-- A byte that a patch which is stored fills, at the address to which it wraps around. -/
theorem wraps_of_covers {p : Patch} (hp : p ∈ stored size strings slot next) {a : Nat} (ha : p.wrapped.Covers a) :
    (∃ k < 4 * strings.length, a = (slot + k) % UInt32.size) ∨
      ∃ k < extent strings, a = (next + k) % UInt32.size := by
  have htaken := List.mem_takeWhile_imp hp
  have hfinds : Finds size p := of_decide_eq_true htaken
  obtain ⟨hle, hlt⟩ := ha
  obtain ⟨d, rfl⟩ := Nat.exists_eq_add_of_le hle
  have hd : d < p.bytes.length := Nat.add_lt_add_iff_left.1 hlt
  have hword : (p.start + d) % UInt32.size = p.wrapped.start + d := by
    rw [← Nat.mod_add_mod]
    exact Nat.mod_eq_of_lt (Nat.lt_of_lt_of_le (Nat.lt_of_lt_of_le hlt hfinds) hsize)
  rcases covers_of_patch (List.takeWhile_subset _ hp) ⟨Nat.le_add_right _ d, Nat.add_lt_add_left hd _⟩ with h | h
  · exact .inl ⟨p.start + d - slot, by omega, by rw [Nat.add_sub_cancel' h.1, hword]⟩
  · exact .inr ⟨p.start + d - next, by omega, by rw [Nat.add_sub_cancel' h.1, hword]⟩

include hmeets hslot hnext

theorem within_of_covers {p : Patch} (hp : p ∈ stored size strings slot next) {a : Nat} (ha : p.wrapped.Covers a) :
    (slot ≤ a ∧ a < slot + 4 * strings.length) ∨ (next ≤ a ∧ a < next + extent strings) := by
  rw [Patch.wrapped_of_lt (start_lt_of_stored hsize hmeets hslot hnext hp)] at ha
  exact covers_of_patch (List.takeWhile_subset _ hp) ha

theorem allFit_iff_of_not_meets (hne : strings ≠ []) : AllFit size strings slot next ↔
    slot + 4 * strings.length ≤ size ∧ next + extent strings ≤ size := by
  constructor
  · intro h
    refine ends_of_fits hne fun p hp => ?_
    have hstored : p ∈ stored size strings slot next := stored_of_allFit h ▸ hp
    have hfinds := h p hp
    rwa [Finds, Nat.mod_eq_of_lt (start_lt_of_stored hsize hmeets hslot hnext hstored)] at hfinds
  · rintro ⟨hslots, hbytes⟩ p hp
    have hfits := fits_of_patch (m := Memory.zeroed size) hslots hbytes hp
    exact Nat.le_trans (Nat.add_le_add_right (Nat.mod_le ..) _) hfits

end

/-! ## Calls -/

/-- What becomes of strings that a guest has laid out from `slots` and `next` on: the call answers with `errno` and
leaves the memory `after`. -/
structure LaidOutBy (around : Surroundings) (m : Machine (Hosted Work Session)) (strings : List String)
    (call : HostCall) (slots next : UInt32) (errno : Errno) (after : Memory) : Prop where
  answer : call.run around [.i32 slots, .i32 next] m = .ok (.ready errno.raw) { m with memory := after }
  either : errno = .success ∨ errno = .fault
  sameSize : after.size = m.memory.size
  /-- Each entry has to lie in memory, at addresses that go on at zero after the last. -/
  succeeds_iff : errno = .success ↔ ∀ i (hi : i < strings.length),
    (slots.toNat + 4 * i) % UInt32.size + 4 ≤ m.memory.size ∧
      (next.toNat + extent (strings.take i)) % UInt32.size + ((utf8 strings[i]).length + 1) ≤ m.memory.size
  beside : ∀ a, (∀ k < 4 * strings.length, a ≠ (slots.toNat + k) % UInt32.size) →
    (∀ k < extent strings, a ≠ (next.toNat + k) % UInt32.size) → after.byte a = m.memory.byte a
  /-- If the memory ends before the address space does, or no entry begins there, addresses need not go on at zero. -/
  unwrapped : ¬ (m.memory.size = UInt32.size ∧ ∃ i < strings.length,
      slots.toNat + 4 * i = UInt32.size ∨ next.toNat + extent (strings.take i) = UInt32.size) →
    (errno = .success ↔
      slots.toNat + 4 * strings.length ≤ m.memory.size ∧ next.toNat + extent strings ≤ m.memory.size) ∧
    ∀ a, ¬ (slots.toNat ≤ a ∧ a < slots.toNat + 4 * strings.length) →
      ¬ (next.toNat ≤ a ∧ a < next.toNat + extent strings) → after.byte a = m.memory.byte a

theorem exists_laidOutBy {around : Surroundings} {m : Machine (Hosted Work Session)} {call : HostCall}
    (hsize : m.memory.size ≤ UInt32.size) (hne : strings ≠ []) (hextent : extent strings < UInt32.size)
    {slots next : UInt32} (hcall : call.run around [.i32 slots, .i32 next] m =
      (do HostCall.answer (← HostCall.marshal (layOut strings slots next))) m) :
    ∃ errno after, LaidOutBy around m strings call slots next errno after := by
  obtain ⟨after, hafter, hends⟩ := layOut_cases m.memory slots next hextent
  have hslots := slots.toNat_lt_size
  have hnext := next.toNat_lt_size
  have hbyte {a : Nat} (h : ∀ p ∈ stored m.memory.size strings slots.toNat next.toNat, ¬ p.wrapped.Covers a) :
      after.byte a = m.memory.byte a := by
    rw [hafter]
    exact Memory.byte_patched (List.forall_mem_map.2 h)
  have hdone (errno : Errno) (heither : errno = .success ∨ errno = .fault)
      (hfit : errno = .success ↔ AllFit m.memory.size strings slots.toNat next.toNat)
      (hanswer : call.run around [.i32 slots, .i32 next] m = .ok (.ready errno.raw) { m with memory := after }) :
      LaidOutBy around m strings call slots next errno after := by
    refine {
      answer := hanswer
      either := heither
      sameSize := hafter ▸ Memory.size_patched ..
      succeeds_iff := hfit.trans allFit_iff
      beside := fun a hslot hstart => hbyte fun p hp hcovers => ?_
      unwrapped := fun hmeets => ?_ }
    · rcases wraps_of_covers hsize hp hcovers with ⟨k, hk, rfl⟩ | ⟨k, hk, rfl⟩
      · exact hslot k hk rfl
      · exact hstart k hk rfl
    · rw [← meets_iff] at hmeets
      refine ⟨hfit.trans (allFit_iff_of_not_meets hsize hmeets hslots hnext hne), fun a hslot hstart => ?_⟩
      exact hbyte fun p hp hcovers => (within_of_covers hsize hmeets hslots hnext hp hcovers).elim hslot hstart
  rcases hends with ⟨hok, hfit⟩ | ⟨⟨e, herror⟩, hfit⟩
  · exact ⟨.success, after, hdone _ (.inl rfl) (iff_of_true rfl hfit) (hcall.trans (HostCall.answer_of_ok hok))⟩
  · refine ⟨.fault, after, hdone _ (.inr rfl) (iff_of_false nofun hfit) (hcall.trans ?_)⟩
    exact bind_of_ok (HostCall.marshal_of_error herror)

end Strings

/-- The calls for the command line and for the environment, with at least one string, answer with success or with a
fault. They succeed exactly if every entry lies in memory, where after the last address the addresses go on at zero,
and they change nothing beside the places of the entries. Only if all addresses are in memory, and an entry begins
where they end, is that another thing than that the array and the run of the strings lie in memory, each as a whole. -/
theorem strings_are_laid_out_where_they_fit (around : Surroundings) (m : Machine (Hosted Work Session))
    (hsize : m.memory.size ≤ UInt32.size) (slots next : UInt32) :
    (m.outer.host.args ≠ [] → Strings.extent m.outer.host.args < UInt32.size →
        ∃ errno after, Strings.LaidOutBy around m m.outer.host.args .argsGet slots next errno after) ∧
      (m.outer.host.env ≠ [] → Strings.extent m.outer.host.env < UInt32.size →
        ∃ errno after, Strings.LaidOutBy around m m.outer.host.env .environGet slots next errno after) :=
  ⟨fun hne hextent => Strings.exists_laidOutBy hsize hne hextent rfl,
    fun hne hextent => Strings.exists_laidOutBy hsize hne hextent rfl⟩

/-- A guest with two arguments and one pair in its environment, and all the memory there can be. -/
def roomy : Machine (Hosted Work Session) where
  memory := Memory.zeroed UInt32.size
  outer :=
    { host :=
        { args := ["a", "b"]
          env := ["K=v"]
          stdio := Options.stdio {}
          filesystem := { memory := default, outer := {} } } }

/-- The arguments may fill its memory up to the last byte, and the pair does not fit in three bytes. -/
theorem rows_end_with_memory :
    roomy.memory.size ≤ UInt32.size ∧
      (∃ after, HostCall.argsGet.run ⟨0, fun _ => some 0⟩ [.i32 0, .i32 0xFFFFFFFC] roomy =
        .ok (.ready Errno.success.raw) { roomy with memory := after }) ∧
      ∃ after, HostCall.environGet.run ⟨0, fun _ => some 0⟩ [.i32 0, .i32 0xFFFFFFFD] roomy =
        .ok (.ready Errno.fault.raw) { roomy with memory := after } := by
  have hsize : roomy.memory.size ≤ UInt32.size := Nat.le_refl _
  have hlaid := strings_are_laid_out_where_they_fit ⟨0, fun _ => some 0⟩ roomy hsize
  obtain ⟨errno, after, hargs⟩ := (hlaid 0 0xFFFFFFFC).1 (by decide) (by decide +kernel)
  obtain ⟨errno', after', henv⟩ := (hlaid 0 0xFFFFFFFD).2 (by decide) (by decide +kernel)
  obtain rfl : errno = .success := (hargs.unwrapped (by decide +kernel)).1.2 (by decide +kernel)
  have hunfit : errno' ≠ .success := fun h => absurd ((henv.unwrapped (by decide +kernel)).1.1 h) (by decide +kernel)
  obtain rfl : errno' = .fault := henv.either.resolve_left hunfit
  exact ⟨hsize, ⟨after, hargs.answer⟩, after', henv.answer⟩

/-- Where there is room for one address only, at the end of all memory, both arguments are laid out nevertheless: the
address of the second is stored at zero. -/
theorem an_array_goes_on_at_zero :
    let slots : UInt32 := 0xFFFFFFFC
    let next : UInt32 := 4096
    let count := roomy.outer.host.args.length
    let total := Strings.extent roomy.outer.host.args
    roomy.memory.size = UInt32.size ∧ count = 2 ∧ total = 4 ∧
      ∃ after, HostCall.argsGet.run ⟨0, fun _ => some 0⟩ [.i32 slots, .i32 next] roomy =
          .ok (.ready Errno.success.raw) { roomy with memory := after } ∧
        ¬ slots.toNat + 4 * count ≤ roomy.memory.size ∧
        ∃ a, ¬ (slots.toNat ≤ a ∧ a < slots.toNat + 4 * count) ∧ ¬ (next.toNat ≤ a ∧ a < next.toNat + total) ∧
          after.byte a ≠ roomy.memory.byte a := by
  have hchanged : (roomy.memory.patched [⟨0xFFFFFFFC, wordBytes 4096⟩, ⟨4096, Strings.terminated "a"⟩,
      ⟨0, wordBytes 4098⟩, ⟨4098, Strings.terminated "b"⟩]).byte 0 ≠ roomy.memory.byte 0 := by decide +kernel
  exact ⟨rfl, rfl, by decide +kernel, _, rfl, by decide +kernel, 0, by decide +kernel, by decide +kernel, hchanged⟩

end GuestHost
