/-
  GuestHost.Proofs.Filesystem.Journey — what a filesystem module can do between entering and leaving one of its
  exports.

  The module is code of which nothing is known. It reaches the guest's memory through `copy_in` and `copy_out`
  only, and the other imports give it a report or nothing at all. So every state that it comes to lies at the
  end of a journey of four kinds of legs (`Leg`): its own code, which lists what it stores; a report; a copy
  into its own memory; a copy into the guest's. What holds of each leg holds of every call of an export.

  Proved:
  - `copyIn_of_words`, `copyOut_of_words`: a copy moves all its bytes or none, and when it moves none.
  - `trace_of_words`: what becomes of a report.
  - `Filesystem.travels_invoke`, `Filesystem.travels_forward`: every call of an export is a journey, also one
    that fails, and it fails for reasons of the module only.
  - `Journey.guest_byte`, `Journey.own_byte`: where a byte that has changed comes from.
-/

import GuestHost.Proofs.Program.Keeping
import GuestHost.Filesystem.Instance

namespace GuestHost

open Exec

inductive Failure.OfModule : Failure → Prop
  | own {e : Failure} : e.Own → OfModule e
  | marshal (e : MarshalError) : OfModule (.marshal e)
  | memoryAccess : OfModule .memoryAccess
  | filesystem (e : FilesystemError) : OfModule (.filesystem e)
  | engine (text : String) : OfModule (.engine text)

/-! ## Legs -/

namespace Machine

/-- The module after it copied `len` bytes of the guest's memory at `src` to its own at `dst`. -/
def copiedIn (m : Machine Linkage) (src dst len : Nat) : Machine Linkage :=
  let bs := m.outer.guest.read src len
  { m with
    memory := m.memory.write dst bs
    outer := { m.outer with crossings := m.outer.crossings.push (.inward dst bs) } }

/-- The module after it copied `len` bytes of its memory at `src` to the guest's at `dst`. -/
def copiedOut (m : Machine Linkage) (src dst len : Nat) : Machine Linkage :=
  let bs := m.memory.read src len
  { m with
    outer := { m.outer with
      guest := m.outer.guest.write dst bs
      crossings := m.outer.crossings.push (.outward dst bs) } }

/-- The module after it reported something that is no error. -/
def reported (m : Machine Linkage) (text : String) : Machine Linkage :=
  { m with outer := { m.outer with messages := m.outer.messages.push text } }

def copiesSince (m n : Machine Linkage) : List Crossing :=
  n.outer.crossings.toList.drop m.outer.crossings.toList.length

/-- The ranges that the module's own code stored to from `m` to `n`. -/
def storesSince (m n : Machine Linkage) : List (Nat × Nat) := n.stores.toList.drop m.stores.toList.length

end Machine

theorem Memory.byte_write_read (memory source : Memory) (src dst len a : Nat) (hdst : memory.holds dst len = true) :
    (memory.write dst (source.read src len)).byte a =
      if dst ≤ a ∧ a < dst + len then source.byte (src + (a - dst)) else memory.byte a := by
  rw [byte_write, length_read]
  have hend : dst + len ≤ memory.size := by simpa [holds] using hdst
  by_cases hrange : dst ≤ a ∧ a < dst + len
  · have hi : a - dst < (source.read src len).length := by
      rw [length_read]
      omega
    rw [if_pos ⟨hrange.1, hrange.2, by omega⟩, if_pos hrange, List.getD_eq_getElem?_getD, List.getElem?_eq_getElem hi,
      Option.getD_some, getElem_read]
  · rw [if_neg (fun h => hrange ⟨h.1, h.2.1⟩), if_neg hrange]

namespace Machine

variable (m : Machine Linkage) (src : Nat) {dst len : Nat}

/-- A copy into the module's memory puts the guest's bytes there, and nothing anywhere else. -/
theorem byte_copiedIn (hdst : m.memory.holds dst len = true) (a : Nat) : (m.copiedIn src dst len).memory.byte a =
    if dst ≤ a ∧ a < dst + len then m.outer.guest.byte (src + (a - dst)) else m.memory.byte a :=
  m.memory.byte_write_read m.outer.guest src dst len a hdst

/-- A copy into the guest's memory likewise. -/
theorem byte_copiedOut (hdst : m.outer.guest.holds dst len = true) (a : Nat) :
    (m.copiedOut src dst len).outer.guest.byte a =
      if dst ≤ a ∧ a < dst + len then m.memory.byte (src + (a - dst)) else m.outer.guest.byte a :=
  m.outer.guest.byte_write_read m.memory src dst len a hdst

end Machine

inductive Leg : Machine Linkage → Machine Linkage → Prop
  | own {m m' : Machine Linkage} : m'.outer = m.outer → Core.Stores m.core m'.core → Leg m m'
  | report (m : Machine Linkage) (text : String) : Leg m (m.reported text)
  | inward {m : Machine Linkage} {src dst len : Nat} : m.outer.guestBound = true →
      m.outer.guest.holds src len = true → m.memory.holds dst len = true → Leg m (m.copiedIn src dst len)
  | outward {m : Machine Linkage} {src dst len : Nat} : m.outer.guestBound = true →
      m.memory.holds src len = true → m.outer.guest.holds dst len = true → Leg m (m.copiedOut src dst len)

inductive Journey (m : Machine Linkage) : Machine Linkage → Prop
  | here : Journey m m
  | on {n n' : Machine Linkage} : Journey m n → Leg n n' → Journey m n'

/-! ## What the imports of a module do -/

namespace Linkage

variable (m : Machine Linkage)

theorem requireMemories_apply : requireMemories m =
    if m.outer.guestBound = false then .error (.filesystem .guestMemoryUnbound) m
    else if m.outer.attached = false then .error (.filesystem (.missingExport FilesystemModule.memoryName)) m
    else .ok () m := by
  simp only [requireMemories, bind_apply, get_apply]
  cases m.outer.guestBound <;> cases m.outer.attached <;> rfl

theorem bytesOf_apply (memory : Memory) (addr len : UInt32) : bytesOf memory addr len m =
    if memory.holds addr.toNat len.toNat then .ok (memory.read addr.toNat len.toNat) m else .error .memoryAccess m := by
  unfold bytesOf
  split <;> rfl

theorem word_of_ok {args : List Value} {i : Nat} {w : UInt32} (h : wordArg args i = .ok w) : word args i = pure w := by
  unfold word
  rw [h]

/-- The three words that an import takes, or a failure to read them. -/
theorem words_cases (args : List Value) :
    (∃ a b c, wordArg args 0 = .ok a ∧ wordArg args 1 = .ok b ∧ wordArg args 2 = .ok c) ∨
      ∃ e, ∀ {α : Type} (f : UInt32 → UInt32 → UInt32 → FilesystemAct α),
        (do let a ← word args 0; let b ← word args 1; let c ← word args 2; f a b c) = throw (.marshal e) := by
  cases ha : wordArg args 0 with
  | error e => exact .inr ⟨e, fun f => by funext m; simp only [word, ha, bind_apply]; rfl⟩
  | ok a =>
    cases hb : wordArg args 1 with
    | error e => exact .inr ⟨e, fun f => by funext m; simp only [word, ha, hb, bind_apply]; rfl⟩
    | ok b =>
      cases hc : wordArg args 2 with
      | error e => exact .inr ⟨e, fun f => by funext m; simp only [word, ha, hb, hc, bind_apply]; rfl⟩
      | ok c => exact .inl ⟨a, b, c, rfl, rfl, rfl⟩

variable {args : List Value} {src dst len : UInt32}

/-- A copy into the module's memory moves all its bytes, if both memories are known and both ranges lie in them,
and else none. -/
theorem copyIn_of_words (hsrc : wordArg args 0 = .ok src) (hdst : wordArg args 1 = .ok dst)
    (hlen : wordArg args 2 = .ok len) : copyIn args m =
      if m.outer.guestBound = false then .error (.filesystem .guestMemoryUnbound) m
      else if m.outer.attached = false then .error (.filesystem (.missingExport FilesystemModule.memoryName)) m
      else if m.outer.guest.holds src.toNat len.toNat ∧ m.memory.holds dst.toNat len.toNat then
        .ok () (m.copiedIn src.toNat dst.toNat len.toNat)
      else .error .memoryAccess m := by
  unfold copyIn
  simp only [word_of_ok hsrc, word_of_ok hdst, word_of_ok hlen, pure_bind]
  rw [bind_apply, requireMemories_apply]
  by_cases hbound : m.outer.guestBound = false
  · simp only [if_pos hbound]
  · by_cases hattached : m.outer.attached = false
    · simp only [if_neg hbound, if_pos hattached]
    · simp only [if_neg hbound, if_neg hattached, bind_apply, get_apply, bytesOf_apply]
      by_cases hs : m.outer.guest.holds src.toNat len.toNat = true
      · by_cases hd : m.memory.holds dst.toNat len.toNat = true
        · simp only [if_pos hs, if_pos hd, if_pos (And.intro hs hd)]
          rfl
        · simp only [if_pos hs, if_neg hd, if_neg (mt And.right hd)]
          rfl
      · simp only [if_neg hs, if_neg (mt And.left hs)]

/-- A copy into the guest's memory likewise. -/
theorem copyOut_of_words (hsrc : wordArg args 0 = .ok src) (hdst : wordArg args 1 = .ok dst)
    (hlen : wordArg args 2 = .ok len) : copyOut args m =
      if m.outer.guestBound = false then .error (.filesystem .guestMemoryUnbound) m
      else if m.outer.attached = false then .error (.filesystem (.missingExport FilesystemModule.memoryName)) m
      else if m.memory.holds src.toNat len.toNat ∧ m.outer.guest.holds dst.toNat len.toNat then
        .ok () (m.copiedOut src.toNat dst.toNat len.toNat)
      else .error .memoryAccess m := by
  unfold copyOut
  simp only [word_of_ok hsrc, word_of_ok hdst, word_of_ok hlen, pure_bind]
  rw [bind_apply, requireMemories_apply]
  by_cases hbound : m.outer.guestBound = false
  · simp only [if_pos hbound]
  · by_cases hattached : m.outer.attached = false
    · simp only [if_neg hbound, if_pos hattached]
    · simp only [if_neg hbound, if_neg hattached, bind_apply, get_apply, bytesOf_apply]
      by_cases hs : m.memory.holds src.toNat len.toNat = true
      · by_cases hd : m.outer.guest.holds dst.toNat len.toNat = true
        · simp only [if_pos hs, if_pos hd, if_pos (And.intro hs hd)]
          rfl
        · simp only [if_pos hs, if_neg hd, if_neg (mt And.right hd)]
          rfl
      · simp only [if_neg hs, if_neg (mt And.left hs)]

/-- A report of the module's own bytes is kept, or it ends the call. -/
theorem trace_of_words {isError addr : UInt32} (herror : wordArg args 0 = .ok isError)
    (haddr : wordArg args 1 = .ok addr) (hlen : wordArg args 2 = .ok len) : trace args m =
      if m.outer.attached = false then .error (.filesystem (.missingExport FilesystemModule.memoryName)) m
      else if m.memory.holds addr.toNat len.toNat then
        if isError = 0 then .ok () (m.reported (lossyText (m.memory.read addr.toNat len.toNat)))
        else .error (.filesystem (.trace (lossyText (m.memory.read addr.toNat len.toNat)))) m
      else .error .memoryAccess m := by
  unfold trace
  simp only [word_of_ok herror, word_of_ok haddr, word_of_ok hlen, pure_bind]
  rw [bind_of_ok (get_apply m)]
  by_cases hattached : m.outer.attached = false
  · have hmissing : (!m.outer.attached) = true := by rw [hattached, Bool.not_false]
    simp only [if_pos hattached, if_pos hmissing]
    rfl
  · have hknown : ¬ (!m.outer.attached) = true := by rwa [Bool.not_eq_true']
    simp only [if_neg hattached, if_neg hknown, bind_apply, bytesOf_apply]
    by_cases hholds : m.memory.holds addr.toNat len.toNat = true
    · simp only [if_pos hholds]
      by_cases hzero : isError = 0
      · have hplain : ¬ (isError != 0) = true := fun h => bne_iff_ne.1 h hzero
        rw [if_pos hzero, if_neg hplain]
        rfl
      · rw [if_neg hzero, if_pos (bne_iff_ne.2 hzero)]
        rfl
    · simp only [if_neg hholds]

end Linkage

/-! ## Journeys of code -/

/-- Travels on from wherever `m₀` may have led, and fails, if at all, for reasons of the module. -/
abbrev Travels {α : Type} (m₀ : Machine Linkage) (x : FilesystemAct α) : Prop :=
  Keeps (Journey m₀) (fun e m => Journey m₀ m ∧ e.OfModule) x

variable {m₀ : Machine Linkage}

theorem undisturbed_journey :
    Undisturbed (Journey m₀) (fun e m => Journey m₀ m ∧ e.OfModule) fun _ => True where
  own ho _ hstores hm := hm.on (.own ho hstores)
  setGlobal _ _ hm := hm.on (.own rfl (.same rfl rfl))
  fails he hm := ⟨hm, .own he⟩

namespace Linkage

theorem travels_throw {α : Type} {e : Failure} (he : e.OfModule) : Travels m₀ (throw e : FilesystemAct α) :=
  fun _ hm => ⟨hm, he⟩

theorem travels_fillSlots (results : List ValType) (filled : List Value) : Travels m₀ (fillSlots results filled) := by
  unfold fillSlots
  split
  · exact Keeps.pure _
  · exact travels_throw (.engine _)

theorem travels_requireMemories : Travels m₀ requireMemories := by
  intro m hm
  rw [requireMemories_apply]
  split
  · exact ⟨hm, .filesystem _⟩
  · split
    · exact ⟨hm, .filesystem _⟩
    · exact hm

theorem travels_copyIn (args : List Value) : Travels m₀ (copyIn args) := by
  rcases words_cases args with ⟨src, dst, len, hsrc, hdst, hlen⟩ | ⟨e, he⟩
  · intro m hm
    rw [copyIn_of_words m hsrc hdst hlen]
    split
    · exact ⟨hm, .filesystem _⟩
    · next hbound =>
      split
      · exact ⟨hm, .filesystem _⟩
      · split
        · next h => exact hm.on (.inward (by simpa using hbound) h.1 h.2)
        · exact ⟨hm, .memoryAccess⟩
  · unfold copyIn
    rw [he]
    exact Keeps.bind travels_requireMemories fun _ => travels_throw (.marshal e)

theorem travels_copyOut (args : List Value) : Travels m₀ (copyOut args) := by
  rcases words_cases args with ⟨src, dst, len, hsrc, hdst, hlen⟩ | ⟨e, he⟩
  · intro m hm
    rw [copyOut_of_words m hsrc hdst hlen]
    split
    · exact ⟨hm, .filesystem _⟩
    · next hbound =>
      split
      · exact ⟨hm, .filesystem _⟩
      · split
        · next h => exact hm.on (.outward (by simpa using hbound) h.1 h.2)
        · exact ⟨hm, .memoryAccess⟩
  · unfold copyOut
    rw [he]
    exact Keeps.bind travels_requireMemories fun _ => travels_throw (.marshal e)

theorem travels_trace (args : List Value) : Travels m₀ (trace args) := by
  rcases words_cases args with ⟨isError, addr, len, herror, haddr, hlen⟩ | ⟨e, he⟩
  · intro m hm
    rw [trace_of_words m herror haddr hlen]
    split
    · exact ⟨hm, .filesystem _⟩
    · split
      · split
        · exact hm.on (.report m _)
        · exact ⟨hm, .filesystem _⟩
      · exact ⟨hm, .memoryAccess⟩
  · unfold trace
    rw [he]
    exact travels_throw (.marshal e)

theorem travels_call (now : Nat) (target : ImportName) (results : List ValType) (args : List Value) :
    Travels m₀ (call now target results args) := by
  unfold call
  split
  · split
    · exact travels_fillSlots _ _
    · exact Keeps.bind (travels_trace _) fun _ => travels_fillSlots _ _
    · exact Keeps.bind (travels_copyIn _) fun _ => travels_fillSlots _ _
    · exact Keeps.bind (travels_copyOut _) fun _ => travels_fillSlots _ _
    · exact travels_throw (.engine _)
  · exact Keeps.ite (travels_fillSlots _ _) (travels_fillSlots _ _)

end Linkage

namespace Filesystem

open Linkage

variable (fs : Filesystem)

theorem travels_invoke (f : Function) (args : List Value) : Travels m₀ (f.invoke fs.setting args) :=
  Function.keeps_invoke undisturbed_journey (fun _ _ => travels_call _ _ _ _) f (fun _ _ => trivial) args

theorem travels_run (body : Stmt) (args : List Value) : Travels m₀ (body.run fs.setting args) :=
  Stmt.keeps_run undisturbed_journey (fun _ _ => travels_call _ _ _ _) body fun _ _ => trivial

theorem travels_callChecked (f : Function) (args : List Value) (count : Nat) :
    Travels m₀ (fs.callChecked f args count) := by
  unfold callChecked
  refine Keeps.ite (travels_throw (.engine _)) (Keeps.ite (travels_throw (.engine _)) (Keeps.ite ?_ ?_))
  · exact fs.travels_invoke f args
  · exact travels_throw (.engine _)

theorem travels_forward (name : String) (args : List Value) : Travels m₀ (fs.forward name args) := by
  have hfunction : Travels m₀ (settle (fs.function name)) := by
    unfold Filesystem.function
    split
    · exact Keeps.pure _
    · exact travels_throw (.filesystem _)
  refine Keeps.bind hfunction fun f => Keeps.bind (fs.travels_callChecked f args 1) fun r => ?_
  split <;> exact Keeps.pure _

end Filesystem

/-! ## What a journey leaves -/

/-- On the way from `m` to `n`, in the state `k`, the module copied out. -/
structure CopyOut (m n k : Machine Linkage) (src dst len : Nat) : Prop where
  before : Journey m k
  source : k.memory.holds src len = true
  target : k.outer.guest.holds dst len = true
  after : Journey (k.copiedOut src dst len) n

/-- On the way from `m` to `n`, in the state `k`, the module copied in. -/
structure CopyIn (m n k : Machine Linkage) (src dst len : Nat) : Prop where
  before : Journey m k
  source : k.outer.guest.holds src len = true
  target : k.memory.holds dst len = true
  after : Journey (k.copiedIn src dst len) n

namespace Journey

variable {m n : Machine Linkage}

/-- Memories do not shrink, and the guest's does not grow; what is bound or attached stays so. -/
theorem frame (h : Journey m n) : n.outer.guest.size = m.outer.guest.size ∧ m.memory.size ≤ n.memory.size ∧
    n.outer.guestBound = m.outer.guestBound ∧ n.outer.attached = m.outer.attached ∧
      n.outer.scratchLive = m.outer.scratchLive := by
  induction h with
  | here => exact ⟨rfl, Nat.le_refl _, rfl, rfl, rfl⟩
  | on _ hleg ih =>
    obtain ⟨hguest, hsize, hbound, hattached, hscratch⟩ := ih
    cases hleg with
    | own ho hstores => exact ⟨by rw [ho]; exact hguest, Nat.le_trans hsize hstores.size, by rw [ho]; exact hbound,
        by rw [ho]; exact hattached, by rw [ho]; exact hscratch⟩
    | report text => exact ⟨hguest, hsize, hbound, hattached, hscratch⟩
    | inward _ _ _ => exact ⟨hguest, by simpa [Machine.copiedIn] using hsize, hbound, hattached, hscratch⟩
    | outward _ _ _ => exact ⟨by simpa [Machine.copiedOut] using hguest, hsize, hbound, hattached, hscratch⟩

/-- What was recorded stays recorded: the copies, and the ranges that the code stored to. -/
theorem records (h : Journey m n) :
    m.outer.crossings.toList <+: n.outer.crossings.toList ∧ m.stores.toList <+: n.stores.toList := by
  induction h with
  | here => exact ⟨List.prefix_refl _, List.prefix_refl _⟩
  | on _ hleg ih =>
    obtain ⟨hcrossings, hstores⟩ := ih
    cases hleg with
    | own ho hleg =>
      obtain ⟨ranges, hranges, -⟩ := hleg.listed
      exact ⟨by rw [ho]; exact hcrossings, hstores.trans ⟨ranges, hranges.symm⟩⟩
    | report text => exact ⟨hcrossings, hstores⟩
    | inward _ _ _ | outward _ _ _ =>
      exact ⟨hcrossings.trans (by simp [Machine.copiedIn, Machine.copiedOut]), hstores⟩

/-- Without a guest's memory no copy is made. -/
theorem unbound (h : Journey m n) (hbound : m.outer.guestBound = false) : n.outer.crossings = m.outer.crossings := by
  induction h with
  | here => rfl
  | on hk hleg ih =>
    have hstill := hk.frame.2.2.1.trans hbound
    cases hleg with
    | own ho _ => rw [ho]; exact ih
    | report text => exact ih
    | inward hb _ _ | outward hb _ _ => rw [hstill] at hb; cases hb

theorem storesSince_append (h : Journey m n) {n' : Machine Linkage} {more : List (Nat × Nat)}
    (hmore : n'.stores.toList = n.stores.toList ++ more) : m.storesSince n' = m.storesSince n ++ more := by
  unfold Machine.storesSince
  rw [hmore, List.drop_append_of_le_length h.records.2.length_le]

theorem mem_copiesSince {k k' : Machine Linkage} (h : Journey m k) {c : Crossing}
    (hcopied : k'.outer.crossings = k.outer.crossings.push c) (h' : Journey k' n) : c ∈ m.copiesSince n := by
  obtain ⟨later, hlater⟩ := h'.records.1
  unfold Machine.copiesSince
  rw [← hlater, hcopied, Array.toList_push, List.append_assoc, List.drop_append_of_le_length h.records.1.length_le]
  exact List.mem_append_right _ List.mem_cons_self

/-- A byte of the guest that has changed was put there by a copy out of the module, and no later one: it is the
byte that the module's memory held when the copy was made. -/
theorem guest_byte (h : Journey m n) {a : Nat} (ha : n.outer.guest.byte a ≠ m.outer.guest.byte a) :
    ∃ (k : Machine Linkage) (src dst len : Nat), CopyOut m n k src dst len ∧ dst ≤ a ∧ a < dst + len ∧
      n.outer.guest.byte a = k.memory.byte (src + (a - dst)) := by
  induction h with
  | here => exact absurd rfl ha
  | @on k k' hk hleg ih =>
    have hearlier (hsame : k'.outer.guest.byte a = k.outer.guest.byte a) :
        ∃ (k₀ : Machine Linkage) (src dst len : Nat), CopyOut m k' k₀ src dst len ∧ dst ≤ a ∧ a < dst + len ∧
          k'.outer.guest.byte a = k₀.memory.byte (src + (a - dst)) := by
      obtain ⟨k₀, src, dst, len, hcopy, hle, hlt, hbyte⟩ := ih (hsame ▸ ha)
      exact ⟨k₀, src, dst, len, ⟨hcopy.before, hcopy.source, hcopy.target, hcopy.after.on hleg⟩, hle, hlt,
        hsame.trans hbyte⟩
    cases hleg with
    | own ho hstores => exact hearlier (by rw [ho])
    | report text => exact hearlier rfl
    | inward _ hs hd => exact hearlier rfl
    | @outward src dst len _ hs hd =>
      have hbyte := k.byte_copiedOut src hd a
      by_cases hrange : dst ≤ a ∧ a < dst + len
      · rw [if_pos hrange] at hbyte
        exact ⟨k, src, dst, len, ⟨hk, hs, hd, .here⟩, hrange.1, hrange.2, hbyte⟩
      · rw [if_neg hrange] at hbyte
        exact hearlier hbyte

/-- A byte of the module's memory that has changed was stored by its own code on the way, or put there by a copy
into it. -/
theorem own_byte (h : Journey m n) {a : Nat} (ha : n.memory.byte a ≠ m.memory.byte a) :
    (∃ r ∈ m.storesSince n, r.1 ≤ a ∧ a < r.1 + r.2) ∨
      ∃ (k : Machine Linkage) (src dst len : Nat), CopyIn m n k src dst len ∧ dst ≤ a ∧ a < dst + len := by
  induction h with
  | here => exact absurd rfl ha
  | @on k k' hk hleg ih =>
    -- what had changed before this leg has a cause that still lies on the way
    have hearlier (hsame : k'.memory.byte a = k.memory.byte a) :
        (∃ r ∈ m.storesSince k', r.1 ≤ a ∧ a < r.1 + r.2) ∨
          ∃ (k₀ : Machine Linkage) (src dst len : Nat), CopyIn m k' k₀ src dst len ∧ dst ≤ a ∧ a < dst + len := by
      rcases ih (hsame ▸ ha) with ⟨r, hr, hrange⟩ | ⟨k₀, src, dst, len, hcopy, hrange⟩
      · obtain ⟨more, hmore⟩ := (Journey.on .here hleg).records.2
        refine .inl ⟨r, ?_, hrange⟩
        rw [hk.storesSince_append hmore.symm]
        exact List.mem_append_left _ hr
      · exact .inr ⟨k₀, src, dst, len, ⟨hcopy.before, hcopy.source, hcopy.target, hcopy.after.on hleg⟩, hrange⟩
    cases hleg with
    | own ho hstores =>
      obtain ⟨more, hmore, hstored⟩ := hstores.listed
      by_cases hsame : k'.memory.byte a = k.memory.byte a
      · exact hearlier hsame
      · obtain ⟨r, hr, hrange⟩ := hstored a hsame
        refine .inl ⟨r, ?_, hrange⟩
        rw [hk.storesSince_append hmore]
        exact List.mem_append_right _ hr
    | report text => exact hearlier rfl
    | outward _ hs hd => exact hearlier rfl
    | @inward src dst len _ hs hd =>
      have hbyte := k.byte_copiedIn src hd a
      by_cases hrange : dst ≤ a ∧ a < dst + len
      · exact .inr ⟨k, src, dst, len, ⟨hk, hs, hd, .here⟩, hrange.1, hrange.2⟩
      · rw [if_neg hrange] at hbyte
        exact hearlier hbyte

end Journey

theorem CopyOut.recorded {m n k : Machine Linkage} {src dst len : Nat} (h : CopyOut m n k src dst len) :
    .outward dst (k.memory.read src len) ∈ m.copiesSince n :=
  h.before.mem_copiesSince rfl h.after

theorem CopyIn.recorded {m n k : Machine Linkage} {src dst len : Nat} (h : CopyIn m n k src dst len) :
    .inward dst (k.outer.guest.read src len) ∈ m.copiesSince n :=
  h.before.mem_copiesSince rfl h.after

end GuestHost
