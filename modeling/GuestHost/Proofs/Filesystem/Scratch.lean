/-
  GuestHost.Proofs.Filesystem.Scratch — the place for bytes from outside, over the time that it is taken.

  The module is asked for a place, the bytes are put there, the action runs, and the place is given back. Each of these
  can fail, so there are three courses up to the end of the action (`Staged`), and whichever it was, the module is told
  exactly once that the place is free. While it is taken it cannot be taken again. An action can do so only by what it
  does in between (`Callback`), at whatever depth; each such request is refused at once, so a callback that makes
  requests is as good as one in which each of them is just a failure (`Callback.alone`).

  The mark of the place is the host's. What the module's own code does, it cannot reach it
  (`Filesystem.leavesScratch_invoke`).

  Proved:
  - `Filesystem.withScratch_of_free`: the course of staging, and what it ends with.
  - `Filesystem.withScratch_of_live`, `Callback.run_of_live`: what is refused while the place is taken.
  - `scratch_is_scoped`: both.
-/

import GuestHost.Proofs.Abi.Patches
import GuestHost.Proofs.Filesystem.Journey

namespace GuestHost

open Exec

/-! ## The place -/

/-- The exports by which a module gives a place for bytes, and takes it back. -/
structure ScratchExports (fs : Filesystem) where
  alloc : Function
  free : Function
  alloc_typed : fs.typed FilesystemModule.allocName ⟨[.i32], [.i32]⟩ = .ok alloc
  free_typed : fs.typed FilesystemModule.freeName ⟨[], []⟩ = .ok free

namespace Machine

/-- The machine with the place for bytes marked as taken or free. -/
def scratch (m : Machine Linkage) (live : Bool) : Machine Linkage :=
  { m with outer := { m.outer with scratchLive := live } }

/-- The machine with bytes in its memory. -/
def staging (m : Machine Linkage) (addr : Nat) (bs : List UInt8) : Machine Linkage :=
  { m with memory := m.memory.write addr bs }

end Machine

/-- The bytes lie in memory from the address on, and `len` tells how many they are, as far as a word can. -/
structure Delimits (memory : Memory) (ptr len : UInt32) (bs : List UInt8) : Prop where
  bytes : memory.read ptr.toNat bs.length = bs
  fits : ptr.toNat + bs.length ≤ memory.size
  length : len.toNat = bs.length % UInt32.size

/-- A word can, unless the bytes take all of the addresses that there are. -/
theorem Delimits.read {memory : Memory} {ptr len : UInt32} {bs : List UInt8} (h : Delimits memory ptr len bs)
    (hsmall : memory.size < UInt32.size ∨ bs.length < UInt32.size) : memory.read ptr.toNat len.toNat = bs := by
  have hfits := h.fits
  rw [h.length, Nat.mod_eq_of_lt (by omega), h.bytes]

/-- Bytes that do take all of them begin at the first, and are told as none. -/
theorem Delimits.of_full {memory : Memory} {ptr len : UInt32} {bs : List UInt8} (h : Delimits memory ptr len bs)
    (hsize : memory.size ≤ UInt32.size) (hfull : ¬ (memory.size < UInt32.size ∨ bs.length < UInt32.size)) :
    bs.length = UInt32.size ∧ ptr = 0 ∧ len = 0 := by
  have hfits := h.fits
  have hlength : bs.length = UInt32.size := by omega
  refine ⟨hlength, UInt32.toNat_inj.1 ?_, UInt32.toNat_inj.1 ?_⟩
  · show ptr.toNat = 0
    omega
  · rw [h.length, hlength]
    rfl

/-- The number of bytes goes to the module as it is, if it fits in a signed word. -/
theorem signed_length {bs : List UInt8} (h : bs.length < 2147483648) : signed (UInt32.ofNat bs.length) = bs.length := by
  unfold signed
  rw [UInt32.toInt32_ofNat', Int32.toInt_ofNat_of_lt h]

/-- The action leaves the mark of the place as it is. -/
def LeavesScratch {α : Type} (x : FilesystemAct α) : Prop :=
  ∀ live, Keeps (·.outer.scratchLive = live) (fun _ m => m.outer.scratchLive = live) x

theorem LeavesScratch.of_travels {α : Type} {x : FilesystemAct α} (h : ∀ m₀, Travels m₀ x) : LeavesScratch x := by
  intro live m hm
  have hafter := h m m .here
  cases hx : x m with
  | ok a m' =>
    rw [hx] at hafter
    exact hafter.frame.2.2.2.2.trans hm
  | error e m' =>
    rw [hx] at hafter
    exact hafter.1.frame.2.2.2.2.trans hm

theorem Filesystem.leavesScratch_invoke (fs : Filesystem) (f : Function) (args : List Value) :
    LeavesScratch (f.invoke fs.setting args) :=
  .of_travels fun _ => fs.travels_invoke f args

namespace ScratchExports

variable {fs : Filesystem} (s : ScratchExports fs)

def ask (len : UInt32) : FilesystemAct UInt32 := do return resultWord (← s.alloc.invoke fs.setting [.i32 len])

/-- Tells the module that the place is free. -/
def giveBack : FilesystemAct UInt32 := do return resultWord (← s.free.invoke fs.setting [])

theorem callTyped_alloc (len : UInt32) :
    fs.callTyped FilesystemModule.allocName ⟨[.i32], [.i32]⟩ [.i32 len] = s.ask len := by
  unfold Filesystem.callTyped
  rw [s.alloc_typed]
  rfl

theorem callTyped_free : fs.callTyped FilesystemModule.freeName ⟨[], []⟩ [] = s.giveBack := by
  unfold Filesystem.callTyped
  rw [s.free_typed]
  rfl

theorem leavesScratch_ask (len : UInt32) : LeavesScratch (s.ask len) := fun live =>
  Keeps.bind (fs.leavesScratch_invoke _ _ live) fun _ => Keeps.pure _

theorem leavesScratch_giveBack : LeavesScratch s.giveBack := fun live =>
  Keeps.bind (fs.leavesScratch_invoke _ _ live) fun _ => Keeps.pure _

end ScratchExports

/-! ## Staging -/

section

variable {α : Type} {fs : Filesystem} (s : ScratchExports fs) (bs : List UInt8)
  (act : UInt32 → UInt32 → FilesystemAct α) (m : Machine Linkage)

/-- What staging bytes for an action, and the action, come to from a machine of which the place is marked: the module
fails to give a place; the place that it gives does not lie in its memory; or the action runs, once, on the bytes. -/
inductive Staged : Except Failure α → Machine Linkage → Prop
  | refused {e : Failure} {m₁ : Machine Linkage} :
      s.ask (UInt32.ofNat bs.length) m = .error e m₁ → Staged (.error e) m₁
  | unfit {ptr : UInt32} {m₁ : Machine Linkage} : s.ask (UInt32.ofNat bs.length) m = .ok ptr m₁ →
      m₁.memory.holds ptr.toNat bs.length = false → Staged (.error .memoryAccess) m₁
  | ran {ptr : UInt32} {m₁ m₂ : Machine Linkage} {r : Except Failure α} :
      s.ask (UInt32.ofNat bs.length) m = .ok ptr m₁ → m₁.outer.scratchLive = m.outer.scratchLive →
      Delimits (m₁.staging ptr.toNat bs).memory ptr (UInt32.ofNat bs.length) bs →
      act ptr (UInt32.ofNat bs.length) (m₁.staging ptr.toNat bs) = yields r m₂ → Staged r m₂

end

theorem attempt_of_yields {τ α : Type} {x : Exec τ α} {m m' : Machine τ} {r : Except Failure α}
    (h : x m = yields r m') : attempt x m = .ok r m' := by
  unfold attempt
  rw [h]
  cases r <;> rfl

theorem exists_yields {τ α : Type} (x : Exec τ α) (m : Machine τ) : ∃ r m', x m = yields r m' := by
  cases h : x m with
  | ok a m' => exact ⟨.ok a, m', rfl⟩
  | error e m' => exact ⟨.error e, m', rfl⟩

namespace Filesystem

variable {α : Type} {fs : Filesystem} (s : ScratchExports fs) (bs : List UInt8)
  (act : UInt32 → UInt32 → FilesystemAct α) (m : Machine Linkage)

/-- While the place is taken it cannot be taken, and nothing happens. -/
theorem withScratch_of_live (fs : Filesystem) {m : Machine Linkage} (hlive : m.outer.scratchLive = true) :
    fs.withScratch bs act m = .error (.filesystem .scratchInUse) m := by
  unfold withScratch
  rw [bind_of_ok (get_apply m), if_pos hlive]
  rfl

theorem exists_staged : ∃ r m₁, Staged s bs act m r m₁ ∧
    (do let ptr ← fs.stage bs; act ptr (UInt32.ofNat bs.length)) m = yields r m₁ := by
  unfold stage
  rw [s.callTyped_alloc]
  cases hask : s.ask (UInt32.ofNat bs.length) m with
  | error e m₁ => exact ⟨.error e, m₁, .refused hask, bind_of_error (bind_of_error hask)⟩
  | ok ptr m₁ =>
    cases hholds : m₁.memory.holds ptr.toNat bs.length with
    | false =>
      refine ⟨.error .memoryAccess, m₁, .unfit hask hholds, bind_of_error ((bind_of_ok hask).trans ?_)⟩
      rw [bind_of_ok (get_apply m₁), hholds]
      rfl
    | true =>
      obtain ⟨r, m₂, hact⟩ := exists_yields (act ptr (UInt32.ofNat bs.length)) (m₁.staging ptr.toNat bs)
      have hkept := (s.leavesScratch_ask _ m.outer.scratchLive).ok rfl hask
      have hfits : ptr.toNat + bs.length ≤ m₁.memory.size := by simpa [Memory.holds] using hholds
      have hstaged : Delimits (m₁.staging ptr.toNat bs).memory ptr (UInt32.ofNat bs.length) bs :=
        ⟨Memory.read_write hfits, by rwa [Machine.staging, Memory.size_write], UInt32.toNat_ofNat'⟩
      refine ⟨r, m₂, .ran hask hkept hstaged hact, Eq.trans (bind_of_ok ((bind_of_ok hask).trans ?_)) hact⟩
      rw [bind_of_ok (get_apply m₁), hholds]
      rfl

/-- If the place is free, the bytes are staged and the place is given back, once and in the end. The failure of the
staging counts before that of giving back. -/
theorem withScratch_of_free (hfree : m.outer.scratchLive = false) :
    ∃ r m₁ freed m₂, Staged s bs act (m.scratch true) r m₁ ∧ s.giveBack (m₁.scratch false) = yields freed m₂ ∧
      m₂.outer.scratchLive = false ∧
        fs.withScratch bs act m = yields (do let a ← r; let _ ← freed; return a) m₂ := by
  obtain ⟨r, m₁, hstaged, hr⟩ := exists_staged s bs act (m.scratch true)
  obtain ⟨freed, m₂, hfreed⟩ := exists_yields s.giveBack (m₁.scratch false)
  have hback : m₂.outer.scratchLive = false := by
    have hafter := s.leavesScratch_giveBack false (m₁.scratch false) rfl
    rw [hfreed] at hafter
    cases freed <;> exact hafter
  refine ⟨r, m₁, freed, m₂, hstaged, hfreed, hback, ?_⟩
  unfold withScratch
  rw [bind_of_ok (get_apply m), hfree, if_neg Bool.false_ne_true, s.callTyped_free]
  -- neither attempt ends the course: mark, stage and run, unmark, give back
  refine (bind_of_ok (modify_apply _ m)).trans ((bind_of_ok (attempt_of_yields hr)).trans ?_)
  refine (bind_of_ok (modify_apply _ m₁)).trans ((bind_of_ok (attempt_of_yields hfreed)).trans ?_)
  cases r <;> cases freed <;> rfl

end Filesystem

/-! ## Taking it again -/

/-- What an action does in turn, told by what can touch the place: it ends, fails, does something that leaves the mark
of the place as it is, or asks for the place with an action of its own. It sees how that went, and goes on. -/
inductive Callback : Type → Type 1 where
  | done {α : Type} (a : α) : Callback α
  | fail {α : Type} (e : Failure) : Callback α
  | act {α β : Type} (x : FilesystemAct β) (leaves : LeavesScratch x) (next : Except Failure β → Callback α) :
      Callback α
  | again {α β : Type} (bs : List UInt8) (inner : UInt32 → UInt32 → Callback β) (next : Except Failure β → Callback α) :
      Callback α

namespace Callback

def run (fs : Filesystem) {α : Type} : Callback α → FilesystemAct α
  | done a => pure a
  | fail e => throw e
  | act x _ next => do (next (← attempt x)).run fs
  | again bs inner next => do (next (← attempt (fs.withScratch bs fun ptr len => (inner ptr len).run fs))).run fs

/-- Runs it with a failure in place of each request for the place. -/
def alone {α : Type} : Callback α → FilesystemAct α
  | done a => pure a
  | fail e => throw e
  | act x _ next => do (next (← attempt x)).alone
  | again _ _ next => (next (.error (.filesystem .scratchInUse))).alone

/-- While the place is taken, each request for it is a failure and nothing else, and the place stays taken. -/
theorem run_of_live (fs : Filesystem) {α : Type} (c : Callback α) {m : Machine Linkage}
    (hlive : m.outer.scratchLive = true) :
    ∃ r m', c.run fs m = yields r m' ∧ c.alone m = yields r m' ∧ m'.outer.scratchLive = true := by
  induction c generalizing m with
  | done a => exact ⟨.ok a, m, rfl, rfl, hlive⟩
  | fail e => exact ⟨.error e, m, rfl, rfl, hlive⟩
  | act x leaves next ih =>
    obtain ⟨r, m', hx⟩ := exists_yields x m
    have hlive' : m'.outer.scratchLive = true := by
      have hafter := leaves true m hlive
      rw [hx] at hafter
      cases r <;> exact hafter
    have hattempt := attempt_of_yields hx
    obtain ⟨r', m'', hrun, halone, hlive''⟩ := ih r hlive'
    exact ⟨r', m'', (bind_of_ok hattempt).trans hrun, (bind_of_ok hattempt).trans halone, hlive''⟩
  | again bs inner next _ ih =>
    -- the inner action is never run, so nothing is asked of it
    obtain ⟨r, m', hrun, halone, hlive'⟩ := ih (.error (.filesystem .scratchInUse)) hlive
    have hrefused : attempt (fs.withScratch bs fun ptr len => (inner ptr len).run fs) m =
        .ok (.error (.filesystem .scratchInUse)) m :=
      attempt_of_yields (r := .error _) (fs.withScratch_of_live bs _ hlive)
    exact ⟨r, m', (bind_of_ok hrefused).trans hrun, halone, hlive'⟩

theorem run_eq_alone (fs : Filesystem) {α : Type} (c : Callback α) {m : Machine Linkage}
    (hlive : m.outer.scratchLive = true) : c.run fs m = c.alone m := by
  obtain ⟨r, m', hrun, halone, -⟩ := c.run_of_live fs hlive
  rw [hrun, halone]

end Callback

theorem Staged.congr {α : Type} {fs : Filesystem} {s : ScratchExports fs} {bs : List UInt8}
    {act act' : UInt32 → UInt32 → FilesystemAct α} {m m₁ : Machine Linkage} {r : Except Failure α}
    (h : Staged s bs act m r m₁) (heq : ∀ ptr len (n : Machine Linkage),
      n.outer.scratchLive = m.outer.scratchLive → act ptr len n = act' ptr len n) : Staged s bs act' m r m₁ := by
  cases h with
  | refused hask => exact .refused hask
  | unfit hask hholds => exact .unfit hask hholds
  | ran hask hkept hstaged hact => exact .ran hask hkept hstaged ((heq _ _ (Machine.staging ..) hkept).symm.trans hact)

/-- Bytes are staged for an action that may ask for the place again as often and as deep as it likes. If the place is
free, the module is asked once, for as many bytes as there are; the action runs at most once, on the staged bytes, as if
each of its requests just failed; the place is given back once, and is free in the end. The first failure counts. And if
the place is taken, then nothing happens at all. -/
theorem scratch_is_scoped {α : Type} {fs : Filesystem} (s : ScratchExports fs) (bs : List UInt8)
    (hshort : bs.length < 2147483648) (c : UInt32 → UInt32 → Callback α) (m : Machine Linkage) :
    signed (UInt32.ofNat bs.length) = bs.length ∧
      (m.outer.scratchLive = false → ∃ r m₁ freed m₂,
        Staged s bs (fun ptr len => (c ptr len).alone) (m.scratch true) r m₁ ∧
        s.giveBack (m₁.scratch false) = yields freed m₂ ∧ m₂.outer.scratchLive = false ∧
        fs.withScratch bs (fun ptr len => (c ptr len).run fs) m = yields (do let a ← r; let _ ← freed; return a) m₂) ∧
      (m.outer.scratchLive = true →
        fs.withScratch bs (fun ptr len => (c ptr len).run fs) m = .error (.filesystem .scratchInUse) m ∧
        ∀ ptr len, ∃ r m₁, (c ptr len).run fs m = yields r m₁ ∧ (c ptr len).alone m = yields r m₁ ∧
          m₁.outer.scratchLive = true) := by
  refine ⟨signed_length hshort, fun hfree => ?_, fun hlive => ?_⟩
  · obtain ⟨r, m₁, freed, m₂, hstaged, hfreed, hback, hresult⟩ :=
      Filesystem.withScratch_of_free s bs (fun ptr len => (c ptr len).run fs) m hfree
    exact ⟨r, m₁, freed, m₂, hstaged.congr fun ptr len n hn => (c ptr len).run_eq_alone fs hn, hfreed, hback, hresult⟩
  · exact ⟨fs.withScratch_of_live bs _ hlive, fun ptr len => (c ptr len).run_of_live fs hlive⟩

/-- A module that gives a place, and traps when it is given back. -/
def trapping : Filesystem :=
  ⟨{ functions := [(FilesystemModule.allocName, ⟨⟨[.i32], [.i32]⟩, .skip, .lit 8⟩),
      (FilesystemModule.freeName, ⟨⟨[], []⟩, .unreachable, .lit 0⟩)] }, 0, 0⟩

def trappingExports : ScratchExports trapping where
  alloc := ⟨⟨[.i32], [.i32]⟩, .skip, .lit 8⟩
  free := ⟨⟨[], []⟩, .unreachable, .lit 0⟩
  alloc_typed := rfl
  free_typed := rfl

/-- Asks for the place again, and inside of that once more; passes over the failure, and ends with the address. -/
def askingAgain (ptr _len : UInt32) : Callback UInt32 :=
  .again [4] (fun _ _ => .again [5] (fun _ _ => .done ()) fun _ => .done ()) fun _ => .done ptr

/-- That what was asked for is refused does not show. The trap of giving back does, and the place is free after it. -/
theorem trap_of_giving_back_counts :
    ∃ m₁ m₂ : Machine Linkage,
      Staged trappingExports [1, 2, 3] (fun ptr len => (askingAgain ptr len).alone)
        ((trapping.blank {}).scratch true) (.ok 8) m₁ ∧ m₁.memory.read 8 3 = [1, 2, 3] ∧
      trapping.withScratch [1, 2, 3] (fun ptr len => (askingAgain ptr len).run trapping) (trapping.blank {}) =
        .error (.trap .unreachable) m₂ ∧ m₂.outer.scratchLive = false := by
  obtain ⟨-, hfree, -⟩ := scratch_is_scoped trappingExports [1, 2, 3] (by decide) askingAgain (trapping.blank {})
  obtain ⟨r, m₁, freed, m₂, hstaged, hfreed, hback, hresult⟩ := hfree rfl
  have hask : trappingExports.ask 3 ((trapping.blank {}).scratch true) = .ok 8 ((trapping.blank {}).scratch true) := rfl
  have hgive (n : Machine Linkage) : trappingExports.giveBack n = .error (.trap .unreachable) n := rfl
  have hran : r = .ok 8 ∧ m₁.memory.read 8 3 = [1, 2, 3] := by
    cases hstaged with
    | refused hask' => cases hask.symm.trans hask'
    | unfit hask' hholds =>
      cases hask.symm.trans hask'
      cases hholds
    | ran hask' _ hstaged hact =>
      cases hask.symm.trans hask'
      cases r <;> cases hact
      exact ⟨rfl, hstaged.bytes⟩
  obtain ⟨rfl, hread⟩ := hran
  rw [hgive] at hfreed
  cases freed <;> cases hfreed
  exact ⟨m₁, _, hstaged, hread, hresult, hback⟩

end GuestHost
