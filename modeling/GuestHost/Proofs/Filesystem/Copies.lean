/-
  GuestHost.Proofs.Filesystem.Copies — copies between the two memories, as the module's code gets to make them.

  Once a guest is there and the module's own memory is known to its host, a copy moves all its bytes and changes
  nothing else, or it fails and changes nothing (`CopiesWhole`). While the module is brought up there is no guest,
  and so no copy gets anywhere (`CopiesNothing`).

  Proved:
  - `Filesystem.copies_whole`, `Filesystem.copies_nothing`: what a copy comes to, for all addresses and lengths.
  - `Filesystem.alone_bringUp`: no copy is made while a module is brought up, whatever its code.
-/

import GuestHost.Proofs.Filesystem.Journey

namespace GuestHost

open Exec

/-! ## Copies -/

theorem typesMatch_zeros (results : List ValType) : typesMatch results (Linkage.zeros results) = true := by
  simp [typesMatch, Linkage.zeros, Function.comp_def]

theorem Linkage.fillSlots_zeros (results : List ValType) (m : Machine Linkage) :
    fillSlots results (zeros results) m = .ok (zeros results) m := by
  unfold fillSlots
  rw [if_pos (typesMatch_zeros results)]
  rfl

theorem Linkage.filled_apply {x : FilesystemAct Unit} {k k' : Machine Linkage} {c : Prop} [Decidable c]
    (results : List ValType) (h : x k = if c then .ok () k' else .error .memoryAccess k) :
    (x >>= fun _ => fillSlots results (zeros results)) k =
      if c then .ok (zeros results) k' else .error .memoryAccess k := by
  rw [bind_apply, h]
  by_cases hc : c
  · rw [if_pos hc, if_pos hc]
    exact fillSlots_zeros results k'
  · rw [if_neg hc, if_neg hc]

namespace Filesystem

variable (fs : Filesystem) (k : Machine Linkage)

/-- What the module's code gets from an import that moves `len` bytes from `src` to `dst`. -/
def copy (name : String) (src dst len : UInt32) : FilesystemAct (List Value) :=
  fs.setting.call ⟨internalNamespace, name⟩ [.i32 src, .i32 dst, .i32 len]

/-- What such an import returns: zeros, where it is declared with results. -/
def copied (name : String) : List Value := Linkage.zeros (fs.module.importType ⟨internalNamespace, name⟩).results

/-- A copy moves all its bytes and changes nothing else, or it fails and changes nothing. -/
structure CopiesWhole : Prop where
  copyIn : ∀ src dst len, fs.copy "copy_in" src dst len k =
    if k.outer.guest.holds src.toNat len.toNat ∧ k.memory.holds dst.toNat len.toNat then
      .ok (fs.copied "copy_in") (k.copiedIn src.toNat dst.toNat len.toNat)
    else .error .memoryAccess k
  copyOut : ∀ src dst len, fs.copy "copy_out" src dst len k =
    if k.memory.holds src.toNat len.toNat ∧ k.outer.guest.holds dst.toNat len.toNat then
      .ok (fs.copied "copy_out") (k.copiedOut src.toNat dst.toNat len.toNat)
    else .error .memoryAccess k

/-- No copy gets anywhere, as there is no memory of a guest. -/
structure CopiesNothing : Prop where
  copyIn : ∀ src dst len, fs.copy "copy_in" src dst len k = .error (.filesystem .guestMemoryUnbound) k
  copyOut : ∀ src dst len, fs.copy "copy_out" src dst len k = .error (.filesystem .guestMemoryUnbound) k

variable {fs k}

theorem copies_whole (hbound : k.outer.guestBound = true) (hattached : k.outer.attached = true) : fs.CopiesWhole k := by
  have hknown : ¬ k.outer.guestBound = false ∧ ¬ k.outer.attached = false := by simp [hbound, hattached]
  constructor
  · intro src dst len
    refine Linkage.filled_apply _ ?_
    rw [Linkage.copyIn_of_words k rfl rfl rfl, if_neg hknown.1, if_neg hknown.2]
  · intro src dst len
    refine Linkage.filled_apply _ ?_
    rw [Linkage.copyOut_of_words k rfl rfl rfl, if_neg hknown.1, if_neg hknown.2]

theorem copies_nothing (hbound : k.outer.guestBound = false) : fs.CopiesNothing k := by
  constructor
  · intro src dst len
    refine bind_of_error ?_
    rw [Linkage.copyIn_of_words k rfl rfl rfl, if_pos hbound]
  · intro src dst len
    refine bind_of_error ?_
    rw [Linkage.copyOut_of_words k rfl rfl rfl, if_pos hbound]

/-! ## Bringing the module up -/

/-- There is no guest yet, and nothing was copied; the module's own memory is known to its host or not. -/
structure Alone (own : Bool) (k : Machine Linkage) : Prop where
  bound : k.outer.guestBound = false
  crossings : k.outer.crossings = #[]
  attached : k.outer.attached = own

variable {α : Type} {own : Bool}

theorem Alone.journey {k k' : Machine Linkage} (hk : Alone own k) (h : Journey k k') : Alone own k' := by
  obtain ⟨-, -, hbound, hattached, -⟩ := h.frame
  exact ⟨hbound.trans hk.bound, (h.unbound hk.bound).trans hk.crossings, hattached.trans hk.attached⟩

theorem alone_of_travels {x : FilesystemAct α} (h : ∀ m₀, Travels m₀ x) :
    Keeps (Alone own) (fun _ => Alone own) x := by
  intro m hm
  have hafter := h m m .here
  cases hx : x m with
  | ok a m' =>
    rw [hx] at hafter
    exact hm.journey hafter
  | error e m' =>
    rw [hx] at hafter
    exact hm.journey hafter.1

theorem alone_throw (e : Failure) : Keeps (Alone own) (fun _ => Alone own) (throw e : FilesystemAct α) :=
  fun _ hm => hm

theorem alone_settle (r : Except Failure α) :
    Keeps (Alone own) (fun _ => Alone own) (settle r : FilesystemAct α) := by
  cases r with
  | ok a => exact Keeps.pure a
  | error e => exact alone_throw e

variable (fs : Filesystem)

theorem alone_callTyped (name : String) (type : FuncType) (args : List Value) :
    Keeps (Alone own) (fun _ => Alone own) (fs.callTyped name type args) :=
  Keeps.bind (alone_settle _) fun f => Keeps.bind (alone_of_travels fun _ => fs.travels_invoke f args) fun _ =>
    Keeps.pure _

theorem alone_stage (bs : List UInt8) : Keeps (Alone own) (fun _ => Alone own) (fs.stage bs) := by
  refine Keeps.bind (fs.alone_callTyped _ _ _) fun ptr m hm => ?_
  rw [bind_of_ok (get_apply m)]
  split
  · exact ⟨hm.bound, hm.crossings, hm.attached⟩
  · exact hm

theorem alone_withScratch (bs : List UInt8) {act : UInt32 → UInt32 → FilesystemAct α}
    (hact : ∀ ptr len, Keeps (Alone own) (fun _ => Alone own) (act ptr len)) :
    Keeps (Alone own) (fun _ => Alone own) (fs.withScratch bs act) := by
  have hscratch (live : Bool) : Keeps (Alone own) (fun _ => Alone own) (setScratch live) := fun _ hm =>
    ⟨hm.bound, hm.crossings, hm.attached⟩
  unfold withScratch
  refine Keeps.bind (fun m hm => hm) fun m => Keeps.ite (alone_throw _) ?_
  refine Keeps.bind (hscratch true) fun _ =>
    Keeps.bind (Keeps.attempt (Keeps.bind (fs.alone_stage bs) fun ptr => hact ptr _)) fun result => ?_
  exact Keeps.bind (hscratch false) fun _ => Keeps.bind (Keeps.attempt (fs.alone_callTyped _ _ _)) fun freed =>
    Keeps.bind (alone_settle result) fun value => Keeps.bind (alone_settle freed) fun _ => Keeps.pure value

theorem alone_instantiate : Keeps (Alone own) (fun _ => Alone own) fs.instantiate := by
  refine Keeps.bind (alone_settle _) fun _ m hm => ?_
  rw [bind_of_ok (get_apply m), bind_apply]
  cases applyData fs.module.data m.memory with
  | error e => exact hm
  | ok memory =>
    have hstart : Keeps (Alone own) (fun _ => Alone own) (do
        let _ ← fs.module.startSection.run fs.setting [] : FilesystemAct Unit) :=
      Keeps.bind (alone_of_travels fun _ => fs.travels_run _ _) fun _ => Keeps.pure _
    exact hstart { m with memory } ⟨hm.bound, hm.crossings, hm.attached⟩

theorem alone_seed (s : Seed) : Keeps (Alone own) (fun _ => Alone own) (fs.seed s) :=
  Keeps.bind (alone_settle _) fun _ =>
    Keeps.bind (fs.alone_withScratch _ fun _ _ => fs.alone_callTyped _ _ _) fun _ =>
      Keeps.ite (alone_throw _) (Keeps.pure _)

/-- The guest's memory is not bound while the module is brought up, so no copy is made; the module's own memory is
known when it is up. -/
theorem alone_bringUp (s : Seed) :
    Ends (Alone false) (fs.bringUp s) (fun _ => Alone true) fun _ k => ∃ own, Alone own k := by
  have hlater {β : Type} {own : Bool} {x : FilesystemAct β}
      (h : Keeps (Alone own) (fun _ => Alone own) x) :
      Keeps (Alone own) (fun _ k => ∃ own, Alone own k) x :=
    Ends.mono h (fun _ _ hm => hm) fun _ _ hm => ⟨own, hm⟩
  refine Ends.bind (hlater fs.alone_instantiate) fun _ => ?_
  dsimp only
  split
  · exact fun _ hm => ⟨false, hm⟩
  · have hattach : Ends (Alone false) (modify fun m => { m with outer := { m.outer with attached := true } })
        (fun _ => Alone true) fun _ k => ∃ own, Alone own k := Ends.modify fun m hm => ⟨hm.bound, hm.crossings, rfl⟩
    refine Ends.bind hattach fun _ => hlater ?_
    exact Keeps.bind (alone_settle _) fun _ => Keeps.bind (alone_settle _) fun _ =>
      Keeps.bind (fs.alone_callTyped _ _ _) fun _ => fs.alone_seed s

end Filesystem

end GuestHost
