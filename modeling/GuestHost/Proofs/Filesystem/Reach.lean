/-
  GuestHost.Proofs.Filesystem.Reach — what a filesystem module reads and writes of the guest's memory.

  The module gets at the guest's memory through `copy_in` and `copy_out` only, so its reach is made of the ranges that
  these name. A patch anywhere else in the guest's memory makes no difference to a forwarded call, and stays.

  Proved:
  - `Filesystem.unaware_forward`: a forwarded call that reaches nothing of a patch comes to the same with the patch as
    without.
-/

import GuestHost.Filesystem.Instance
import GuestHost.Proofs.Filesystem.Journey
import GuestHost.Proofs.Program.Reach

namespace GuestHost

open Exec

/-- The module with a patch in the guest's memory. -/
def Machine.beyond (p : Patch) (k : Machine Linkage) : Machine Linkage :=
  { k with outer := { k.outer with guest := k.outer.guest.patched [p] } }

/-- The second module is the first, with a patch in the guest's memory. -/
def Beyond (p : Patch) (k k' : Machine Linkage) : Prop := k' = k.beyond p

section

variable {α : Type} {p : Patch}

/-- An action to which the patch makes no difference, as long as it keeps apart from it. -/
theorem unaware_of_forget {reach : Machine Linkage → List Range} {x : FilesystemAct α}
    (h : ∀ k, (∀ r ∈ reach k, r.Apart p) → x (k.beyond p) = forget (Machine.beyond p) (x k)) :
    Unaware (Beyond p) (·.Apart p) reach x := by
  rintro k _ rfl hp
  rw [h k hp]
  cases x k <;> exact ⟨rfl, rfl⟩

namespace Linkage

/-- The range of the guest's memory that an import of the module copies from or to. -/
def reach (target : ImportName) (args : List Value) : List Range :=
  if target.space = internalNamespace then
    match target.name with
    | "copy_in" => [((wordOr args 0).toNat, (wordOr args 2).toNat)]
    | "copy_out" => [((wordOr args 1).toNat, (wordOr args 2).toNat)]
    | _ => []
  else []

theorem unaware_fillSlots (reach : Machine Linkage → List Range) (results : List ValType) (filled : List Value) :
    Unaware (Beyond p) (·.Apart p) reach (fillSlots results filled) := by
  unfold fillSlots
  split
  · exact .pure _
  · exact .throw _

theorem unaware_trace (reach : Machine Linkage → List Range) (args : List Value) :
    Unaware (Beyond p) (·.Apart p) reach (trace args) := by
  rcases words_cases args with ⟨isError, addr, len, herror, haddr, hlen⟩ | ⟨e, he⟩
  · refine unaware_of_forget fun k _ => ?_
    rw [trace_of_words k herror haddr hlen, trace_of_words (k.beyond p) herror haddr hlen]
    unfold Machine.beyond
    split
    · rfl
    · split
      · split <;> rfl
      · rfl
  · unfold trace
    rw [he]
    exact .throw _

theorem unaware_requireMemories (reach : Machine Linkage → List Range) :
    Unaware (Beyond p) (·.Apart p) reach requireMemories := by
  refine unaware_of_forget fun k _ => ?_
  rw [requireMemories_apply, requireMemories_apply]
  unfold Machine.beyond
  split
  · rfl
  · split <;> rfl

theorem unaware_copyIn (args : List Value) :
    Unaware (Beyond p) (·.Apart p) (fun _ => [((wordOr args 0).toNat, (wordOr args 2).toNat)]) (copyIn args) := by
  rcases words_cases args with ⟨src, dst, len, hsrc, hdst, hlen⟩ | ⟨e, he⟩
  · refine unaware_of_forget fun k hp => ?_
    rw [wordOr_of_ok hsrc, wordOr_of_ok hlen] at hp
    have hread : (k.outer.guest.patched [p]).read src.toNat len.toNat = k.outer.guest.read src.toNat len.toNat :=
      Memory.read_patched_of_apart (hp _ (List.mem_singleton_self _))
    rw [copyIn_of_words k hsrc hdst hlen, copyIn_of_words (k.beyond p) hsrc hdst hlen]
    simp only [Machine.copiedIn, Machine.beyond, hread, Memory.holds_patched]
    split
    · rfl
    · split
      · rfl
      · split <;> rfl
  · unfold copyIn
    rw [he]
    exact (unaware_requireMemories _).bind_nothing fun _ => .throw _

theorem unaware_copyOut (args : List Value) :
    Unaware (Beyond p) (·.Apart p) (fun _ => [((wordOr args 1).toNat, (wordOr args 2).toNat)]) (copyOut args) := by
  rcases words_cases args with ⟨src, dst, len, hsrc, hdst, hlen⟩ | ⟨e, he⟩
  · refine unaware_of_forget fun k hp => ?_
    rw [wordOr_of_ok hdst, wordOr_of_ok hlen] at hp
    have hapart : Range.Apart (dst.toNat, (k.memory.read src.toNat len.toNat).length) p := by
      rw [Memory.length_read]
      exact hp _ (List.mem_singleton_self _)
    rw [copyOut_of_words k hsrc hdst hlen, copyOut_of_words (k.beyond p) hsrc hdst hlen]
    simp only [Machine.copiedOut, Machine.beyond, Memory.write_patched hapart, Memory.holds_patched]
    split
    · rfl
    · split
      · rfl
      · split <;> rfl
  · unfold copyOut
    rw [he]
    exact (unaware_requireMemories _).bind_nothing fun _ => .throw _

theorem unaware_call (now : Nat) (target : ImportName) (results : List ValType) (args : List Value) :
    Unaware (Beyond p) (·.Apart p) (fun _ => reach target args) (call now target results args) := by
  unfold call
  split
  · next hspace =>
    split
    · exact unaware_fillSlots _ _ _
    · exact (unaware_trace _ _).bind_nothing fun _ => unaware_fillSlots _ _ _
    · next hname =>
      rw [reach, if_pos hspace, hname]
      exact (unaware_copyIn _).bind_nothing fun _ => unaware_fillSlots _ _ _
    · next hname =>
      rw [reach, if_pos hspace, hname]
      exact (unaware_copyOut _).bind_nothing fun _ => unaware_fillSlots _ _ _
    · exact .throw _
  · split <;> exact unaware_fillSlots _ _ _

end Linkage

namespace Filesystem

variable (fs : Filesystem)

/-- Of the module's own memory nothing counts as reached, only what its imports copy from or to. -/
def reaching : Reach Linkage := ⟨fun _ => [], fun target args _ => Linkage.reach target args⟩

def reach (name : String) (args : List Value) : Machine Linkage → List Range :=
  match fs.module.function? name with
  | some f => f.reach fs.setting reaching args
  | none => nothing

theorem unaware_setting : fs.setting.Unaware reaching (Beyond p) (·.Apart p) where
  own {α x ranges} hx := by
    refine unaware_of_forget fun k _ => ?_
    obtain ⟨r, c, -, -, h⟩ := hx.homely k.core
    have hplain : x Linkage k = yields r (c.within k.outer) := h Linkage k.outer
    have hpatched : x Linkage (k.beyond p) = yields r (c.within (k.beyond p).outer) := h Linkage (k.beyond p).outer
    rw [hplain, hpatched]
    cases r <;> rfl
  setGlobal k w := unaware_of_forget fun _ _ => rfl
  call target args := Linkage.unaware_call _ _ _ _

/-- Whatever the module, a forwarded call that reaches nothing of a patch comes to the same with it as without. -/
theorem unaware_forward (name : String) (args : List Value) :
    Unaware (Beyond p) (·.Apart p) (fs.reach name args) (fs.forward name args) := by
  unfold forward reach function
  cases fs.module.function? name with
  | none => exact .throw _
  | some f =>
    have hinvoke := Function.unaware_invoke (fs.unaware_setting (p := p)) f args
    have hchecked : Unaware (Beyond p) (·.Apart p) (f.reach fs.setting reaching args) (fs.callChecked f args 1) := by
      unfold callChecked
      split
      · exact .throw _
      · split
        · exact .throw _
        · split
          · exact hinvoke
          · exact .throw _
    show Unaware _ _ _ (pure f >>= fun f => _)
    rw [pure_bind]
    refine hchecked.bind_nothing fun values => ?_
    split <;> exact .pure _

end Filesystem

end

end GuestHost
