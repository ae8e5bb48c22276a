/-
  GuestHost.Proofs.Session.Steps — what the host's own calls are made of.

  The calls differ in the words they look up and in what they do with them, but all of them look at the machine once,
  at the strings of the session or at the ranges of the guest's memory that they are given (`HostCall.reach`), and are
  then put together from few steps: stores into these ranges, a draw of random bytes, and an answer. Only reads, writes
  and the exit do more. What holds of these steps, one after the other, holds of every call (`HostCall.Steps`).

  Proved:
  - `HostCall.planned_run`: every call is made of such steps, and what it sees of the machine fixes which.
  - `HostCall.run_of_steps`: what holds of the steps, and of a look before them, holds of every call.
-/

import GuestHost.Proofs.Abi.Ranges
import GuestHost.Session.Calls

namespace GuestHost

open Exec

/-! ## Stores -/

section

variable {ranges : List Range}

theorem storesIn_placeRead {buffers : List IoVec} (h : ∀ v ∈ buffers, (v.ptr.toNat, v.len.toNat) ∈ ranges)
    (bs : List UInt8) {result : UInt32} (hresult : (result.toNat, 4) ∈ ranges) :
    (placeRead buffers bs result).StoresIn ranges := .bind (.scatter h bs) fun _ => .writeWord hresult

namespace Strings

/-- Where strings are laid out, and the address of each. -/
def places : List String → UInt32 → UInt32 → List Range
  | [], _, _ => []
  | s :: rest, slot, next =>
    (slot.toNat, 4) :: (next.toNat, (terminated s).length) ::
      places rest (slot + 4) (next + (UInt32.ofNat (utf8 s).length + 1))

theorem storesIn_layOut {strings : List String} {slot next : UInt32}
    (h : ∀ r ∈ places strings slot next, r ∈ ranges) : (layOut strings slot next).StoresIn ranges := by
  induction strings generalizing slot next with
  | nil => exact .pure ()
  | cons s rest ih =>
    obtain ⟨hslot, h⟩ := List.forall_mem_cons.1 h
    obtain ⟨hplace, hrest⟩ := List.forall_mem_cons.1 h
    exact .bind (.writeWord hslot) fun _ => .bind (.store hplace (Nat.le_refl _) (Nat.le_refl _)) fun _ => ih hrest

theorem storesIn_sizes (strings : List String) {count size : UInt32} (hcount : (count.toNat, 4) ∈ ranges)
    (hsize : (size.toNat, 4) ∈ ranges) : (sizes strings count size).StoresIn ranges :=
  .bind (.writeWord hcount) fun _ => .writeWord hsize

end Strings

end

/-! ## Calls -/

namespace HostCall

/-- The positions of the words that a call looks up. -/
def words : HostCall → List Nat
  | argsGet | argsSizesGet | environGet | environSizesGet | clockResGet | randomGet => [0, 1]
  | clockTimeGet => [0, 2]
  | fdRead | fdWrite => [0, 1, 2, 3]
  | procExit => [0]
  | schedYield | unsupported => []

theorem word_of_ok {args : List Value} {i : Nat} {w : UInt32} (h : wordArg args i = .ok w) : word args i = pure w := by
  unfold word
  rw [h]

theorem word_eq (args : List Value) (i : Nat) :
    (∃ w, wordArg args i = .ok w ∧ word args i = pure w) ∨
      ∃ e, wordArg args i = .error e ∧ word args i = throw (.marshal e) := by
  unfold word
  cases wordArg args i with
  | ok w => exact .inl ⟨w, rfl, rfl⟩
  | error e => exact .inr ⟨e, rfl, rfl⟩

theorem inStep_word {R : Machine (Hosted Work Session) → Machine (Hosted Work Session) → Prop} (args : List Value)
    (i : Nat) : InStep R Eq (word args i) (word args i) := by
  unfold word
  split
  · exact .pure rfl
  · exact .throw _

/-- No more random bytes are given than were asked for. -/
theorem length_draw {around : Surroundings} {n : Nat} {m m' : Machine (Hosted Work Session)} {bs : List UInt8}
    (h : draw around n m = .ok bs m') : bs.length ≤ n := by
  obtain ⟨rfl, -⟩ := EStateM.Result.ok.inj h
  calc _ ≤ _ := List.length_filterMap_le ..
    _ ≤ _ := (List.takeWhile_prefix _).length_le
    _ = n := by rw [List.length_map, List.length_range]

/-- So nothing is lost if no more than that are taken. -/
theorem draw_take (around : Surroundings) (n : Nat) (k : List UInt8 → Act (Reply Work)) :
    draw around n >>= k = draw around n >>= fun bs => k (bs.take n) := by
  funext m
  obtain ⟨bs, m', h⟩ : ∃ bs m', draw around n m = .ok bs m' := ⟨_, _, rfl⟩
  rw [bind_of_ok h, bind_of_ok h, List.take_of_length_le (length_draw h)]

/-- What a read does that found its buffers. -/
def readInto (fd : Nat) (buffers : List IoVec) (result : UInt32) : Act (Reply Work) := do
  match ← Session.onStream fd (.ready []) (Descriptor.readv (buffers.map IoVec.len)) with
  | .ready bs => do answer (← marshal (placeRead buffers bs result))
  | .pending lens => return .suspend (.read fd lens buffers result)

/-- What a write makes of its transfer. -/
def conclude (fd : Nat) (result : UInt32) : Transfer UInt32 PendingWrite → Act (Reply Work)
  | .ready n => do answer (← marshal (Memory.writeWord result n))
  | .pending chunks => return .suspend (.write fd chunks result)

/-- The ranges of the guest's memory that a call is given to read or to store to. -/
def reach (c : HostCall) (args : List Value) (m : Machine (Hosted Work Session)) : List Range :=
  match c with
  | argsGet => Strings.places m.outer.host.args (wordOr args 0) (wordOr args 1)
  | environGet => Strings.places m.outer.host.env (wordOr args 0) (wordOr args 1)
  | argsSizesGet | environSizesGet => [((wordOr args 0).toNat, 4), ((wordOr args 1).toNat, 4)]
  | clockResGet => [((wordOr args 1).toNat, 8)]
  | clockTimeGet => [((wordOr args 2).toNat, 8)]
  | fdRead | fdWrite =>
    ((wordOr args 3).toNat, 4) ::
      (Memory.arrayWords (wordOr args 1) (wordOr args 2) ++ m.memory.bufferRanges (wordOr args 1) (wordOr args 2))
  | randomGet => [((wordOr args 0).toNat, (wordOr args 1).toNat)]
  | procExit | schedYield | unsupported => []

/-- What is left of a call is one of these steps, and the same holds of what comes after it; whatever is stored lies
in the given ranges. A word that the call looks up is there, or it ends the call. -/
inductive Steps (around : Surroundings) (c : HostCall) (args : List Value) (ranges : List Range) :
    Act (Reply Work) → Prop
  | answer (e : Errno) : Steps around c args ranges (answer e)
  | refused {i : Nat} {e : MarshalError} (hi : i ∈ c.words) (he : wordArg args i = .error e) :
      Steps around c args ranges (throw (.marshal e))
  | marshal (act : Marshal Unit) {k : Errno → Act (Reply Work)} (hk : ∀ e, Steps around c args ranges (k e))
      (hstores : act.StoresIn ranges) : Steps around c args ranges (marshal act >>= k)
  | draw (n : Nat) {k : List UInt8 → Act (Reply Work)} (hk : ∀ bs, Steps around c args ranges (k bs)) :
      Steps around c args ranges (draw around n >>= k)
  | read (hc : c = fdRead) {fd : UInt32} (hfd : wordArg args 0 = .ok fd) (hstandard : ¬ 3 ≤ fd.toNat)
      (buffers : List IoVec) (result : UInt32) (hbuffers : ∀ v ∈ buffers, (v.ptr.toNat, v.len.toNat) ∈ ranges)
      (hresult : (result.toNat, 4) ∈ ranges) : Steps around c args ranges (readInto fd.toNat buffers result)
  | write (hc : c = fdWrite) {fd : UInt32} (hfd : wordArg args 0 = .ok fd) (hstandard : ¬ 3 ≤ fd.toNat)
      (views : List View) (result : UInt32) (hresult : (result.toNat, 4) ∈ ranges) : Steps around c args ranges (do
        Session.mark (.offered fd.toNat views)
        conclude fd.toNat result (← Session.onStream fd.toNat (.ready 0) (Descriptor.writev views)))
  | exit (hc : c = procExit) {code : UInt32} (hcode : wordArg args 0 = .ok code) : Steps around c args ranges (do
        Session.mark (.exiting code.toInt32 { (← get) with outer := () })
        throw (.exit code.toInt32))

/-- The second machine shows a call what the first does: the same strings, and the same memory as far as the call
reaches on the first. -/
structure Shows (c : HostCall) (args : List Value) (m m' : Machine (Hosted Work Session)) : Prop where
  strings : m'.outer.host.args = m.outer.host.args
  environment : m'.outer.host.env = m.outer.host.env
  memory : Memory.Alike (c.reach args m) m.memory m'.memory

theorem Shows.of_eq {c : HostCall} {args : List Value} {m m' : Machine (Hosted Work Session)}
    (hmemory : m'.memory = m.memory) (hargs : m'.outer.host.args = m.outer.host.args)
    (henv : m'.outer.host.env = m.outer.host.env) : Shows c args m m' :=
  ⟨hargs, henv, congrArg Memory.size hmemory, fun _ _ => by rw [hmemory]⟩

/-- The call first looks at the machine, and what it then does is made of steps. They are the same on a machine that
shows the same. -/
def Planned (around : Surroundings) (c : HostCall) (args : List Value) (x : Act (Reply Work)) : Prop :=
  ∃ plan : Machine (Hosted Work Session) → Act (Reply Work), x = get >>= plan ∧
    (∀ m, Steps around c args (c.reach args m) (plan m)) ∧ ∀ m m', Shows c args m m' → plan m' = plan m

section

variable {around : Surroundings} {c : HostCall} {args : List Value}

theorem Planned.blindly {x : Act (Reply Work)} (h : ∀ m, Steps around c args (c.reach args m) x) :
    Planned around c args x := ⟨fun _ => x, rfl, h, fun _ _ _ => rfl⟩

theorem Planned.word {i : Nat} {k : UInt32 → Act (Reply Work)} (hi : i ∈ c.words)
    (hk : ∀ w, wordArg args i = .ok w → wordOr args i = w → Planned around c args (k w)) :
    Planned around c args (word args i >>= k) := by
  rcases word_eq args i with ⟨w, hw, hword⟩ | ⟨e, he, hword⟩
  · rw [hword, pure_bind]
    exact hk w hw (wordOr_of_ok hw)
  · rw [hword]
    exact .blindly fun _ => .refused hi he

theorem Steps.marshalled {ranges : List Range} {act : Marshal Unit} (hstores : act.StoresIn ranges) :
    Steps around c args ranges (do HostCall.answer (← HostCall.marshal act)) := .marshal act .answer hstores

theorem planned_readStream : Planned around fdRead args (readStream args) := by
  rw [readStream_eq]
  refine .word (by decide) fun fd hfd _ => .word (by decide) fun array _ harray => ?_
  refine .word (by decide) fun count _ hcount => .word (by decide) fun result _ hresult => ?_
  refine ⟨_, rfl, fun m => ?_, fun m m' h => ?_⟩
  · rw [reach, harray, hcount, hresult]
    split
    · exact .answer _
    · next buffers hbuffers =>
      split
      · exact .answer _
      · next hstandard =>
        exact .read rfl hfd hstandard buffers result (fun v hv => List.mem_cons_of_mem _ (List.mem_append_right _
          (Memory.mem_bufferRanges hbuffers v hv))) List.mem_cons_self
  · have halike := h.memory
    rw [reach, harray, hcount, hresult] at halike
    rw [halike.readIoVecs fun r hr => List.mem_cons_of_mem _ (List.mem_append_left _ hr)]

theorem planned_writeStream : Planned around fdWrite args (writeStream args) := by
  refine .word (by decide) fun fd hfd _ => .word (by decide) fun array _ harray => ?_
  refine .word (by decide) fun count _ hcount => .word (by decide) fun result _ hresult => ?_
  refine ⟨_, rfl, fun m => ?_, fun m m' h => ?_⟩
  · rw [reach, harray, hcount, hresult]
    dsimp only
    split
    · exact .answer _
    · split
      · exact .answer _
      · next views _ =>
        split
        · exact .answer _
        · next hstandard => exact .write rfl hfd hstandard views result List.mem_cons_self
  · have halike := h.memory
    rw [reach, harray, hcount, hresult] at halike
    dsimp only
    rw [halike.readIoVecs fun r hr => List.mem_cons_of_mem _ (List.mem_append_left _ hr)]
    cases hbuffers : m.memory.readIoVecs array count with
    | error e => rfl
    | ok buffers =>
      dsimp only
      rw [halike.gather fun v hv => List.mem_cons_of_mem _ (List.mem_append_right _
        (Memory.mem_bufferRanges hbuffers v hv))]

/-- Every call is planned so. -/
theorem planned_run (around : Surroundings) (c : HostCall) (args : List Value) :
    Planned around c args (c.run around args) := by
  cases c with
  | argsGet =>
    refine .word (by decide) fun slots _ hslots => .word (by decide) fun buffer _ hbuffer => ?_
    refine ⟨_, rfl, fun m => .marshalled (Strings.storesIn_layOut fun r hr => ?_), fun m m' h => by rw [h.strings]⟩
    rw [reach, hslots, hbuffer]
    exact hr
  | environGet =>
    refine .word (by decide) fun slots _ hslots => .word (by decide) fun buffer _ hbuffer => ?_
    refine ⟨_, rfl, fun m => .marshalled (Strings.storesIn_layOut fun r hr => ?_), fun m m' h => by rw [h.environment]⟩
    rw [reach, hslots, hbuffer]
    exact hr
  | argsSizesGet | environSizesGet =>
    refine .word (by decide) fun count _ hcount => .word (by decide) fun size _ hsize => ?_
    refine ⟨_, rfl, fun m => .marshalled ?_, fun m m' h => by first | rw [h.strings] | rw [h.environment]⟩
    rw [reach, hcount, hsize]
    exact Strings.storesIn_sizes _ List.mem_cons_self (List.mem_cons_of_mem _ List.mem_cons_self)
  | clockResGet | clockTimeGet =>
    refine .word (by decide) fun id _ _ => .word (by decide) fun result _ hresult => .blindly fun m => ?_
    split
    · exact .answer _
    · refine .marshalled (.writeLong ?_)
      rw [reach, hresult]
      exact List.mem_cons_self
  | fdRead => exact planned_readStream
  | fdWrite => exact planned_writeStream
  | procExit => exact .word (by decide) fun code hcode _ => .blindly fun _ => .exit rfl hcode
  | randomGet =>
    refine .word (by decide) fun buffer _ hbuffer => .word (by decide) fun len _ hlen =>
      ⟨_, rfl, fun m => ?_, fun m m' h => ?_⟩
    · rw [reach, hbuffer, hlen]
      split
      · exact .answer _
      · rw [draw_take]
        refine .draw _ fun drawn => .marshal _ (fun stored => .answer _) ?_
        refine .store List.mem_cons_self (Nat.le_refl _) (Nat.add_le_add_left ?_ _)
        exact List.length_take_le ..
    · have halike := h.memory
      rw [reach, hbuffer, hlen] at halike
      rw [halike.slice List.mem_cons_self]
  | schedYield | unsupported => exact .blindly fun _ => .answer _

/-- What holds of the steps, and of a look at the machine before them, holds of every call. -/
theorem run_of_steps (around : Surroundings) (c : HostCall) (args : List Value) {P : Act (Reply Work) → Prop}
    (hsteps : ∀ {ranges x}, Steps around c args ranges x → P x)
    (hlook : ∀ plan, (∀ m, P (plan m)) → (∀ m m', Shows c args m m' → plan m' = plan m) → P (get >>= plan)) :
    P (c.run around args) := by
  obtain ⟨plan, hrun, hmade, hshows⟩ := planned_run around c args
  rw [hrun]
  exact hlook plan (fun m => hsteps (hmade m)) hshows

end

end HostCall

end GuestHost
