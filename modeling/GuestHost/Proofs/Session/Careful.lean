/-
  GuestHost.Proofs.Session.Careful — the imports that the host answers, over steps that may slip.

  A guest chooses every word that these imports get, and all that is in the memory they look at. Each import is
  written again over the careful reads, writes and streams; what it asks for, and what it answers, is as it was.

  Proved: `host_imports_never_slip`. Whatever the arguments, the memory and the streams are, an import that the
  host answers makes no step that slips, and is the one that runs; it answers with a result code or suspends the
  guest, or fails as an exit or a failed stream; and what it left to be finished finds no step that slips either,
  in any memory. The memory may have as many bytes as there are addresses (`a_write_at_the_last_address`), and each
  string of the command line and the environment may fill it but for its end mark.
-/

import GuestHost.Proofs.Abi.Careful
import GuestHost.Proofs.Session.Answers
import GuestHost.Proofs.Stream.Careful

namespace GuestHost

open Exec

namespace Careful

/-! ## Strings -/

def terminatedSize (s : String) : Except Slip UInt32 := add (UInt32.ofNat (utf8 s).length) 1

def layOut : List String → UInt32 → UInt32 → Careful MarshalError Memory Unit
  | [], _, _ => pure ()
  | s :: rest, slot, next => do
    writeWord slot next
    let len ← terminatedSize s
    let dst ← window next len
    dst.fill (utf8 s).length (utf8 s)
    dst.put (utf8 s).length 0
    layOut rest (slot + 4) (next + len)

def totalSize (strings : List String) : Except Slip UInt32 :=
  strings.foldlM (fun total s => return addCount total (← terminatedSize s).toNat) 0

def sizes (strings : List String) (count size : UInt32) : Careful MarshalError Memory Unit := do
  let total ← totalSize strings
  writeWord count (UInt32.ofNat strings.length)
  writeWord size total

theorem toNat_terminatedSize {s : String} (h : (utf8 s).length < UInt32.size - 1) :
    (UInt32.ofNat (utf8 s).length + 1).toNat = (utf8 s).length + 1 := by
  have hword : (UInt32.ofNat (utf8 s).length).toNat = (utf8 s).length :=
    UInt32.toNat_ofNat_of_lt' (Nat.lt_of_lt_of_le h (Nat.sub_le ..))
  have hnext := toNat_add_ofNat (w := UInt32.ofNat (utf8 s).length) (n := 1) (by omega)
  rwa [hword] at hnext

theorem terminatedSize_eq {s : String} (h : (utf8 s).length < UInt32.size - 1) :
    terminatedSize s = .ok (UInt32.ofNat (utf8 s).length + 1) := by
  refine add_eq_ok ?_
  rw [UInt32.toNat_ofNat_of_lt' (Nat.lt_of_lt_of_le h (Nat.sub_le ..))]
  show _ + 1 < _
  omega

/-- A string goes into its window with its end mark in the last place. -/
theorem follows_layOut {strings : List String} (h : ∀ s ∈ strings, (utf8 s).length < UInt32.size - 1)
    (slot next : UInt32) (m : Memory) : Follows (layOut strings slot next) (Strings.layOut strings slot next) m := by
  induction strings generalizing slot next m with
  | nil => rfl
  | cons s rest ih =>
    obtain ⟨hs, hrest⟩ := List.forall_mem_cons.1 h
    have hsize := toNat_terminatedSize hs
    refine Follows.bind (follows_writeWord ..) fun _ m₁ _ => ?_
    refine Follows.step (terminatedSize_eq hs) ?_
    refine follows_window (fun hin => ?_) fun hout => bind_of_error (Memory.store_eq_error _ hout)
    have hplaces : (utf8 s).length < (UInt32.ofNat (utf8 s).length + 1).toNat := by omega
    have hput : ((m₁.write next.toNat (utf8 s)).set (next.toNat + (utf8 s).length) 0) =
        m₁.write next.toNat (Strings.terminated s) := (m₁.write_append next.toNat (utf8 s) [0]).symm
    unfold Follows
    rw [bind_of_value (Window.fill_eq (Nat.le_of_lt hplaces) rfl _), bind_of_value (Window.put_eq hplaces _ _), hput,
      bind_of_ok (Memory.store_eq_ok _ hin)]
    exact ih hrest _ _ _

theorem totalSize_eq {strings : List String} (h : ∀ s ∈ strings, (utf8 s).length < UInt32.size - 1) :
    totalSize strings = .ok (Strings.totalSize strings) :=
  foldlM_eq_ok (fun total s hs => by rw [terminatedSize_eq (h s hs)]; rfl) 0

theorem follows_sizes {strings : List String} (h : ∀ s ∈ strings, (utf8 s).length < UInt32.size - 1)
    (count size : UInt32) (m : Memory) : Follows (sizes strings count size) (Strings.sizes strings count size) m :=
  Follows.step (totalSize_eq h) (Follows.bind (follows_writeWord ..) fun _ _ _ => follows_writeWord ..)

/-! ## Calls -/

def placeRead (buffers : List IoVec) (bs : List UInt8) (result : UInt32) : Careful MarshalError Memory Unit := do
  let n ← scatter buffers bs 0
  writeWord result (UInt32.ofNat n)

def marshal (act : Careful MarshalError Memory Unit) : Careful Failure (Machine (Hosted Work Session)) Errno :=
  fun m => (act m.memory).map fun r => HostCall.marshal (fun _ => r) m

def onStream {α : Type} (fd : Nat) (absent : α) (act : Careful StreamError Descriptor α) :
    Careful Failure (Machine (Hosted Work Session)) α := fun m =>
  match m.outer.host.stdio.get? fd with
  | none => .ok (.ok absent m)
  | some d => (act d).map fun r => Session.onStream fd absent (fun _ => r) m

theorem follows_placeRead (buffers : List IoVec) (bs : List UInt8) (result : UInt32) (m : Memory) :
    Follows (placeRead buffers bs result) (GuestHost.placeRead buffers bs result) m := by
  have hscatter := follows_scatter buffers (Nat.zero_le bs.length) m
  simp only [List.drop_zero, Nat.zero_add, bind_pure] at hscatter
  exact Follows.bind hscatter fun n _ _ => follows_writeWord ..

theorem follows_marshal {x : Careful MarshalError Memory Unit} {y : Marshal Unit} {m : Machine (Hosted Work Session)}
    (h : Follows x y m.memory) : Follows (marshal x) (HostCall.marshal y) m := by
  show (x m.memory).map _ = _
  rw [h]
  rfl

theorem follows_onStream {α : Type} {fd : Nat} {absent : α} {x : Careful StreamError Descriptor α}
    {y : EStateM StreamError Descriptor α} (h : ∀ d, Follows x y d) (m : Machine (Hosted Work Session)) :
    Follows (onStream fd absent x) (Session.onStream fd absent y) m := by
  unfold Follows
  cases hd : m.outer.host.stdio.get? fd with
  | none => simp only [onStream, Session.onStream, hd]
  | some d =>
    have hx : x d = .ok (y d) := h d
    simp only [onStream, Session.onStream, hd, hx, Except.map]

theorem follows_word {α : Type} {args : List Value} {i : Nat}
    {f : UInt32 → Careful Failure (Machine (Hosted Work Session)) α} {g : UInt32 → Act α}
    {m : Machine (Hosted Work Session)} (h : ∀ w, Follows (f w) (g w) m) :
    Follows ((liftM (HostCall.word args i) : Careful _ _ _) >>= f) (HostCall.word args i >>= g) m := by
  refine Follows.lift_bind fun w m' hw => ?_
  unfold HostCall.word at hw
  cases harg : wordArg args i with
  | ok a =>
    rw [harg] at hw
    obtain ⟨rfl, rfl⟩ := EStateM.Result.ok.inj hw
    exact h _
  | error e =>
    rw [harg] at hw
    cases hw

/-- What is written to the guest's memory is answered with how that went. -/
theorem follows_answer {x : Careful MarshalError Memory Unit} {y : Marshal Unit} {m : Machine (Hosted Work Session)}
    (h : Follows x y m.memory) :
    Follows (do HostCall.answer (← marshal x)) (do HostCall.answer (← HostCall.marshal y)) m :=
  Follows.bind (follows_marshal h) fun _ _ _ => .lift ..

def readStream (args : List Value) : Careful Failure (Machine (Hosted Work Session)) (Reply Work) := do
  let fd := (← HostCall.word args 0).toNat
  let array ← HostCall.word args 1
  let count ← HostCall.word args 2
  let result ← HostCall.word args 3
  match ← (readIoVecs (← (get : Act _)).memory array count).run with
  | .error e => HostCall.answer e.errno
  | .ok buffers =>
    if 3 ≤ fd then HostCall.answer .badf
    else
      match ← onStream fd (.ready []) (readv (buffers.map IoVec.len)) with
      | .ready bs => do HostCall.answer (← marshal (placeRead buffers bs result))
      | .pending lens => return .suspend (.read fd lens buffers result)

theorem follows_readStream (args : List Value) {m : Machine (Hosted Work Session)}
    (hsize : m.memory.size ≤ UInt32.size) : Follows (readStream args) (HostCall.readStream args) m := by
  rw [HostCall.readStream_eq]
  refine follows_word fun fd => follows_word fun array => follows_word fun count => follows_word fun result => ?_
  refine Follows.get_bind (Follows.step (readIoVecs_eq _ array count hsize) ?_)
  cases hbuffers : m.memory.readIoVecs array count with
  | error e => exact .lift ..
  | ok buffers =>
    have hlens : (buffers.map IoVec.len).length < UInt32.size := by
      rw [List.length_map, Memory.length_readIoVecs hsize hbuffers]
      exact count.toNat_lt
    refine Follows.ite (fun _ => .lift ..) fun _ => ?_
    refine Follows.bind (follows_onStream (follows_readv hlens) m) fun t m' _ => ?_
    cases t with
    | ready bs => exact follows_answer (follows_placeRead ..)
    | pending lens => exact .pure ..

def writeStream (args : List Value) : Careful Failure (Machine (Hosted Work Session)) (Reply Work) := do
  let fd := (← HostCall.word args 0).toNat
  let array ← HostCall.word args 1
  let count ← HostCall.word args 2
  let result ← HostCall.word args 3
  let memory := (← (get : Act _)).memory
  match ← (readIoVecs memory array count).run with
  | .error e => HostCall.answer e.errno
  | .ok buffers =>
    match ← (gather memory buffers).run with
    | .error e => HostCall.answer e.errno
    | .ok views =>
      if 3 ≤ fd then HostCall.answer .badf
      else
        Session.mark (.offered fd views)
        match ← (Session.onStream fd (.ready 0) (Descriptor.writev views) : Act _) with
        | .ready n => do HostCall.answer (← marshal (writeWord result n))
        | .pending chunks => return .suspend (.write fd chunks result)

theorem follows_writeStream (args : List Value) {m : Machine (Hosted Work Session)}
    (hsize : m.memory.size ≤ UInt32.size) : Follows (writeStream args) (HostCall.writeStream args) m := by
  refine follows_word fun fd => follows_word fun array => follows_word fun count => follows_word fun result => ?_
  refine Follows.get_bind (Follows.step (readIoVecs_eq _ array count hsize) ?_)
  dsimp only
  cases m.memory.readIoVecs array count with
  | error e => exact .lift ..
  | ok buffers =>
    refine Follows.step (gather_eq m.memory buffers) ?_
    dsimp only
    cases m.memory.gather buffers with
    | error e => exact .lift ..
    | ok views =>
      refine Follows.ite (fun _ => .lift ..) fun _ => ?_
      refine Follows.lift_bind fun _ m₁ _ => Follows.lift_bind fun t m₂ _ => ?_
      cases t with
      | ready n => exact follows_answer (follows_writeWord ..)
      | pending chunks => exact .pure ..

def run (around : Surroundings) (c : HostCall) (args : List Value) :
    Careful Failure (Machine (Hosted Work Session)) (Reply Work) :=
  match c with
  | .argsGet => do
    let slots ← HostCall.word args 0
    let buffer ← HostCall.word args 1
    HostCall.answer (← marshal (layOut (← (get : Act _)).outer.host.args slots buffer))
  | .argsSizesGet => do
    let count ← HostCall.word args 0
    let size ← HostCall.word args 1
    HostCall.answer (← marshal (sizes (← (get : Act _)).outer.host.args count size))
  | .environGet => do
    let slots ← HostCall.word args 0
    let buffer ← HostCall.word args 1
    HostCall.answer (← marshal (layOut (← (get : Act _)).outer.host.env slots buffer))
  | .environSizesGet => do
    let count ← HostCall.word args 0
    let size ← HostCall.word args 1
    HostCall.answer (← marshal (sizes (← (get : Act _)).outer.host.env count size))
  | .clockResGet => do
    let id ← HostCall.word args 0
    let result ← HostCall.word args 1
    match Clock.ofRaw? id with
    | none => HostCall.answer .inval
    | some _ => do HostCall.answer (← marshal (writeLong result Clock.resolution))
  | .clockTimeGet => do
    let id ← HostCall.word args 0
    let result ← HostCall.word args 2
    match Clock.ofRaw? id with
    | none => HostCall.answer .inval
    | some _ => do HostCall.answer (← marshal (writeLong result (Clock.nanoseconds around.now)))
  | .fdRead => readStream args
  | .fdWrite => writeStream args
  | .randomGet => do
    let buffer ← HostCall.word args 0
    let len ← HostCall.word args 1
    match ← (slice (← (get : Act _)).memory buffer len).run with
    | .error e => HostCall.answer e.errno
    | .ok _ => do
      let drawn ← HostCall.draw around len.toNat
      let stored ← marshal do
        let dst ← window buffer len
        dst.fill drawn.length drawn
      HostCall.answer (if drawn.length < len.toNat then .io else stored)
  | .procExit | .schedYield | .unsupported => c.run around args

/-- No step of an import that the host answers slips. -/
theorem follows_run (around : Surroundings) (c : HostCall) (args : List Value) {m : Machine (Hosted Work Session)}
    (hsize : m.memory.size ≤ UInt32.size) (hargs : ∀ s ∈ m.outer.host.args, (utf8 s).length < UInt32.size - 1)
    (henv : ∀ s ∈ m.outer.host.env, (utf8 s).length < UInt32.size - 1) :
    Follows (run around c args) (c.run around args) m := by
  cases c with
  | argsGet =>
    exact follows_word fun slots => follows_word fun buffer => .get_bind (follows_answer (follows_layOut hargs ..))
  | argsSizesGet =>
    exact follows_word fun count => follows_word fun size => .get_bind (follows_answer (follows_sizes hargs ..))
  | environGet =>
    exact follows_word fun slots => follows_word fun buffer => .get_bind (follows_answer (follows_layOut henv ..))
  | environSizesGet =>
    exact follows_word fun count => follows_word fun size => .get_bind (follows_answer (follows_sizes henv ..))
  | clockResGet =>
    refine follows_word fun id => follows_word fun result => ?_
    cases Clock.ofRaw? id with
    | none => exact .lift ..
    | some _ => exact follows_answer (follows_writeLong ..)
  | clockTimeGet =>
    refine follows_word fun id => follows_word fun result => ?_
    cases Clock.ofRaw? id with
    | none => exact .lift ..
    | some _ => exact follows_answer (follows_writeLong ..)
  | fdRead => exact follows_readStream args hsize
  | fdWrite => exact follows_writeStream args hsize
  | randomGet =>
    refine follows_word fun buffer => follows_word fun len => .get_bind (Follows.step (slice_eq ..) ?_)
    cases m.memory.slice buffer len with
    | error e => exact .lift ..
    | ok _ =>
      refine Follows.lift_bind fun drawn m' hdrawn => ?_
      have hstore := follows_store_within buffer len (HostCall.length_draw hdrawn)
      exact Follows.bind (follows_marshal (hstore _)) fun _ _ _ => .lift ..
  | procExit | schedYield | unsupported => exact .lift ..

def finish : Work → Careful Failure (Machine (Hosted Work Session)) UInt32
  | .read fd lens buffers result => do
    let bs ← onStream fd [] (finishRead lens)
    return (← marshal (placeRead buffers bs result)).raw
  | .write fd chunks result => do
    let n ← (Session.onStream fd 0 (Descriptor.finishWrite chunks) : Act _)
    return (← marshal (writeWord result n)).raw
  | .value w => pure w

/-- No step slips when the work of an import is finished, whatever the memory has become. -/
theorem follows_finish (work : Work) (m : Machine (Hosted Work Session)) : Follows (finish work) work.finish m := by
  cases work with
  | read fd lens buffers result =>
    refine Follows.bind (follows_onStream (follows_finishRead lens) m) fun bs m' _ => ?_
    exact Follows.bind (follows_marshal (follows_placeRead ..)) fun _ _ _ => .pure ..
  | write fd chunks result =>
    refine Follows.lift_bind fun n m' _ => ?_
    exact Follows.bind (follows_marshal (follows_writeWord ..)) fun _ _ _ => .pure ..
  | value w => rfl

end Careful

/-- Whatever a guest asks of an import that the host answers, with whatever in its memory, no step slips: not in the
import, and not when a transfer is finished later, in whatever the memory has become by then. It ends as imports
may end. -/
theorem host_imports_never_slip {s : Signature} (hs : s ∈ Signature.table) (hroute : s.route = .host) :
    ∃ c, (ImportTable.serviceOf s = some (.host c) ∨ ImportTable.serviceOf s = some (.byDescriptor c)) ∧
      ∀ (around : Surroundings) (args : List Value) (m : Machine (Hosted Work Session)),
        typesMatch s.params args = true → m.memory.size ≤ UInt32.size →
        (∀ t ∈ m.outer.host.args ++ m.outer.host.env, (utf8 t).length < UInt32.size - 1) →
        Careful.run around c args m = .ok (c.run around args m) ∧
        After (fun reply _ => reply.Proper) (fun e _ => e.Declared) (c.run around args m) ∧
        ∀ work m', c.run around args m = .ok (.suspend work) m' → ∀ later,
          Careful.finish work later = .ok (work.finish later) ∧
          After (fun w _ => ∃ e : Errno, w = e.raw) (fun e _ => ∃ f, e = .stream f) (work.finish later) := by
  obtain ⟨c, hservice, hwords⟩ := Signature.host_surface hs hroute
  refine ⟨c, hservice, fun around args m htypes hsize hstrings => ?_⟩
  obtain ⟨hargs, henv⟩ := List.forall_mem_append.1 hstrings
  have hend : After (fun reply _ => reply.Proper) (fun e _ => e.Declared) (c.run around args m) :=
    HostCall.ends_run (P := fun _ => True) around c (fun i hi => wordArg_of_types htypes (hwords i hi)) m trivial
  refine ⟨Careful.follows_run around c args hsize hargs henv, hend, fun work m' hrun later => ?_⟩
  rw [hrun] at hend
  exact ⟨Careful.follows_finish work later, Work.ends_finish (P := fun _ => True) hend later trivial⟩

def writeSignature : Signature := .served "fd_write" [.i32, .i32, .i32, .i32]

/-- The arguments of a write to the standard output, of the one buffer that the last eight bytes of memory name. -/
def lastWrite : List Value := [.i32 1, .i32 0xFFFFFFF8, .i32 1, .i32 0xFFFFFFFC]

/-- A guest whose memory ends at the last address, with the last byte named there as a buffer. -/
def brimful : Machine (Hosted Work Session) where
  memory := (Memory.zeroed (UInt32.size)).write 0xFFFFFFF8 (wordBytes 0xFFFFFFFF ++ wordBytes 1)
  outer :=
    { host :=
        { args := ["brimful"]
          env := []
          stdio := Options.stdio { stdout := some {} }
          filesystem := { memory := default, outer := {} } } }

set_option maxRecDepth 4000

/-- Whether a call left chunks to be written to a descriptor, and an address for their count. -/
def leavesWrite (fd : Nat) (chunks : PendingWrite) (result : UInt32) :
    EStateM.Result Failure (Machine (Hosted Work Session)) (Reply Work) → Bool
  | .ok (.suspend (.write fd' chunks' result')) _ => decide (fd' = fd ∧ chunks' = chunks ∧ result' = result)
  | _ => false

theorem of_leavesWrite {fd : Nat} {chunks : PendingWrite} {result : UInt32}
    {r : EStateM.Result Failure (Machine (Hosted Work Session)) (Reply Work)} (h : leavesWrite fd chunks result r) :
    ∃ m, r = .ok (.suspend (.write fd chunks result)) m := by
  unfold leavesWrite at h
  split at h
  · obtain ⟨rfl, rfl, rfl⟩ := of_decide_eq_true h
    exact ⟨_, rfl⟩
  · cases h

/-- The write is left to be finished, and finishing it stores the count over the entry that named the buffer. -/
theorem a_write_at_the_last_address :
    ∃ around m, typesMatch writeSignature.params lastWrite = true ∧ brimful.memory.size ≤ UInt32.size ∧
      HostCall.fdWrite.run around lastWrite brimful = .ok (.suspend (.write 1 [[0]] 0xFFFFFFFC)) m ∧
      Careful.run around .fdWrite lastWrite brimful = .ok (.ok (.suspend (.write 1 [[0]] 0xFFFFFFFC)) m) ∧
      Careful.finish (.write 1 [[0]] 0xFFFFFFFC) m = .ok (Work.finish (.write 1 [[0]] 0xFFFFFFFC) m) := by
  have hwrite : ImportTable.serviceOf writeSignature = some (.byDescriptor .fdWrite) := by decide
  have hstrings : ∀ t ∈ brimful.outer.host.args ++ brimful.outer.host.env, (utf8 t).length < UInt32.size - 1 := by
    decide +kernel
  have hsize : brimful.memory.size ≤ UInt32.size :=
    Nat.le_of_eq (by rw [brimful, Memory.size_write, Memory.size_zeroed])
  obtain ⟨m, hrun⟩ : ∃ m, HostCall.fdWrite.run ⟨0, fun _ => some 0⟩ lastWrite brimful =
      .ok (.suspend (.write 1 [[0]] 0xFFFFFFFC)) m :=
    of_leavesWrite (by decide +kernel)
  obtain ⟨c, hservice, h⟩ := host_imports_never_slip (s := writeSignature) (by decide) rfl
  obtain rfl : HostCall.fdWrite = c := by
    rw [hwrite] at hservice
    simpa using hservice
  obtain ⟨hcareful, -, hfinish⟩ := h ⟨0, fun _ => some 0⟩ lastWrite brimful (by decide) hsize hstrings
  exact ⟨_, m, by decide, hsize, hrun, hrun ▸ hcareful, (hfinish _ m hrun m).1⟩

end GuestHost
