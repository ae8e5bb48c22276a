/-
  GuestHost.Session.Calls — the imports that the host answers itself.

  A pointer that does not fit makes a call answer with a fault; what it had already stored stays. So do the random
  bytes that were given before their source failed. A call fails, instead of answering, when an argument is of the
  wrong type, a stream fails, or the guest exits.

  No call has to ask whether there is a memory. A guest that exports none is refused before it runs
  (`Session.runGuest`), and it has no code that would run earlier.
-/

import GuestHost.Abi.Clock
import GuestHost.Session.State

namespace GuestHost

/-- An import that the host answers itself. -/
inductive HostCall where
  | argsGet
  | argsSizesGet
  | environGet
  | environSizesGet
  | clockResGet
  | clockTimeGet
  | fdRead
  | fdWrite
  | procExit
  | randomGet
  | schedYield
  /-- Polling, signals and sockets. -/
  | unsupported
  deriving DecidableEq, Repr

namespace Strings

def terminated (s : String) : List UInt8 := utf8 s ++ [0]

/-- Lays strings out from `next` on, each with its end mark, and the address of each in the array at
`slot`. -/
def layOut : List String → UInt32 → UInt32 → Marshal Unit
  | [], _, _ => pure ()
  | s :: rest, slot, next => do
    Memory.writeWord slot next
    let len := UInt32.ofNat (utf8 s).length + 1
    Memory.store next len (terminated s)
    layOut rest (slot + 4) (next + len)

def totalSize (strings : List String) : UInt32 :=
  strings.foldl (fun total s => addCount total (UInt32.ofNat (utf8 s).length + 1).toNat) 0

def sizes (strings : List String) (count size : UInt32) : Marshal Unit := do
  Memory.writeWord count (UInt32.ofNat strings.length)
  Memory.writeWord size (totalSize strings)

end Strings

/-- Places the bytes of a read in the buffers and stores their number. -/
def placeRead (buffers : List IoVec) (bs : List UInt8) (result : UInt32) : Marshal Unit := do
  let n ← Memory.scatter buffers bs
  Memory.writeWord result (UInt32.ofNat n)

/-- The same with runs of bytes. -/
def placeRuns (buffers : List IoVec) (rs : Runs) (result : UInt32) : Marshal Unit := do
  let n ← Memory.scatterRuns buffers rs
  Memory.writeWord result (UInt32.ofNat n)

theorem placeRuns_eq_placeRead (buffers : List IoVec) (rs : Runs) (result : UInt32) :
    placeRuns buffers rs result = placeRead buffers rs.bytes result := by
  rw [placeRuns, placeRead, Memory.scatterRuns_eq_scatter]

namespace HostCall

def ofName? : String → Option HostCall
  | "args_get" => some argsGet
  | "args_sizes_get" => some argsSizesGet
  | "environ_get" => some environGet
  | "environ_sizes_get" => some environSizesGet
  | "clock_res_get" => some clockResGet
  | "clock_time_get" => some clockTimeGet
  | "proc_exit" => some procExit
  | "random_get" => some randomGet
  | "sched_yield" => some schedYield
  | "poll_oneoff" | "proc_raise" | "sock_recv" | "sock_send" | "sock_shutdown" => some unsupported
  | _ => none

def word (args : List Value) (i : Nat) : Act UInt32 :=
  match wordArg args i with
  | .ok w => pure w
  | .error e => throw (.marshal e)

def answer (e : Errno) : Act (Reply Work) := return .ready e.raw

/-- Writes to the guest's memory, and tells how that went. -/
def marshal (act : Marshal Unit) : Act Errno := fun m =>
  match act m.memory with
  | .ok () memory => .ok .success { m with memory }
  | .error e memory => .ok e.errno { m with memory }

/-- Draws random bytes: as many as are asked for, or those before the first that their source does not give. -/
def draw (around : Surroundings) (n : Nat) : Act (List UInt8) := fun m =>
  let s := m.outer.host
  let given := ((List.range n).map fun i => around.random (s.drawn + i)).takeWhile Option.isSome
  .ok (given.filterMap id) { m with outer := { m.outer with host := { s with drawn := s.drawn + n } } }

/-- Reads from a standard descriptor into the buffers that an array lists. -/
def readStream (args : List Value) : Act (Reply Work) := do
  let fd := (← word args 0).toNat
  let array ← word args 1
  let count ← word args 2
  let result ← word args 3
  match (← get).memory.readIoVecs array count with
  | .error e => answer e.errno
  | .ok buffers =>
    if 3 ≤ fd then answer .badf
    else
      match ← Session.onStream fd (.ready []) (Descriptor.readvRuns (buffers.map IoVec.len)) with
      | .ready rs => do answer (← marshal (placeRuns buffers rs result))
      | .pending lens => return .suspend (.read fd lens buffers result)

/-- What comes of a read does not depend on the runs that it is done with, but on their bytes. -/
theorem readStream_eq (args : List Value) : readStream args = (do
    let fd := (← word args 0).toNat
    let array ← word args 1
    let count ← word args 2
    let result ← word args 3
    match (← get).memory.readIoVecs array count with
    | .error e => answer e.errno
    | .ok buffers =>
      if 3 ≤ fd then answer .badf
      else
        match ← Session.onStream fd (.ready []) (Descriptor.readv (buffers.map IoVec.len)) with
        | .ready bs => do answer (← marshal (placeRead buffers bs result))
        | .pending lens => return .suspend (.read fd lens buffers result)) := by
  unfold readStream
  refine bind_congr fun fd => bind_congr fun array => bind_congr fun count => bind_congr fun result => ?_
  refine bind_congr fun m => ?_
  cases m.memory.readIoVecs array count with
  | error e => rfl
  | ok buffers =>
    let lens := buffers.map IoVec.len
    have hread : Session.onStream fd.toNat (.ready []) (Descriptor.readv lens) =
        Transfer.map Runs.bytes <$> Session.onStream fd.toNat (.ready []) (Descriptor.readvRuns lens) := by
      rw [Descriptor.readv_eq_readvRuns]
      exact Session.onStream_map fd.toNat (.ready []) (Transfer.map Runs.bytes) _
    dsimp only
    rw [hread, bind_map_left]
    refine ite_congr rfl (fun _ => rfl) fun _ => bind_congr fun t => ?_
    cases t with
    | ready rs => simp only [Transfer.map, placeRuns_eq_placeRead]
    | pending lens => rfl

/-- Writes the buffers that an array lists to a standard descriptor. -/
def writeStream (args : List Value) : Act (Reply Work) := do
  let fd := (← word args 0).toNat
  let array ← word args 1
  let count ← word args 2
  let result ← word args 3
  let memory := (← get).memory
  match memory.readIoVecs array count with
  | .error e => answer e.errno
  | .ok buffers =>
    match memory.gather buffers with
    | .error e => answer e.errno
    | .ok views =>
      if 3 ≤ fd then answer .badf
      else
        Session.mark (.offered fd views)
        match ← Session.onStream fd (.ready 0) (Descriptor.writev views) with
        | .ready n => do answer (← marshal (Memory.writeWord result n))
        | .pending chunks => return .suspend (.write fd chunks result)

def run (around : Surroundings) (c : HostCall) (args : List Value) : Act (Reply Work) :=
  match c with
  | argsGet => do
    let slots ← word args 0
    let buffer ← word args 1
    answer (← marshal (Strings.layOut (← get).outer.host.args slots buffer))
  | argsSizesGet => do
    let count ← word args 0
    let size ← word args 1
    answer (← marshal (Strings.sizes (← get).outer.host.args count size))
  | environGet => do
    let slots ← word args 0
    let buffer ← word args 1
    answer (← marshal (Strings.layOut (← get).outer.host.env slots buffer))
  | environSizesGet => do
    let count ← word args 0
    let size ← word args 1
    answer (← marshal (Strings.sizes (← get).outer.host.env count size))
  | clockResGet => do
    let id ← word args 0
    let result ← word args 1
    match Clock.ofRaw? id with
    | none => answer .inval
    | some _ => do answer (← marshal (Memory.writeLong result Clock.resolution))
  | clockTimeGet => do
    let id ← word args 0
    let result ← word args 2
    match Clock.ofRaw? id with
    | none => answer .inval
    | some _ => do answer (← marshal (Memory.writeLong result (Clock.nanoseconds around.now)))
  | fdRead => readStream args
  | fdWrite => writeStream args
  | procExit => do
    let code := (← word args 0).toInt32
    Session.mark (.exiting code { (← get) with outer := () })
    throw (.exit code)
  | randomGet => do
    let buffer ← word args 0
    let len ← word args 1
    match (← get).memory.slice buffer len with
    | .error e => answer e.errno
    | .ok _ => do
      let drawn ← draw around len.toNat
      let stored ← marshal (Memory.store buffer len drawn)
      answer (if drawn.length < len.toNat then .io else stored)
  | schedYield => answer .success
  | unsupported => answer .noSys

end HostCall

def Work.finish : Work → Act UInt32
  | .read fd lens buffers result => do
    let bs ← Session.onStream fd [] (Descriptor.finishRead lens)
    return (← HostCall.marshal (placeRead buffers bs result)).raw
  | .write fd chunks result => do
    let n ← Session.onStream fd 0 (Descriptor.finishWrite chunks)
    return (← HostCall.marshal (Memory.writeWord result n)).raw
  | .value w => pure w

end GuestHost
