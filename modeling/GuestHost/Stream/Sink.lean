/-
  GuestHost.Stream.Sink — the far end of an output stream: a plan of how it behaves, and the record of
  what was done to it.

  The events of a sink are all that can be seen of it. A write takes at most what the plan allows at once;
  writing everything repeats writes until all bytes are taken, and makes no call when there are none.
-/

import GuestHost.Stream.Error

namespace GuestHost

/-- What happened to a sink. A write of no bytes is one that the sink refused to take anything of. -/
inductive SinkEvent where
  | wrote (bs : List UInt8)
  | writeFailed
  | flushed
  | flushFailed
  | shutDown
  | shutDownFailed
  deriving DecidableEq, Repr

/-- How a sink behaves. Write calls are numbered from zero, failed ones included. -/
structure SinkPlan where
  /-- The most bytes that one write takes. -/
  maxWrite : Option Nat := none
  /-- The number of the write that fails. -/
  failWrite : Option Nat := none
  /-- The number of the write that takes nothing. -/
  zeroWrite : Option Nat := none
  failFlush : Bool := false
  failShutDown : Bool := false
  /-- Whether each operation has to be asked for twice. The wait shows nowhere. -/
  waits : Bool := false
  deriving DecidableEq, Repr

structure Sink where
  plan : SinkPlan
  /-- How many write calls were made. -/
  writes : Nat := 0
  events : Array SinkEvent := #[]
  deriving DecidableEq, Repr

namespace Sink

/-- One write call; gives how many of the bytes were taken. -/
def write (bs : List UInt8) : EStateM StreamError Sink Nat := fun s =>
  let counted := { s with writes := s.writes + 1 }
  if s.plan.failWrite = some s.writes then
    .error (.io "sink write failed") { counted with events := s.events.push .writeFailed }
  else if s.plan.zeroWrite = some s.writes then .ok 0 { counted with events := s.events.push (.wrote []) }
  else
    let taken := match s.plan.maxWrite with
      | none => bs
      | some most => bs.take most
    .ok taken.length { counted with events := s.events.push (.wrote taken) }

/-- Writes while there are bytes, at most `fuel` times. -/
def writeUpTo : Nat → List UInt8 → EStateM StreamError Sink Unit
  | _, [] => pure ()
  | 0, _ => pure ()
  | fuel + 1, bs => do
    match ← write bs with
    | 0 => throw (.io "write zero")
    | n => writeUpTo fuel (bs.drop n)

/-- Writes all the bytes. Each write that does not end it takes a byte, so their number is enough. -/
def writeAll (bs : List UInt8) : EStateM StreamError Sink Unit := writeUpTo bs.length bs

def flush : EStateM StreamError Sink Unit := fun s =>
  if s.plan.failFlush then .error (.io "sink flush failed") { s with events := s.events.push .flushFailed }
  else .ok () { s with events := s.events.push .flushed }

def shutDown : EStateM StreamError Sink Unit := fun s =>
  if s.plan.failShutDown then .error (.io "sink shutdown failed") { s with events := s.events.push .shutDownFailed }
  else .ok () { s with events := s.events.push .shutDown }

end Sink

end GuestHost
