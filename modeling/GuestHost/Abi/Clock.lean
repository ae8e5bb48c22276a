/-
  GuestHost.Abi.Clock — clock identifiers. Every clock is served from the same time source, in whole
  milliseconds.
-/

namespace GuestHost

inductive Clock where
  | realtime
  | monotonic
  | processCputime
  | threadCputime
  deriving DecidableEq, Repr

namespace Clock

def ofRaw? : UInt32 → Option Clock
  | 0 => some realtime
  | 1 => some monotonic
  | 2 => some processCputime
  | 3 => some threadCputime
  | _ => none

def name : Clock → String
  | realtime => "Realtime"
  | monotonic => "Monotonic"
  | processCputime => "ProcessCputime"
  | threadCputime => "ThreadCputime"

/-- The resolution of every clock, in nanoseconds. -/
def resolution : UInt64 := 1000000

/-- A time in milliseconds as nanoseconds, at most the largest 64-bit number. -/
def nanoseconds (milliseconds : Nat) : UInt64 := UInt64.ofNat (min (milliseconds * 1000000) (UInt64.size - 1))

end Clock

end GuestHost
