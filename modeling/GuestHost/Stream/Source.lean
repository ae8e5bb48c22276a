/-
  GuestHost.Stream.Source — the far end of an input stream, as the script of what it delivers.

  Each poll takes the next item of the script. A delivery of no bytes is an end of stream for the read that
  meets it, though items may follow; after the last item the stream has ended for good. A wait is passed
  over, so it never shows in a result (`read_wait`, `drain_wait`).
-/

import GuestHost.Runs
import GuestHost.Stream.Error

namespace GuestHost

/-- One item of a source's script. -/
inductive Delivery where
  | bytes (bs : List UInt8)
  /-- Bytes that are not laid out. -/
  | runs (rs : Runs)
  | wait
  | failure (text : String)
  deriving DecidableEq, Repr

abbrev Source := List Delivery

namespace Source

/-- One read into a buffer of `capacity` bytes. What does not fit stays for the next read. -/
def read (capacity : Nat) : Source → EStateM.Result StreamError Source (List UInt8)
  | [] => .ok [] []
  | .wait :: rest => read capacity rest
  | .failure text :: rest => .error (.io text) rest
  | .bytes bs :: rest =>
    if bs.length ≤ capacity then .ok bs rest else .ok (bs.take capacity) (.bytes (bs.drop capacity) :: rest)
  | .runs rs :: rest =>
    if rs.size ≤ capacity then .ok rs.bytes rest
    else .ok (rs.takeBytes capacity).bytes (.runs (rs.dropBytes capacity) :: rest)

/-- Reads until a read brings nothing, and gives all that was read. -/
def drain : Source → EStateM.Result StreamError Source Runs
  | [] => .ok [] []
  | .wait :: rest => drain rest
  | .failure text :: rest => .error (.io text) rest
  | .bytes [] :: rest => .ok [] rest
  | .bytes bs :: rest =>
    match drain rest with
    | .ok more left => .ok (⟨bs, 1⟩ :: more) left
    | .error e left => .error e left
  | .runs rs :: rest =>
    if rs.size = 0 then .ok [] rest
    else
      match drain rest with
      | .ok more left => .ok (rs ++ more) left
      | .error e left => .error e left

@[simp] theorem read_wait (capacity : Nat) (s : Source) : read capacity (.wait :: s) = read capacity s := rfl

@[simp] theorem drain_wait (s : Source) : drain (.wait :: s) = drain s := rfl

end Source

end GuestHost
