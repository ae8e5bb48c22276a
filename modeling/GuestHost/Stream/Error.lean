/-
  GuestHost.Stream.Error — how an operation on a stream fails.
-/

namespace GuestHost

inductive Direction where
  | read
  | write
  deriving DecidableEq, Repr

inductive StreamError where
  /-- A stream was asked to move bytes in the direction that it does not serve. -/
  | wrongDirection (asked : Direction)
  /-- The stream was closed before. -/
  | closed
  /-- The bytes could not be moved. -/
  | io (text : String)
  deriving DecidableEq, Repr

def StreamError.message : StreamError → String
  | wrongDirection .read => "Attempting to call read on a writable stream"
  | wrongDirection .write => "Attempting to call write on a readable stream"
  | closed => "Stream already closed"
  | io text => "Stream I/O failed: " ++ text

end GuestHost
