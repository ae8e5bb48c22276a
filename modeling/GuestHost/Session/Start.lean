/-
  GuestHost.Session.Start — running a guest to its end, and what comes of it.

  Whatever happens in between, all streams are closed and then all of them delivered, each once, also when
  one of these steps fails (`cleanUp`). A failure of the guest counts before a failure to clean up, and a
  failure to clean up before the guest's own result (`start`).
-/

import GuestHost.Session.Imports

namespace GuestHost

/-- The status of a guest that executed an unreachable instruction, where exits become statuses. -/
def unreachableStatus : Int32 := 134

inductive Outcome where
  | returned
  | exited (code : Int32)
  | trapped (t : Trap)
  | failed (e : Failure)
  deriving DecidableEq, Repr

namespace Outcome

/-- How a failure ends a guest. Texts around an exit or a trap do not hide it. -/
def ofFailure (whole : Failure) : Failure → Outcome
  | .exit code => exited code
  | .trap t => trapped t
  | .context _ inner => ofFailure whole inner
  | _ => failed whole

def classify : Except Failure Unit → Outcome
  | .ok () => returned
  | .error e => ofFailure e e

/-- What comes of a run whose guest ended so, where `stdout` and `stderr` were still kept back. -/
def settle (o : Outcome) (returnOnExit : Bool) (stdout stderr : List UInt8) : Except Failure (Option Int32) :=
  match o with
  | returned => .ok none
  | exited code => if returnOnExit then .ok (some code) else .error (.exit code)
  | trapped t => if returnOnExit && t == .unreachable then .ok (some unreachableStatus) else .error (.guestTrapped t)
  | failed e => .error (.fatal e stdout stderr)

end Outcome

namespace Stdio

/-- Runs an action on each descriptor, also after one failed; gives the first failure. -/
def each (act : EStateM StreamError Descriptor Unit) (s : Stdio) : Except StreamError Unit × Stdio :=
  let step (d : Descriptor) : Except StreamError Unit × Descriptor :=
    match act d with
    | .ok () d => (.ok (), d)
    | .error e d => (.error e, d)
  let (a, input) := step s.input
  let (b, output) := step s.output
  let (c, error) := step s.error
  ((do a; b; c), ⟨input, output, error⟩)

/-- Closes every stream, then delivers every stream. -/
def cleanUp (s : Stdio) : Except StreamError Unit × Stdio :=
  let (closed, s) := s.each Descriptor.close
  let (delivered, s) := s.each Descriptor.postRun
  ((do closed; delivered), s)

end Stdio

namespace Session

/-- What is due on all streams before the guest runs, up to the first failure. -/
def preRun : Act Unit := do
  onStream 0 () Descriptor.preRun
  onStream 1 () Descriptor.preRun
  onStream 2 () Descriptor.preRun

/-- Runs the guest's entry point, with all that has to come before it. -/
def runGuest (g : Guest) (l : Linked) (streaming : Bool) (limits : Limits) : Act Unit := do
  if !g.exportsMemory then throw (.guestMissingExport Guest.memoryName)
  if streaming then g.bindBridge
  preRun
  if streaming then g.runBridged limits l.host
  else
    Exec.settle (g.requireExport Guest.entryName ⟨[], []⟩ (.guestMissingExport Guest.entryName))
    g.entryOf limits l.host

structure Ended where
  result : Except Failure (Option Int32)
  machine : Machine (Hosted Work Session)

/-- Runs the guest to its end and cleans up after it. -/
def start (g : Guest) (l : Linked) (streaming returnOnExit : Bool) (limits : Limits)
    (m : Machine (Hosted Work Session)) : Ended :=
  let (result, m) : Except Failure Unit × Machine (Hosted Work Session) :=
    match runGuest g l streaming limits m with
    | .ok () m => (.ok (), m)
    | .error e m => (.error e, m)
  let s := m.outer.host
  let stdout := s.stdio.output.buffered
  let stderr := s.stdio.error.buffered
  let (cleaned, stdio) := s.stdio.cleanUp
  let ended := { m with outer := { m.outer with host := { s with stdio } } }
  match (Outcome.classify result).settle returnOnExit stdout stderr, cleaned with
  | .ok _, .error e => ⟨.error (.fatal (.stream e) stdout stderr), ended⟩
  | settled, _ => ⟨settled, ended⟩

end Session

end GuestHost
