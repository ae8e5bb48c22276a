/-
  GuestHost.Failure — every way in which a run can fail, and what is told of it.

  A failure may be wrapped: `context` puts a text around it that is shown instead, and `carried` marks one
  that came up inside the filesystem module's own life or as the result of a run, which is told as it is but
  no longer counts as the guest's exit or trap (`Outcome.classify`).
-/

import GuestHost.Abi.Marshal
import GuestHost.Stream.Error
import GuestHost.Text.Lossy

namespace GuestHost

inductive Trap where
  | unreachable
  | memoryOutOfBounds
  | divisionByZero
  | overflow
  | stackExhausted
  deriving DecidableEq, Repr

def Trap.message : Trap → String
  | unreachable => "wasm trap: wasm \x60unreachable\x60 instruction executed"
  | memoryOutOfBounds => "wasm trap: out of bounds memory access"
  | divisionByZero => "wasm trap: integer divide by zero"
  | overflow => "wasm trap: integer overflow"
  | stackExhausted => "wasm trap: call stack exhausted"

def hex (n : Nat) : String := "0x" ++ String.ofList (Nat.toDigits 16 n)

def MarshalError.message : MarshalError → String
  | outOfBounds addr len size =>
    "Out of bounds: " ++ toString len ++ " bytes at " ++ hex addr ++ " (memory is " ++ toString size ++ " bytes)"
  | argument index expected => "Argument " ++ toString index ++ " is not an " ++ expected.name

inductive BridgeError where
  | missingExport (name : String)
  | uninitialized
  | invalidState (raw : Int32)
  /-- An import was called while an unwind was in flight. -/
  | reentered
  /-- A rewind came to an import, or to its end, and the value to return was not there or left over. -/
  | noSavedValue
  /-- The guest unwound, and no import had suspended it. -/
  | noSuspension
  deriving DecidableEq, Repr

def BridgeError.message : BridgeError → String
  | missingExport name => "Missing asyncify export: " ++ name
  | uninitialized => "Asyncify used before init"
  | invalidState raw => "Invalid async state " ++ toString raw.toInt ++ ", expected 0"
  | reentered => "Import entered while an unwind is in flight"
  | noSavedValue => "Rewind reached an import with no saved result"
  | noSuspension => "Guest unwound without a suspended import"

inductive FilesystemError where
  | missingExport (name : String)
  /-- The module reported an error of its own. -/
  | trace (text : String)
  | guestMemoryUnbound
  | scratchInUse
  /-- The module answered its seeding with a code other than success. -/
  | seeding (errno : Int32)
  deriving DecidableEq, Repr

def FilesystemError.message : FilesystemError → String
  | missingExport name => "Filesystem module does not export " ++ name
  | trace text => "Filesystem trace: " ++ text
  | guestMemoryUnbound => "Guest memory not bound to the filesystem bridge"
  | scratchInUse => "Scratch buffer already in use"
  | seeding errno => "Filesystem initialization failed with errno " ++ toString errno.toInt

inductive Failure where
  /-- The guest asked to exit. -/
  | exit (code : Int32)
  | trap (t : Trap)
  | marshal (e : MarshalError)
  | stream (e : StreamError)
  | bridge (e : BridgeError)
  | filesystem (e : FilesystemError)
  /-- The guest lacks an export that it cannot run without. -/
  | guestMissingExport (name : String)
  /-- A host call before the guest's memory is known. A guest runs only when it has its memory, so no call fails
  like this. -/
  | guestMemoryUnbound
  /-- An import could not be registered. -/
  | registration (text : String)
  /-- The host was asked for bytes outside a module's memory. -/
  | memoryAccess
  /-- The engine refused something: a module, an import, a type. -/
  | engine (text : String)
  /-- The failure of a handler that was put in to fail. -/
  | boom
  /-- A loop took more turns than it was given. -/
  | outOfFuel
  | context (text : String) (inner : Failure)
  | carried (inner : Failure)
  /-- The guest of a run trapped. -/
  | guestTrapped (t : Trap)
  /-- A run failed; with the output that was still kept back then. -/
  | fatal (source : Failure) (stdout stderr : List UInt8)
  deriving DecidableEq, Repr

/-- The output that a fatal failure shows below its source, if there is any. -/
def diagnostics (stdout stderr : List UInt8) : String :=
  if stdout.isEmpty && stderr.isEmpty then ""
  else "\n\nstdout:\n" ++ lossyText stdout ++ "\n\nstderr:\n" ++ lossyText stderr

namespace Failure

def text : Failure → String
  | exit code => "proc_exit=" ++ toString code.toInt
  | trap t => t.message
  | marshal e => e.message
  | stream e => e.message
  | bridge e => e.message
  | filesystem e => e.message
  | guestMissingExport name => "Guest does not export " ++ name
  | guestMemoryUnbound => "Guest memory is not bound"
  | registration text => "Function registration failed: " ++ text
  | memoryAccess => "out of bounds memory access"
  | engine text => text
  | boom => "boom"
  | outOfFuel => "loop did not end"
  | context text _ => text
  | carried inner => inner.text
  | guestTrapped t => "Guest trapped: " ++ t.message
  | fatal source stdout stderr => source.text ++ diagnostics stdout stderr

/-- The failure without the texts around it. -/
def cause : Failure → Failure
  | context _ inner => inner.cause
  | carried inner => inner.cause
  | e => e

end Failure

end GuestHost
