/-
  GuestHost.Main — the program: the command line, the files and the standard streams as they are.

  Module files hold JSON documents. The clock is read once, and so are the random bytes, which repeat from the
  start when a guest draws more of them than were read.
-/

import GuestHost.CommandLine.Command
import Std.Time.DateTime.Timestamp

namespace GuestHost

/-- How much random is read. -/
def randomPool : Nat := 65536

/-- The turns of a loop, and the depth of calls, that a guest is given. -/
def generous : Limits := ⟨1000000000, 1000⟩

def loadModule (path : String) : IO (Except String CommandLine.ModuleFile) := do
  try
    let json := Json.parse? (← IO.FS.readFile path)
    return .ok ⟨json.bind Guest.ofJson?, json.bind FilesystemModule.ofJson?⟩
  catch e => return .error (toString e)

def observe : IO Surroundings := do
  let now := (← Std.Time.Timestamp.now).toMillisecondsSinceUnixEpoch.val.toNat
  let random ← IO.getRandomBytes (USize.ofNat randomPool)
  return ⟨now, fun i => random.data.getD (i % randomPool) 0⟩

/-- Reads the modules that a command line names, in the order in which it needs them. -/
def loadNamed (arguments : List String) : IO CommandLine.Files := do
  match CommandLine.parse arguments with
  | .error _ => return fun _ => .error "not read"
  | .ok i =>
    let paths := i.memfs.toList ++ i.guest.toList
    let found ← paths.mapM fun path => return (path, ← loadModule path)
    return fun path => (found.lookup path).getD (.error "not read")

end GuestHost

open GuestHost in
def main (arguments : List String) : IO UInt32 := do
  let files ← loadNamed arguments
  let stdin ← (← IO.getStdin).readBinToEnd
  let ending := CommandLine.perform arguments files [.bytes stdin.data.toList] (← observe) generous
  (← IO.getStdout).write ⟨ending.stdout.toArray⟩
  (← IO.getStderr).write ⟨ending.stderr.toArray⟩
  return ending.status.toUInt32
