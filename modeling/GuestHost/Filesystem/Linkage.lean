/-
  GuestHost.Filesystem.Linkage — what a filesystem module's imports do.

  A forwarded call's arguments point into the guest's memory, which the module cannot reach; it moves bytes
  across with `copy_in` and `copy_out`. A copy moves all its bytes or none. Of the preview1 imports the
  module has stubs only: it cannot reach the guest's arguments, streams or suspension.

  The host fills the result slots of each import. A slot that it leaves empty, or fills at another type than
  the declared one, is refused (`fillSlots`).
-/

import GuestHost.Filesystem.Module
import GuestHost.Program.Eval

namespace GuestHost

/-- A move of bytes between the two memories: the bytes, and where they were put. -/
inductive Crossing where
  /-- Into the module's memory. -/
  | inward (dst : Nat) (bs : List UInt8)
  /-- Into the guest's memory. -/
  | outward (dst : Nat) (bs : List UInt8)
  deriving DecidableEq, Repr

structure Linkage where
  /-- The guest's memory. -/
  guest : Memory := default
  /-- Whether the guest's memory is bound. -/
  guestBound : Bool := false
  /-- Whether the module's own memory is known to its host. -/
  attached : Bool := false
  /-- Whether a place for bytes from outside is in use. -/
  scratchLive : Bool := false
  /-- What the module reported that is no error. -/
  messages : Array String := #[]
  /-- The moves between the memories, in order. Nothing reads them. -/
  crossings : Array Crossing := #[]
  deriving DecidableEq

abbrev FilesystemAct := Exec Linkage

namespace Linkage

/-- The values that leave an import, where `filled` are the slots that the host filled. -/
def fillSlots (results : List ValType) (filled : List Value) : FilesystemAct (List Value) :=
  if typesMatch results filled then pure filled
  else throw (.engine "function attempted to return an incompatible value")

def zeros (results : List ValType) : List Value := results.map Value.zero

/-- A time in milliseconds, in the first slot only. -/
def timeSlots (now : Nat) : List ValType → List Value
  | [] => []
  | .i64 :: _ => [.i64 (UInt64.ofNat now)]
  | .f64 :: _ => [.f64 (Float.ofNat now).toBits]
  | _ :: _ => [.i32 (UInt32.ofNat now)]

/-- The code "not supported" in the first slot, zeros in the others. -/
def unsupportedSlots : List ValType → List Value
  | [] => []
  | _ :: rest => .i32 Errno.noSys.raw :: zeros rest

def word (args : List Value) (i : Nat) : FilesystemAct UInt32 :=
  match wordArg args i with
  | .ok w => pure w
  | .error e => throw (.marshal e)

/-- Bytes of a memory, if the range is in it. -/
def bytesOf (m : Memory) (addr len : UInt32) : FilesystemAct (List UInt8) :=
  if m.holds addr.toNat len.toNat then pure (m.read addr.toNat len.toNat) else throw .memoryAccess

def requireMemories : FilesystemAct Unit := do
  let l := (← get).outer
  if !l.guestBound then throw (.filesystem .guestMemoryUnbound)
  else if !l.attached then throw (.filesystem (.missingExport FilesystemModule.memoryName))

/-- Takes a report of the module: an error ends the call, anything else is kept. -/
def trace (args : List Value) : FilesystemAct Unit := do
  let isError ← word args 0
  let addr ← word args 1
  let len ← word args 2
  let m ← get
  if !m.outer.attached then throw (.filesystem (.missingExport FilesystemModule.memoryName))
  let text := lossyText (← bytesOf m.memory addr len)
  if isError != 0 then throw (.filesystem (.trace text))
  else set { m with outer := { m.outer with messages := m.outer.messages.push text } }

/-- Moves bytes from the guest's memory into the module's. -/
def copyIn (args : List Value) : FilesystemAct Unit := do
  requireMemories
  let src ← word args 0
  let dst ← word args 1
  let len ← word args 2
  let m ← get
  let bs ← bytesOf m.outer.guest src len
  if m.memory.holds dst.toNat len.toNat then
    set { m with
      memory := m.memory.write dst.toNat bs
      outer := { m.outer with crossings := m.outer.crossings.push (.inward dst.toNat bs) } }
  else throw .memoryAccess

/-- Moves bytes from the module's memory into the guest's. -/
def copyOut (args : List Value) : FilesystemAct Unit := do
  requireMemories
  let src ← word args 0
  let dst ← word args 1
  let len ← word args 2
  let m ← get
  let bs ← bytesOf m.memory src len
  if m.outer.guest.holds dst.toNat len.toNat then
    set { m with
      outer := { m.outer with
        guest := m.outer.guest.write dst.toNat bs
        crossings := m.outer.crossings.push (.outward dst.toNat bs) } }
  else throw .memoryAccess

def call (now : Nat) (target : ImportName) (results : List ValType) (args : List Value) :
    FilesystemAct (List Value) := do
  if target.space = internalNamespace then
    match target.name with
    | "now_ms" => fillSlots results (timeSlots now results)
    | "trace" =>
      trace args
      fillSlots results (zeros results)
    | "copy_in" =>
      copyIn args
      fillSlots results (zeros results)
    | "copy_out" =>
      copyOut args
      fillSlots results (zeros results)
    | _ => throw (.engine "unknown import")
  else if target.name = "proc_exit" then fillSlots results []
  else fillSlots results (unsupportedSlots results)

end Linkage

namespace FilesystemModule

/-- Whether the host defines an import of this name and kind. -/
def defined (target : ImportName) (kind : ImportKind) : Bool :=
  kind != .other &&
    (target.space == previewNamespace ||
      (target.space == internalNamespace && (internalImports.lookup target.name).isSome))

/-- Links the module: the host defines each import that it knows, once, and all have to be defined. -/
def link (m : FilesystemModule) : Except Failure Unit :=
  let known := (m.imports.filter fun (target, kind) => defined target kind).map Prod.fst
  if known.eraseDups.length ≠ known.length then .error (.engine "import defined twice")
  else if m.imports.all fun (target, kind) => defined target kind then .ok ()
  else .error (.engine "unknown import")

/-- What the module's code is run with, where the time is `now` in milliseconds. -/
def setting (m : FilesystemModule) (now turns : Nat) : Setting Linkage where
  call target args := Linkage.call now target (m.importType target).results args
  typeOf := m.importType
  maxPages := pageLimit
  maxPages_le := Nat.le_refl _
  memoryShown := false
  recordsCalls := false
  obeysUnwind := false
  fuel := turns

end FilesystemModule

end GuestHost
