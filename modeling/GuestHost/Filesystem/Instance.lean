/-
  GuestHost.Filesystem.Instance — a running filesystem module: bringing it up, staging bytes in it, and
  calling its exports.

  There is one place for bytes from outside. It is taken for the length of one action and given back on
  every path; while it is taken, taking it again is refused and touches nothing (`withScratch`).
-/

import GuestHost.Filesystem.Linkage
import GuestHost.Filesystem.Seed
import GuestHost.Guest

namespace GuestHost

/-- A filesystem module with what its code is run with: the time in milliseconds and the turns of a loop. -/
structure Filesystem where
  module : FilesystemModule
  now : Nat
  turns : Nat

namespace Filesystem

variable (fs : Filesystem)

def setting : Setting Linkage := fs.module.setting fs.now fs.turns

def function (name : String) : Except Failure Function :=
  match fs.module.function? name with
  | some f => .ok f
  | none => .error (.filesystem (.missingExport name))

/-- The exported function of a name, which has to be of the given type. -/
def typed (name : String) (type : FuncType) : Except Failure Function := do
  let f ← fs.function name
  if f.type = type then return f else throw (.engine ("type mismatch with parameters of export " ++ name))

/-- Calls an exported function with arguments of any number and types, for exactly `count` results. -/
def callChecked (f : Function) (args : List Value) (count : Nat) : FilesystemAct (List Value) := do
  if f.type.params.length ≠ args.length then
    throw (.engine ("expected " ++ toString f.type.params.length ++ " arguments, got " ++ toString args.length))
  else if f.type.results.length ≠ count then
    throw (.engine ("expected " ++ toString f.type.results.length ++ " results, got " ++ toString count))
  else if typesMatch f.type.params args then f.invoke fs.setting args
  else throw (.engine "argument type mismatch")

/-- Calls the export of a name with the arguments of a guest's call, and gives its word. A result that is
not a word counts as zero. -/
def forward (name : String) (args : List Value) : FilesystemAct UInt32 := do
  let f ← Exec.settle (fs.function name)
  match ← fs.callChecked f args 1 with
  | [.i32 w] => return w
  | _ => return 0

def callTyped (name : String) (type : FuncType) (args : List Value) : FilesystemAct UInt32 := do
  let f ← Exec.settle (fs.typed name type)
  return resultWord (← f.invoke fs.setting args)

/-! ## Staging -/

/-- Puts bytes at the address that the module gives for them. -/
def stage (bs : List UInt8) : FilesystemAct UInt32 := do
  let ptr ← fs.callTyped FilesystemModule.allocName ⟨[.i32], [.i32]⟩ [.i32 (UInt32.ofNat bs.length)]
  let m ← get
  if m.memory.holds ptr.toNat bs.length then
    set { m with memory := m.memory.write ptr.toNat bs }
    return ptr
  else throw .memoryAccess

/-- Marks the place for bytes from outside as taken or free. -/
def setScratch (live : Bool) : FilesystemAct Unit :=
  modify fun m => { m with outer := { m.outer with scratchLive := live } }

/-- Stages bytes while an action runs, which gets their address and their number. The place is given back
on every path. The failure of the action, or of the staging, counts before that of giving the place back. -/
def withScratch {α : Type} (bs : List UInt8) (act : UInt32 → UInt32 → FilesystemAct α) : FilesystemAct α := do
  if (← get).outer.scratchLive then throw (.filesystem .scratchInUse)
  else
    setScratch true
    let result ← Exec.attempt (do
      let ptr ← fs.stage bs
      act ptr (UInt32.ofNat bs.length))
    setScratch false
    let freed ← Exec.attempt (fs.callTyped FilesystemModule.freeName ⟨[], []⟩ [])
    let value ← Exec.settle result
    let _ ← Exec.settle freed
    return value

/-! ## Bringing up -/

def blank (outer : Linkage) : Machine Linkage :=
  { memory := Memory.zeroed (fs.module.pages * pageSize), globals := initialGlobals fs.module.globals, outer }

def seed (s : Seed) : FilesystemAct Unit := do
  let type : FuncType := ⟨[.i32, .i32], [.i32]⟩
  let _ ← Exec.settle (fs.typed FilesystemModule.seedName type)
  let errno ← fs.withScratch s.payload fun ptr len =>
    fs.callTyped FilesystemModule.seedName type [.i32 ptr, .i32 len]
  if errno != Errno.success.raw then throw (.filesystem (.seeding errno.toInt32))

/-- Instantiates the module: its imports are linked, its data written, and its start section run. -/
def instantiate : FilesystemAct Unit := do
  Exec.settle fs.module.link
  let m ← get
  let memory ← Exec.settle (applyData fs.module.data m.memory)
  set { m with memory }
  let _ ← fs.module.startSection.run fs.setting []

/-- Instantiates the module, attaches its memory, runs its entry point and seeds it. -/
def bringUp (s : Seed) : FilesystemAct Unit := do
  fs.instantiate
  if !fs.module.exportsMemory then throw (.filesystem (.missingExport FilesystemModule.memoryName))
  modify fun m => { m with outer := { m.outer with attached := true } }
  let _ ← Exec.settle (fs.typed FilesystemModule.allocName ⟨[.i32], [.i32]⟩)
  let _ ← Exec.settle (fs.typed FilesystemModule.freeName ⟨[], []⟩)
  let _ ← fs.callTyped FilesystemModule.startName ⟨[], []⟩ []
  fs.seed s

end Filesystem

end GuestHost
