/-
  GuestHost.Filesystem.Practice — a filesystem module on its own, beside one page of guest memory.

  Each operation is answered also if one before it failed.
-/

import GuestHost.Filesystem.Instance

namespace GuestHost.Filesystem

/-- What is done while bytes are staged. -/
inductive Errand where
  | nothing
  /-- Calls an export with the address and the number of the bytes. -/
  | call (name : String)
  | fail
  /-- Stages bytes a second time. -/
  | nested
  /-- Stages bytes a second time, and takes the failure for its result. -/
  | caught

inductive Errand.Result where
  | nothing
  | values (vs : List Value)
  | refused (e : Failure)

inductive Operation where
  | call (name : String) (args : List Int)
  | find (name : String)
  | peek (addr len : UInt32)
  | guest (addr len : UInt32)
  | poke (addr : UInt32) (bs : List UInt8)
  | bind
  | scratch (bs : List UInt8) (errand : Errand)

inductive Answer where
  | done
  | yes
  /-- The range is not in memory. -/
  | outside
  | values (vs : List Value)
  | bytes (bs : List UInt8)
  | staged (ptr len : UInt32) (result : Errand.Result)

/-- Arguments for the given parameters; one that is missing is zero. -/
def argsFor : List ValType → List Int → List Value
  | [], _ => []
  | types, [] => types.map Value.zero
  | .i64 :: types, n :: ns => .i64 (UInt64.ofInt n) :: argsFor types ns
  | t :: types, n :: ns => Value.ofWord t (UInt32.ofInt n) :: argsFor types ns

variable (fs : Filesystem)

/-- Calls an export with as many of the arguments as it takes. -/
def callWith (name : String) (args : List Int) : FilesystemAct (List Value) := do
  let f ← Exec.settle (fs.function name)
  f.invoke fs.setting (argsFor f.type.params args)

def peekByte (addr : UInt32) : FilesystemAct UInt8 := do
  return (resultWord (← fs.callWith FilesystemModule.peekName [signed addr])).toUInt8

def run (errand : Errand) (ptr len : UInt32) : FilesystemAct Errand.Result :=
  match errand with
  | .nothing => pure .nothing
  | .call name => do return .values (← fs.callWith name [signed ptr, signed len])
  | .fail => throw .boom
  | .nested => do
    fs.withScratch [0] fun _ _ => pure ()
    return .nothing
  | .caught => do
    match ← Exec.attempt (fs.withScratch [0] fun _ _ => pure ()) with
    | .ok () => return .nothing
    | .error e => return .refused e

def perform : Operation → FilesystemAct Answer
  | .call name args => do return .values (← fs.callWith name args)
  | .find name => do
    let _ ← Exec.settle (fs.function name)
    return .yes
  | .peek addr len => do
    let reach := min len.toNat ((← get).memory.size + 1)
    let bs ← (List.range reach).mapM fun i => fs.peekByte (addr + UInt32.ofNat i)
    return .bytes bs
  | .guest addr len => do
    let guest := (← get).outer.guest
    return if guest.holds addr.toNat len.toNat then .bytes (guest.read addr.toNat len.toNat) else .outside
  | .poke addr bs => do
    let m ← get
    if m.outer.guest.holds addr.toNat bs.length then
      set { m with outer := { m.outer with guest := m.outer.guest.write addr.toNat bs } }
      return .yes
    else return .outside
  | .bind => do
    modify fun m => { m with outer := { m.outer with guestBound := true } }
    return .done
  | .scratch bs errand => fs.withScratch bs fun ptr len => do return .staged ptr len (← fs.run errand ptr len)

def performAll (ops : List Operation) : FilesystemAct (List (Except Failure Answer)) :=
  ops.mapM fun op => Exec.attempt (fs.perform op)

/-- What can be seen: the answers, or why the module did not come up; and the module's reports. -/
structure Report where
  result : Except Failure (List (Except Failure Answer))
  messages : Array String

/-- Brings the module up beside one page of guest memory, which may be bound before, and performs the
operations. -/
def practise (s : Seed) (bound : Bool) (ops : List Operation) : Report :=
  let start := fs.blank { guest := Memory.zeroed pageSize, guestBound := bound }
  match (do fs.bringUp s; fs.performAll ops : FilesystemAct (List (Except Failure Answer))) start with
  | .ok answers m => ⟨.ok answers, m.outer.messages⟩
  | .error e m => ⟨.error e, m.outer.messages⟩

end GuestHost.Filesystem
