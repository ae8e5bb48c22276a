/-
  GuestHost.Program.Machine — the state of a running module, and the actions that its code is made of.

  A machine is the module's own memory, its globals and its record, together with whatever lies outside the
  module (`outer`). An action may fail and keeps the state in which it failed: a failure does not undo what
  came before it.

  The machine also lists where its code has stored. Nothing reads the list; it tells apart what the module
  did to its memory and what was done to it from outside.
-/

import GuestHost.Failure

namespace GuestHost

/-- An entry of a module's record. A look at memory that is out of bounds is recorded as `none`. -/
inductive Step where
  | note (w : UInt32)
  | dump (bs : Option (List UInt8))
  | nonzero (found : Option Bool)
  | clock (credible : Option Bool)
  | called (name : String) (result : UInt32)
  deriving DecidableEq, Repr

structure Machine (τ : Type) where
  memory : Memory
  globals : List UInt32 := List.replicate 10 0
  steps : Array Step := #[]
  /-- The ranges that the code has stored to, by address and length. -/
  stores : Array (Nat × Nat) := #[]
  outer : τ
  deriving DecidableEq

abbrev Exec (τ : Type) := EStateM Failure (Machine τ)

namespace Exec

variable {τ α : Type}

def trap (t : Trap) : Exec τ α := throw (.trap t)

/-- Stops because the module touched `n` bytes at `addr` that are not all in memory. The engine tells the
first of them that is not. -/
def fault (addr : Nat) : Exec τ α := fun m =>
  .error (.context
    ("memory fault at wasm address " ++ hex (max addr m.memory.size) ++
      " in linear memory of size " ++ hex m.memory.size)
    (.trap .memoryOutOfBounds)) m

/-- Runs an action to its end, whichever that is. -/
def attempt (x : Exec τ α) : Exec τ (Except Failure α) := fun m =>
  match x m with
  | .ok a m' => .ok (.ok a) m'
  | .error e m' => .ok (.error e) m'

def settle : Except Failure α → Exec τ α
  | .ok a => pure a
  | .error e => throw e

def loadWord (addr : UInt32) : Exec τ UInt32 := do
  let m := (← get).memory
  if m.holds addr.toNat 4 then return wordOfBytes (m.read addr.toNat 4) else fault addr.toNat

def loadByte (addr : UInt32) : Exec τ UInt32 := do
  let m := (← get).memory
  if m.holds addr.toNat 1 then return (m.byte addr.toNat).toUInt32 else fault addr.toNat

def storeBytes (addr : UInt32) (bs : List UInt8) : Exec τ Unit := do
  if (← get).memory.holds addr.toNat bs.length then
    modify fun m =>
      { m with memory := m.memory.write addr.toNat bs, stores := m.stores.push (addr.toNat, bs.length) }
  else fault addr.toNat

/-- Moves bytes within the memory, if both ranges are in it. -/
def copyBytes (dst src len : UInt32) : Exec τ Unit := do
  let m := (← get).memory
  if m.holds dst.toNat len.toNat && m.holds src.toNat len.toNat then
    modify fun s =>
      { s with
        memory := s.memory.write dst.toNat (s.memory.read src.toNat len.toNat)
        stores := s.stores.push (dst.toNat, len.toNat) }
  else trap .memoryOutOfBounds

/-- Grows the memory, if it then has no more than `limit` pages. -/
def growPages (limit : Nat) (n : UInt32) : Exec τ UInt32 := do
  let old := (← get).memory.pages
  if old + n.toNat ≤ limit then
    modify fun m => { m with memory := m.memory.grow (n.toNat * pageSize) }
    return UInt32.ofNat old
  else return 0xFFFFFFFF

def global (k : Nat) : Exec τ UInt32 := return (← get).globals.getD k 0

def setGlobal (k : Nat) (w : UInt32) : Exec τ Unit := modify fun m => { m with globals := m.globals.set k w }

def record (s : Step) : Exec τ Unit := modify fun m => { m with steps := m.steps.push s }

/-- The bytes of a range, if it is in memory. -/
def peek (addr len : UInt32) : Exec τ (Option (List UInt8)) := do
  let m := (← get).memory
  return if m.holds addr.toNat len.toNat then some (m.read addr.toNat len.toNat) else none

end Exec

end GuestHost
