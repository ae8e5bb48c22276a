/-
  GuestHost.Asyncify.Bridge — suspending a guest while the host works.

  A guest that can be suspended exports five controls over a state of its own. An import that has to wait
  stores the host's work in the bridge (`Phase.unwinding`) and starts an unwind; the guest then returns all
  the way out of its entry point. The driver stops the unwind, finishes the work, keeps the resulting value
  (`Phase.rewinding`), starts a rewind and enters the guest again. The guest replays its calls down to the
  import, which this time ends the rewind and returns the value instead of working again.

      normal ──import suspends──▶ unwinding ──work finished──▶ rewinding ──import reached──▶ normal

  There is one place for work and value together, so at most one suspension is outstanding. The guest's
  state is the guest's own: it may say anything of it, and each disagreement with the phase is an error.

  The journal lists what the bridge and its driver did, in order. Nothing reads it.
-/

import GuestHost.Program.Machine

namespace GuestHost

def unwindDataStart : UInt32 := 16

def unwindDataEnd : UInt32 := 1024

/-- The header of the unwind data: the bounds of the place where the stack is saved. -/
def unwindHeader : List UInt8 := wordBytes (unwindDataStart + 8) ++ wordBytes unwindDataEnd

/-- What a guest says of its own suspension. -/
inductive GuestState where
  | normal
  | unwinding
  | rewinding
  deriving DecidableEq, Repr

def GuestState.ofWord (w : UInt32) : Except BridgeError GuestState :=
  match w with
  | 0 => .ok normal
  | 1 => .ok unwinding
  | 2 => .ok rewinding
  | _ => .error (.invalidState w.toInt32)

/-- What the bridge holds: nothing, work that the driver is to finish, or a value that an import is to
return. -/
inductive Phase (κ : Type) where
  | normal
  | unwinding (work : κ)
  | rewinding (value : UInt32)
  deriving DecidableEq, Repr

inductive Milestone (κ : Type) where
  /-- The driver called the guest's entry point. -/
  | entered
  /-- The entry point returned to the driver. -/
  | left
  /-- An import was called: the guest's state and the phase at that moment. -/
  | consulted (state : GuestState) (phase : Phase κ)
  /-- The handler of an import began. -/
  | handled
  /-- An import's work was stored. -/
  | accepted (work : κ)
  /-- The driver began to finish stored work. -/
  | awaited (work : κ)
  /-- The driver finished it. -/
  | completed (value : UInt32)
  /-- An import returned the value. -/
  | returned (value : UInt32)
  deriving DecidableEq, Repr

/-- A guest's bridge. It is bound once the guest's controls are known. -/
structure Bridge (κ : Type) where
  bound : Bool := false
  phase : Phase κ := .normal
  journal : Array (Milestone κ) := #[]

/-- The world outside a guest: its bridge, and the host behind it. -/
structure Hosted (κ η : Type) where
  bridge : Bridge κ := {}
  host : η

/-- What an import's handler gives: a value, or work to be finished while the guest is suspended. -/
inductive Reply (κ : Type) where
  | ready (value : UInt32)
  | suspend (work : κ)

/-- The value of a reply where nothing can be suspended. -/
def Reply.intoReady {κ : Type} : Reply κ → Except Failure UInt32
  | ready value => .ok value
  | suspend _ => .error (.bridge .uninitialized)

structure Controls (τ : Type) where
  startUnwind : UInt32 → Exec τ Unit
  stopUnwind : Exec τ Unit
  startRewind : UInt32 → Exec τ Unit
  stopRewind : Exec τ Unit
  getState : Exec τ UInt32

def Controls.state {τ : Type} (c : Controls τ) : Exec τ GuestState := do
  match GuestState.ofWord (← c.getState) with
  | .ok s => return s
  | .error e => throw (.bridge e)

/-- Fails unless the guest gives the normal state. -/
def Controls.expectNormal {τ : Type} (c : Controls τ) : Exec τ Unit := do
  match ← c.state with
  | .normal => return
  | .unwinding => throw (.bridge (.invalidState 1))
  | .rewinding => throw (.bridge (.invalidState 2))

namespace Bridge

variable {κ η : Type}

def getPhase : Exec (Hosted κ η) (Phase κ) := return (← get).outer.bridge.phase

def setPhase (phase : Phase κ) : Exec (Hosted κ η) Unit :=
  modify fun m => { m with outer := { m.outer with bridge := { m.outer.bridge with phase } } }

def takePhase : Exec (Hosted κ η) (Phase κ) := do
  let phase ← getPhase
  setPhase .normal
  return phase

def log (event : Milestone κ) : Exec (Hosted κ η) Unit :=
  modify fun m =>
    { m with outer := { m.outer with bridge := { m.outer.bridge with journal := m.outer.bridge.journal.push event } } }

def requireBound : Exec (Hosted κ η) Unit := do
  if (← get).outer.bridge.bound then return else throw (.bridge .uninitialized)

/-- Binds the bridge: writes the header of the unwind data and forgets any phase. -/
def bind : Exec (Hosted κ η) Unit := do
  let m ← get
  if m.memory.holds unwindDataStart.toNat unwindHeader.length then
    set { m with
      memory := m.memory.write unwindDataStart.toNat unwindHeader
      outer := { m.outer with bridge := { m.outer.bridge with bound := true, phase := .normal } } }
  else throw .memoryAccess

/-- Runs an import under the bridge. While the guest rewinds, the import does not work again but returns the
stored value; an import that suspends starts an unwind and returns a placeholder, which the guest discards. -/
def wrapImport (controls : Controls (Hosted κ η)) (handler : Exec (Hosted κ η) (Reply κ)) :
    Exec (Hosted κ η) UInt32 := do
  requireBound
  let state ← controls.state
  log (.consulted state (← getPhase))
  match state with
  | .rewinding =>
    controls.stopRewind
    match ← takePhase with
    | .rewinding value =>
      log (.returned value)
      return value
    | _ => throw (.bridge .noSavedValue)
  | .unwinding => throw (.bridge .reentered)
  | .normal =>
    log .handled
    match ← handler with
    | .ready value => return value
    | .suspend work =>
      match ← getPhase with
      | .normal =>
        setPhase (.unwinding work)
        log (.accepted work)
        controls.startUnwind unwindDataStart
        return 0
      | _ => throw (.bridge .reentered)

/-- Drives the unwinds and rewinds of a guest that has returned from its entry point, at most `fuel` of
them, until it really has returned. -/
def drive (controls : Controls (Hosted κ η)) (entry : Exec (Hosted κ η) Unit)
    (complete : κ → Exec (Hosted κ η) UInt32) (fuel : Nat) : Exec (Hosted κ η) Unit := do
  match ← controls.state with
  | .unwinding =>
    match fuel with
    | 0 => throw .outOfFuel
    | fuel + 1 =>
      controls.stopUnwind
      match ← takePhase with
      | .unwinding work =>
        log (.awaited work)
        let value ← complete work
        log (.completed value)
        setPhase (.rewinding value)
        controls.expectNormal
        controls.startRewind unwindDataStart
        log .entered
        entry
        log .left
        drive controls entry complete fuel
      | _ => throw (.bridge .noSuspension)
  | _ => return

/-- Calls a guest's entry point and drives its suspensions until it has returned. -/
def callEntrypoint (controls : Controls (Hosted κ η)) (entry : Exec (Hosted κ η) Unit)
    (complete : κ → Exec (Hosted κ η) UInt32) (fuel : Nat) : Exec (Hosted κ η) Unit := do
  requireBound
  controls.expectNormal
  log .entered
  entry
  log .left
  drive controls entry complete fuel
  controls.expectNormal
  match ← getPhase with
  | .rewinding _ => throw (.bridge .noSavedValue)
  | _ => return

end Bridge

end GuestHost
