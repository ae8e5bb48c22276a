/-
  GuestHost.Guest — guest modules: what they export and import, and how their code is run.

  A plain guest's entry point runs its body once. An instrumented guest keeps its suspension state in one
  global and the number of its next top-level statement in another: its entry point goes over the
  statements, runs the one whose turn it is, and returns as soon as an unwind has begun. So a statement that
  was suspended is run again when the guest is entered again, those before it are not, and a guest that has
  finished does nothing more.
-/

import GuestHost.Abi.Signature
import GuestHost.Asyncify.Bridge
import GuestHost.Program.Eval

namespace GuestHost

/-- The bodies of an instrumented guest's controls. The usual ones set the state global to what the control
says. -/
structure ControlBodies where
  startUnwind : Stmt := .setGlobal stateGlobal (.lit 1)
  stopUnwind : Stmt := .setGlobal stateGlobal (.lit 0)
  startRewind : Stmt := .setGlobal stateGlobal (.lit 2)
  stopRewind : Stmt := .setGlobal stateGlobal (.lit 0)
  getState : Stmt := .skip
  getStateResult : Expr := .globalVar stateGlobal

structure Guest where
  /-- The top-level statements of the entry point. -/
  body : List Stmt := []
  data : List (UInt32 × List UInt8) := []
  globals : List UInt32 := []
  pages : Nat := 1
  maxPages : Option Nat := none
  instrumented : Bool := false
  /-- Exports that the module lacks. -/
  omitted : List String := []
  /-- Exports of functions that take a long word instead of their own parameters. -/
  mistyped : List String := []
  /-- Imports that are declared and not called. -/
  extraImports : List (ImportName × FuncType) := []
  controls : ControlBodies := {}
  /-- Whether the guest returns when an unwind has begun. -/
  obeysUnwind : Bool := true
  /-- Whether call statements are recorded. -/
  recordsCalls : Bool := true

/-- How long code may run: the turns of a loop, and how deep imports and controls may call each other. -/
structure Limits where
  turns : Nat
  depth : Nat

/-- The global that numbers the next top-level statement of an instrumented guest. -/
def progressGlobal : Nat := 9

/-- The namespace of the imports that a host offers for exercising a bridge. -/
def hostNamespace : String := "host"

structure Host (κ η : Type) where
  /-- The type of an import that is offered. -/
  offers : ImportName → Option FuncType
  /-- What an import does, given the guest's controls. -/
  answer : Controls (Hosted κ η) → ImportName → List Value → Exec (Hosted κ η) (List Value)
  /-- Finishes the work of a suspended import. -/
  complete : κ → Exec (Hosted κ η) UInt32

/-- The globals at the start: those given, and zeros up to ten. -/
def initialGlobals (given : List UInt32) : List UInt32 := (given ++ List.replicate 10 0).take 10

/-- Writes initial data in order; fails with a trap at the first that does not fit. -/
def applyData : List (UInt32 × List UInt8) → Memory → Except Failure Memory
  | [], m => .ok m
  | (addr, bs) :: rest, m =>
    if m.holds addr.toNat bs.length then applyData rest (m.write addr.toNat bs)
    else .error (.trap .memoryOutOfBounds)

namespace Guest

def entryName : String := "_start"

def memoryName : String := "memory"

/-- The exported functions with the types that they should have. -/
def functions (g : Guest) : List (String × FuncType) :=
  (entryName, ⟨[], []⟩) ::
    if g.instrumented then
      [("asyncify_start_unwind", ⟨[.i32], []⟩), ("asyncify_stop_unwind", ⟨[], []⟩),
        ("asyncify_start_rewind", ⟨[.i32], []⟩), ("asyncify_stop_rewind", ⟨[], []⟩),
        ("asyncify_get_state", ⟨[], [.i32]⟩)]
    else []

/-- The exports that the bridge needs, in the order in which it looks for them. -/
def bridgeExports : List (String × FuncType) := ({ instrumented := true } : Guest).functions

def exportType? (g : Guest) (name : String) : Option FuncType :=
  if name ∈ g.omitted then none
  else (g.functions.lookup name).map fun t => if name ∈ g.mistyped then { t with params := [.i64] } else t

def exportsMemory (g : Guest) : Bool := memoryName ∉ g.omitted

/-- The type at which a guest calls an import. -/
def callType (target : ImportName) : FuncType :=
  if target.space == previewNamespace then ((Signature.find? target.name).map Signature.funcType).getD ⟨[], []⟩
  else ⟨[.i32], [.i32]⟩

def targets (g : Guest) : List ImportName :=
  List.eraseDups <| g.body.flatMap Stmt.targets ++
    if g.instrumented then
      g.controls.startUnwind.targets ++ g.controls.stopUnwind.targets ++ g.controls.startRewind.targets ++
        g.controls.stopRewind.targets ++ g.controls.getState.targets ++ g.controls.getStateResult.targets
    else []

def imports (g : Guest) : List (ImportName × FuncType) :=
  (g.targets.map fun target => (target, callType target)) ++ g.extraImports

def mostPages (g : Guest) : Nat := min (g.maxPages.getD pageLimit) pageLimit

def wellFormed (g : Guest) : Bool := g.pages ≤ g.mostPages && g.maxPages.getD 0 ≤ pageLimit

/-- The module as it starts out: every import has to be offered at its own type, and the data to fit. -/
def instantiate {κ η τ : Type} (g : Guest) (host : Host κ η) (outer : τ) : Except Failure (Machine τ) := do
  match g.imports.find? fun (name, type) => host.offers name ≠ some type with
  | some (name, _) => throw (.engine ("unknown or incompatible import: " ++ name.space ++ "::" ++ name.name))
  | none =>
    let memory ← applyData g.data (Memory.zeroed (g.pages * pageSize))
    return { memory, globals := initialGlobals g.globals, outer }

/-! ## Running -/

variable {κ η τ : Type}

/-- What the guest's code is run with, where imports do as `call` says. -/
def setting (g : Guest) (limits : Limits) (obeys : Bool) (call : ImportName → List Value → Exec τ (List Value)) :
    Setting τ where
  call
  typeOf := callType
  maxPages := g.mostPages
  maxPages_le := Nat.min_le_right ..
  memoryShown := g.exportsMemory
  recordsCalls := g.recordsCalls
  obeysUnwind := obeys
  fuel := limits.turns

def controlsWith (g : Guest) (limits : Limits) (call : ImportName → List Value → Exec τ (List Value)) : Controls τ :=
  let s := g.setting limits false call
  { startUnwind := fun addr => do let _ ← g.controls.startUnwind.run s [.i32 addr]
    stopUnwind := do let _ ← g.controls.stopUnwind.run s []
    startRewind := fun addr => do let _ ← g.controls.startRewind.run s [.i32 addr]
    stopRewind := do let _ ← g.controls.stopRewind.run s []
    getState := do
      let locals ← g.controls.getState.run s []
      g.controls.getStateResult.eval s [] locals }

/-- What an import does when the guest calls it. The controls that the bridge calls in turn may call imports
themselves; the engine's stack bounds how deep that goes. -/
def callImport (g : Guest) (limits : Limits) (host : Host κ η) :
    Nat → ImportName → List Value → Exec (Hosted κ η) (List Value)
  | 0 => fun _ _ => Exec.trap .stackExhausted
  | depth + 1 => host.answer (g.controlsWith limits (callImport g limits host depth))

def controlsOf (g : Guest) (limits : Limits) (host : Host κ η) : Controls (Hosted κ η) :=
  g.controlsWith limits (g.callImport limits host limits.depth)

/-- Runs the top-level statements of an instrumented guest from number `i` on. -/
def runStatements (s : Setting τ) : Nat → List Stmt → List UInt32 → Exec τ Unit
  | _, [], _ => pure ()
  | i, stmt :: rest, locals => do
    if (← Exec.global progressGlobal) = UInt32.ofNat i then
      match ← stmt.exec s [] locals with
      | (.leave, _) => return
      | (.next, locals) =>
        if s.obeysUnwind && (← Exec.global stateGlobal) == unwindingWord then return
        else
          Exec.setGlobal progressGlobal (UInt32.ofNat (i + 1))
          runStatements s (i + 1) rest locals
    else runStatements s (i + 1) rest locals

/-- The entry point, where imports do as `call` says. -/
def entryWith (g : Guest) (limits : Limits) (call : ImportName → List Value → Exec τ (List Value)) : Exec τ Unit :=
  if g.instrumented then runStatements (g.setting limits g.obeysUnwind call) 0 g.body freshLocals
  else do let _ ← (Stmt.ofList g.body).run (g.setting limits false call) []

def entryOf (g : Guest) (limits : Limits) (host : Host κ η) : Exec (Hosted κ η) Unit :=
  g.entryWith limits (g.callImport limits host limits.depth)

/-- Finds an exported function of the given type. -/
def requireExport (g : Guest) (name : String) (type : FuncType) (missing : Failure) : Except Failure Unit :=
  match g.exportType? name with
  | none => .error missing
  | some t => if t = type then .ok () else .error (.engine ("type mismatch with parameters of export " ++ name))

/-- Binds the bridge to the guest: looks for all exports that it needs and prepares the memory. -/
def bindBridge (g : Guest) : Exec (Hosted κ η) Unit := do
  bridgeExports.forM fun (name, type) =>
    Exec.settle (g.requireExport name type (.bridge (.missingExport name)))
  if g.exportsMemory then Bridge.bind else throw (.bridge (.missingExport memoryName))

/-- Runs the guest's entry point under the bridge, suspensions included. -/
def runBridged (g : Guest) (limits : Limits) (host : Host κ η) : Exec (Hosted κ η) Unit :=
  Bridge.callEntrypoint (g.controlsOf limits host) (g.entryOf limits host) host.complete limits.turns

end Guest

end GuestHost
