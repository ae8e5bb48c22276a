/-
  GuestHost.Asyncify.Practice — a small host on which a guest can practise being suspended.

  Its imports take a word and give a word: `now` answers at once, `later` suspends and doubles the word,
  and the others fail at one point each. `nested` makes a suspended import inside an import, which the
  bridge refuses to do twice.
-/

import GuestHost.Guest

namespace GuestHost.Practice

inductive Chore where
  | later (x : UInt32)
  | resumeFail (x : UInt32)
  | fail
  deriving DecidableEq, Repr

abbrev Log := Array (String × UInt32)

abbrev Act := Exec (Hosted Chore Log)

def log (name : String) (w : UInt32) : Act Unit :=
  modify fun m => { m with outer := { m.outer with host := m.outer.host.push (name, w) } }

def names : List String := ["now", "later", "resume_fail", "fail", "refuse", "nested"]

def handler (controls : Controls (Hosted Chore Log)) (name : String) (x : UInt32) : Act (Reply Chore) :=
  match name with
  | "now" => do
    log "now" x
    return .ready x
  | "later" => return .suspend (.later x)
  | "resume_fail" => return .suspend (.resumeFail x)
  | "fail" => return .suspend .fail
  | "nested" => do
    let v ← Bridge.wrapImport controls (return .suspend (.later x))
    log "nested" v
    return .suspend (.later x)
  | _ => throw .boom

def complete : Chore → Act UInt32
  | .later x => do
    log "later" x
    return 2 * x
  | .resumeFail x => do
    log "resume_fail" x
    throw .boom
  | .fail => throw .boom

def host : Host Chore Log where
  offers target := if target.space = hostNamespace ∧ target.name ∈ names then some ⟨[.i32], [.i32]⟩ else none
  answer controls target args := do
    match wordArg args 0 with
    | .ok x => return [.i32 (← Bridge.wrapImport controls (handler controls target.name x))]
    | .error e => throw (.marshal e)
  complete

structure Exercise where
  guest : Guest
  /-- Whether the bridge is bound first. -/
  bound : Bool := true
  /-- Whether the entry point is called without the driver. -/
  direct : Bool := false
  /-- How often the driver runs the guest. -/
  runs : Nat := 1

def Exercise.act (x : Exercise) (limits : Limits) : Act Unit := do
  if x.bound then x.guest.bindBridge
  if x.direct then
    Exec.settle (x.guest.requireExport Guest.entryName ⟨[], []⟩ (.engine "failed to find function export"))
    x.guest.entryOf limits host
  else (List.replicate x.runs ()).forM fun _ => x.guest.runBridged limits host

structure Report where
  result : Except Failure Unit
  steps : Array Step := #[]
  log : Log := #[]

def Exercise.perform (x : Exercise) (limits : Limits) : Report :=
  match x.guest.instantiate host ({ host := #[] } : Hosted Chore Log) with
  | .error e => { result := .error e }
  | .ok m =>
    match x.act limits m with
    | .ok _ m => { result := .ok (), steps := m.steps, log := m.outer.host }
    | .error e m => { result := .error e, steps := m.steps, log := m.outer.host }

end GuestHost.Practice
