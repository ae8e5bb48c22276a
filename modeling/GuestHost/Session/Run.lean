/-
  GuestHost.Session.Run — a whole run, from the modules to the end of the guest, in stages.

  The stages follow one another, and the first that fails ends the run. What the filesystem module reported
  before a failure stays in the log.
-/

import GuestHost.Session.Start

namespace GuestHost

inductive Stage where
  /-- The filesystem module is taken. -/
  | runtime
  /-- The guest module is taken. -/
  | load
  /-- The session is set up and the filesystem module brought up. -/
  | wasi
  /-- The import table is filled. -/
  | link
  | instantiate
  | start
  /-- The last four in one. -/
  | run
  deriving DecidableEq, Repr

def Stage.name : Stage → String
  | runtime => "runtime"
  | load => "load"
  | wasi => "wasi"
  | link => "link"
  | instantiate => "instantiate"
  | start => "start"
  | run => "run"

/-- What is to be run. A module is absent if its file is none. -/
structure Job where
  filesystem : Option FilesystemModule
  guest : Option Guest
  options : Options := {}
  /-- Imports to be put in place of others, in this order. -/
  overrides : List Entry := []
  /-- Whether the import table is filled a second time. -/
  linkTwice : Bool := false

structure Report where
  stage : Stage
  result : Except Failure (Option Int32)
  steps : Array Step := #[]
  stdout : List SinkEvent := []
  stderr : List SinkEvent := []
  log : Array LogLine := #[]
  /-- The session's arguments and environment, once it is set up. -/
  state : Option (List String × List String) := none

namespace Session

def blank (o : Options) (fs : Filesystem) : Session where
  args := o.args
  env := o.rendered
  stdio := o.stdio
  filesystem := fs.blank {}

/-- Brings the filesystem module up; the session is there also if that fails. -/
def setUp (o : Options) (fs : Filesystem) : Except Failure Unit × Session :=
  let s := blank o fs
  match fs.bringUp o.seed s.filesystem with
  | .ok () f => (.ok (), { s with filesystem := f }.takeReports)
  | .error e f => (.error e, { s with filesystem := f }.takeReports)

def fillTable (j : Job) (m : FilesystemModule) : Except Failure ImportTable := do
  let install := ImportTable.install m j.options.streaming j.options.traceImports
  let once ← install []
  let table ← if j.linkTwice then install once else .ok once
  return j.overrides.foldl ImportTable.replace table

end Session

namespace Report

/-- The report of a run that failed at a stage, with the session as it then was. -/
def failedAt (stage : Stage) (e : Failure) (s : Session) (setUp : Bool) : Report where
  stage
  result := .error e
  stdout := s.stdio.output.events
  stderr := s.stdio.error.events
  log := s.log
  state := if setUp then some (s.args, s.env) else none

end Report

namespace Job

/-- A failure to instantiate the guest is the engine's, whatever it was. -/
def engineFailure (e : Failure) : Failure := .engine ("WASM error: " ++ e.text)

/-- Sets a session up, links, instantiates and starts the guest. -/
def runModules (j : Job) (m : FilesystemModule) (g : Guest) (around : Surroundings) (limits : Limits) : Report :=
  let fs : Filesystem := ⟨m, around.now, limits.turns⟩
  match Session.setUp j.options fs with
  | (.error e, s) => Report.failedAt .wasi e s false
  | (.ok (), s) =>
    match Session.fillTable j m with
    | .error e => Report.failedAt .link e s true
    | .ok table =>
      let l : Linked := ⟨table, fs, around⟩
      match g.instantiate l.host ({ host := s } : Hosted Work Session) with
      | .error e => Report.failedAt .instantiate (engineFailure e) s true
      | .ok machine =>
        let ended := Session.start g l j.options.streaming j.options.returnOnExit limits machine
        let last := ended.machine.outer.host
        { stage := .start
          result := ended.result
          steps := ended.machine.steps
          stdout := last.stdio.output.events
          stderr := last.stdio.error.events
          log := last.log
          state := some (s.args, s.env) }

def perform (j : Job) (around : Surroundings) (limits : Limits) : Report :=
  match j.filesystem, j.guest with
  | none, _ => ⟨.runtime, .error (engineFailure (.engine "not a module")), #[], [], [], #[], none⟩
  | some _, none => ⟨.load, .error (engineFailure (.engine "not a module")), #[], [], [], #[], none⟩
  | some m, some g => j.runModules m g around limits

/-- Runs a job with its last four stages in one, which shows nothing of the session in between. -/
def performAtOnce (j : Job) (around : Surroundings) (limits : Limits) : Report :=
  let plain := { j with overrides := [], linkTwice := false }
  match plain.perform around limits with
  | r => if r.stage = .runtime ∨ r.stage = .load then r else { r with stage := .run, state := none }

end Job

end GuestHost
