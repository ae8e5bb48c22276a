/-
  GuestHost.CommandLine.Command — carrying out a command line: the modules are read, the guest is run, and
  the end of the run becomes an exit status.

  The filesystem module is read first. A guest that exits gives its own status also where the run reports
  exits as failures.
-/

import GuestHost.CommandLine.Invocation
import GuestHost.Filesystem.Document
import GuestHost.Session.Run

namespace GuestHost.CommandLine

/-- A guest in the place of a filesystem module. Its code is left out, since it has no export that gives a
place for bytes and so is refused before any of it would run. -/
def asFilesystem (g : Guest) : FilesystemModule where
  omitted := if g.exportsMemory then [] else [FilesystemModule.memoryName]
  data := g.data
  globals := g.globals
  pages := g.pages
  internals := []
  extraImports := g.imports.map fun (name, type) => (name, .function type)

/-- A filesystem module in the place of a guest. Its code is left out, since no internal import is offered to
a guest. -/
def asGuest (m : FilesystemModule) : Guest where
  data := m.data
  globals := m.globals
  pages := m.pages
  omitted := m.omitted ++ if (m.function? FilesystemModule.startName).isSome then [] else [Guest.entryName]
  extraImports := m.imports.filterMap fun
    | (name, .function type) => some (name, type)
    | (_, .other) => none

/-- What a file is as a guest and as a filesystem module, if it is a module at all. -/
structure ModuleFile where
  guest : Option Guest
  filesystem : Option FilesystemModule

namespace ModuleFile

def ofGuest (g : Option Guest) : ModuleFile := ⟨g, g.map asFilesystem⟩

def ofFilesystem (m : Option FilesystemModule) : ModuleFile := ⟨m.map asGuest, m⟩

end ModuleFile

/-- What can be found under a path: a file, or why there is none. -/
abbrev Files := String → Except String ModuleFile

inductive CommandError where
  | unreadable (path reason : String)
  | failed (e : Failure)

def CommandError.message : CommandError → String
  | unreadable path reason => "Failed to read " ++ path ++ "\n\nCaused by:\n    " ++ reason
  | failed e => e.text

def Invocation.options (i : Invocation) (stdin : Source) : Options where
  args := i.args
  env := i.env
  returnOnExit := i.returnOnExit
  seed := i.files.foldl (fun s (path, contents) => s.put path contents) { preopens := i.preopens }
  stdin := some stdin
  stdout := some {}
  stderr := some {}
  streaming := !i.noStreamStdio
  traceImports := i.traceImports

/-- The status of a run; an exit is a status. -/
def statusOf : Except Failure (Option Int32) → Except CommandError Int32
  | .ok status => .ok (status.getD 0)
  | .error (.exit code) => .ok code
  | .error e => .error (.failed e)

def readModule (files : Files) (path : String) : Except CommandError ModuleFile :=
  match files path with
  | .ok m => .ok m
  | .error reason => .error (.unreadable path reason)

def Invocation.job (i : Invocation) (files : Files) (stdin : Source) : Except CommandError Job := do
  let memfs ← readModule files (i.memfs.getD "")
  let guest ← readModule files (i.guest.getD "")
  return { filesystem := memfs.filesystem, guest := guest.guest, options := i.options stdin }

/-- What a command brings: its status, or why it has none, and the bytes that it wrote. -/
structure Outcome where
  status : Except CommandError Int32
  stdout : List UInt8 := []
  stderr : List UInt8 := []

def bytesWritten (events : List SinkEvent) : List UInt8 :=
  events.flatMap fun
    | .wrote bs => bs
    | _ => []

def Invocation.run (i : Invocation) (files : Files) (stdin : Source) (around : Surroundings) (limits : Limits) :
    Outcome :=
  match i.job files stdin with
  | .error e => ⟨.error e, [], []⟩
  | .ok job =>
    let report := job.performAtOnce around limits
    ⟨statusOf report.result, bytesWritten report.stdout, bytesWritten report.stderr⟩

def Refusal.status : Refusal → UInt8
  | help => 0
  | _ => 2

def usageText : String :=
  "Usage: run [OPTIONS] --memfs <MEMFS> <GUEST>\n\nOptions:\n" ++
    "      --memfs <MEMFS>       Path to the filesystem module\n" ++
    "      --arg <ARGS>          Argument passed to the guest (repeatable; the first is argv[0])\n" ++
    "      --env <ENV>           Environment variable as KEY=VALUE (repeatable)\n" ++
    "      --preopen <PREOPENS>  Preopened directory (repeatable)\n" ++
    "      --file <FILES>        Initial file as PATH=CONTENTS (repeatable)\n" ++
    "      --no-stream-stdio     Buffer stdio instead of streaming it (for guests without asyncify)\n" ++
    "      --return-on-exit      Report proc_exit as the exit status instead of an error\n" ++
    "      --trace-imports       Log every WASI import call\n" ++
    "  -h, --help                Print help\n"

structure Ending where
  status : UInt8
  stdout : List UInt8
  stderr : List UInt8

def Refusal.ending (r : Refusal) : Ending :=
  match r.line? with
  | none => ⟨r.status, utf8 usageText, []⟩
  | some line => ⟨r.status, [], utf8 (line ++ "\n\n" ++ usageText)⟩

/-- What is left of an outcome. Of a status the lowest byte counts. -/
def Outcome.ending (o : Outcome) : Ending :=
  match o.status with
  | .ok code => ⟨code.toUInt32.toUInt8, o.stdout, o.stderr⟩
  | .error e => ⟨1, o.stdout, o.stderr ++ utf8 ("Error: " ++ e.message ++ "\n")⟩

def perform (arguments : List String) (files : Files) (stdin : Source) (around : Surroundings) (limits : Limits) :
    Ending :=
  match parse arguments with
  | .error r => r.ending
  | .ok i => (i.run files stdin around limits).ending

end GuestHost.CommandLine
