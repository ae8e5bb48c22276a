/-
  GuestHost.Session.Imports — the import table of a session: who answers each import, and how.

  All imports go through one wrapper. It runs the call under the suspension bridge, or directly if the table
  says so, and then traces it. A call on the standard descriptors 0, 1 and 2 is answered by the host; every
  other read and write, and every import of the filesystem, goes to the filesystem module's export of the
  same name with its arguments untouched.
-/

import GuestHost.Session.Calls

namespace GuestHost

inductive Scripted where
  | ready (value : UInt32)
  | suspend (value : UInt32)
  | fail
  deriving DecidableEq, Repr

inductive Service where
  /-- The host. -/
  | host (c : HostCall)
  /-- The filesystem module. -/
  | filesystem
  /-- The host for the standard descriptors, the filesystem module for the others. -/
  | byDescriptor (c : HostCall)
  | scripted (s : Scripted)
  deriving DecidableEq, Repr

structure Entry where
  signature : Signature
  service : Service
  /-- Whether calls run under the suspension bridge. -/
  bridged : Bool
  /-- Whether calls are traced. -/
  traced : Bool
  deriving DecidableEq, Repr

/-- The first descriptor that is not a standard one. -/
def firstFilesystemDescriptor : UInt32 := 3

/-- An import table: each name once, in the order in which the imports were put in. -/
abbrev ImportTable := List Entry

namespace ImportTable

def find? (t : ImportTable) (name : String) : Option Entry := List.find? (fun e => e.signature.name == name) t

/-- The table with a new import; a name can be put in only once. -/
def define (t : ImportTable) (e : Entry) : Except Failure ImportTable :=
  if (t.find? e.signature.name).isSome then
    .error (.registration (e.signature.name ++ ": import of \x60" ++ previewNamespace ++ "::" ++ e.signature.name ++
      "\x60 defined twice"))
  else .ok (t ++ [e])

/-- The table with an import in place of the one of its name. -/
def replace (t : ImportTable) (e : Entry) : ImportTable :=
  if (t.find? e.signature.name).isSome then
    t.map fun old => if old.signature.name == e.signature.name then e else old
  else t ++ [e]

def serviceOf (s : Signature) : Option Service :=
  if s.name = "fd_read" then some (.byDescriptor .fdRead)
  else if s.name = "fd_write" then some (.byDescriptor .fdWrite)
  else
    match s.route with
    | .filesystem => some .filesystem
    | .host => (HostCall.ofName? s.name).map .host

def Service.needsExport : Service → Bool
  | .filesystem | .byDescriptor _ => true
  | _ => false

def installOne (fs : FilesystemModule) (bridged traced : Bool) (t : ImportTable) (s : Signature) :
    Except Failure ImportTable :=
  match serviceOf s with
  | none => .error (.registration (s.name ++ ": no handler"))
  | some service =>
    if Service.needsExport service && (fs.function? s.name).isNone then
      .error (.filesystem (.missingExport s.name))
    else t.define ⟨s, service, bridged, traced⟩

/-- Puts the whole surface into the table, in its order. -/
def install (fs : FilesystemModule) (bridged traced : Bool) (t : ImportTable) : Except Failure ImportTable :=
  Signature.table.foldlM (installOne fs bridged traced) t

end ImportTable

structure Linked where
  table : ImportTable
  filesystem : Filesystem
  around : Surroundings

namespace Linked

def forward (l : Linked) (name : String) (args : List Value) : Act (Reply Work) := do
  return .ready (← Session.onFilesystem (l.filesystem.forward name args))

def handle (l : Linked) (e : Entry) (args : List Value) : Act (Reply Work) := do
  Session.mark (.handled e.signature.name args)
  match e.service with
  | .host c => c.run l.around args
  | .filesystem => l.forward e.signature.name args
  | .byDescriptor c =>
    if (← HostCall.word args 0) < firstFilesystemDescriptor then c.run l.around args
    else l.forward e.signature.name args
  | .scripted (.ready w) => pure (.ready w)
  | .scripted (.suspend w) => pure (.suspend (.value w))
  | .scripted .fail => throw .boom

def traceLine (name : String) (args : List Value) (outcome : Except Failure UInt32) : LogLine :=
  let shown := match outcome with
    | .ok w => toString (signed w)
    | .error e => "Error(" ++ e.text ++ ")"
  .call (name ++ "(" ++ ", ".intercalate (args.map Value.traceText) ++ ") = " ++ shown)

/-- Runs a call to its value: under the bridge, or directly, where nothing can be suspended. -/
def value (l : Linked) (controls : Controls (Hosted Work Session)) (e : Entry) (args : List Value) : Act UInt32 :=
  if e.bridged then Bridge.wrapImport controls (l.handle e args)
  else do Exec.settle (← l.handle e args).intoReady

def call (l : Linked) (controls : Controls (Hosted Work Session)) (e : Entry) (args : List Value) :
    Act (List Value) := do
  let outcome ← Exec.attempt (l.value controls e args)
  if e.traced then Session.write (traceLine e.signature.name args outcome)
  let w ← Exec.settle outcome
  return if e.signature.result then [.i32 w] else []

def host (l : Linked) : Host Work Session where
  offers target :=
    if target.space = previewNamespace then (l.table.find? target.name).map fun e => e.signature.funcType else none
  answer controls target args :=
    match l.table.find? target.name with
    | some e => l.call controls e args
    | none => throw (.engine "unknown import")
  complete := Work.finish

end Linked

end GuestHost
