/-
  GuestHost.Filesystem.Module — filesystem modules: a second module beside the guest, with a memory of its
  own, that answers the descriptor and path imports.

  `standard` is a small module of this kind. It keeps one file, which writing replaces.
-/

import GuestHost.Abi.Signature
import GuestHost.Program.Code

namespace GuestHost

/-- The namespace of the imports that a filesystem module has from its host. -/
def internalNamespace : String := "internal"

inductive ImportKind where
  | function (type : FuncType)
  | other
  deriving DecidableEq, Repr

/-- The internal imports with their usual types. -/
def internalImports : List (String × FuncType) :=
  [("now_ms", ⟨[], [.i64]⟩), ("trace", ⟨[.i32, .i32, .i32], []⟩), ("copy_in", ⟨[.i32, .i32, .i32], []⟩),
    ("copy_out", ⟨[.i32, .i32, .i32], []⟩)]

structure FilesystemModule where
  /-- The exported functions, each under one name. -/
  functions : List (String × Function) := []
  /-- Exports that the module lacks. -/
  omitted : List String := []
  data : List (UInt32 × List UInt8) := []
  globals : List UInt32 := []
  pages : Nat := 1
  /-- The internal imports that the module declares. -/
  internals : List String := internalImports.map Prod.fst
  /-- The types at which the internal imports are declared, where they are not the usual ones. -/
  internalTypes : List (String × FuncType) := []
  /-- Preview1 imports that are declared at types of their own. -/
  previewTypes : List (String × FuncType) := []
  /-- Imports that are declared and not called. -/
  extraImports : List (ImportName × ImportKind) := []
  /-- What runs while the module is instantiated. -/
  startSection : Stmt := .skip

namespace FilesystemModule

/-- The name of the entry point, which runs before the module is seeded. -/
def startName : String := "_start"

/-- The export that gives a place for bytes from outside. -/
def allocName : String := "tmp_alloc"

/-- The export that takes such a place back. -/
def freeName : String := "tmp_free"

def seedName : String := "initialize_internal"

/-- The export that gives a byte of the module's memory. -/
def peekName : String := "peek"

def memoryName : String := "memory"

/-- The module with a function exported under a name, in place of one that it has there. -/
def define (m : FilesystemModule) (name : String) (f : Function) : FilesystemModule :=
  if m.functions.any (·.1 == name) then
    { m with functions := m.functions.map fun old => if old.1 == name then (name, f) else old }
  else { m with functions := m.functions ++ [(name, f)] }

def function? (m : FilesystemModule) (name : String) : Option Function :=
  if name ∈ m.omitted then none else m.functions.lookup name

def exportsMemory (m : FilesystemModule) : Bool := memoryName ∉ m.omitted

def importType (m : FilesystemModule) (target : ImportName) : FuncType :=
  if target.space == internalNamespace then
    ((m.internalTypes.lookup target.name).or (internalImports.lookup target.name)).getD ⟨[], []⟩
  else
    ((m.previewTypes.lookup target.name).or ((Signature.find? target.name).map Signature.funcType)).getD ⟨[], []⟩

/-- The preview1 imports that the module's code calls or that it declares, each once. -/
def previewImports (m : FilesystemModule) : List String :=
  let targets := m.startSection.targets ++ m.functions.flatMap fun f => f.2.targets
  let called := targets.filter (·.space == previewNamespace)
  (m.previewTypes.map Prod.fst ++ called.map (·.name)).eraseDups

def imports (m : FilesystemModule) : List (ImportName × ImportKind) :=
  let declared (name : ImportName) : ImportName × ImportKind := (name, .function (m.importType name))
  m.internals.map (fun name => declared ⟨internalNamespace, name⟩) ++
    m.previewImports.map (fun name => declared ⟨previewNamespace, name⟩) ++ m.extraImports

/-! ## The standard module -/

/-- The function of a preview1 import, with the import's type. -/
def answering (name : String) (body : List Stmt) (code : Int) : String × Function :=
  (name, ⟨((Signature.find? name).map Signature.funcType).getD ⟨[], [.i32]⟩, Stmt.ofList body, .lit code⟩)

def internalCall (name : String) (args : List Expr) : Stmt := .drop (.call ⟨internalNamespace, name⟩ args)

/-- The function by which a module shows its memory, byte by byte. -/
def peeking : String × Function := (peekName, ⟨⟨[.i32], [.i32]⟩, .skip, .loadByte (.param 0)⟩)

/-- The functions of the standard module that do something. -/
def standardFunctions : List (String × Function) :=
  [(startName, ⟨⟨[], []⟩, internalCall "now_ms" [], .lit 0⟩),
    (allocName, ⟨⟨[.i32], [.i32]⟩,
      .ofList [.setLocal 0 (.globalVar 0), .setGlobal 0 (.binary .add (.globalVar 0) (.param 0))], .localVar 0⟩),
    (freeName, ⟨⟨[], []⟩, .setGlobal 0 (.lit 32768), .lit 0⟩),
    (seedName, ⟨⟨[.i32, .i32], [.i32]⟩,
      .ofList [.copy (.lit 4096) (.param 0) (.param 1), .setGlobal 1 (.param 1)], .lit 0⟩),
    answering "fd_write"
      [internalCall "copy_in" [.param 1, .lit 64, .lit 8],
        internalCall "copy_in" [.load (.lit 64), .lit 4096, .load (.lit 68)],
        .setGlobal 1 (.load (.lit 68)), .store (.lit 100) (.globalVar 1),
        internalCall "copy_out" [.lit 100, .param 3, .lit 4]] 0,
    answering "fd_read"
      [internalCall "copy_in" [.param 1, .lit 64, .lit 8], .setLocal 0 (.load (.lit 68)),
        .ifElse (.binary .gt (.localVar 0) (.globalVar 1)) (.setLocal 0 (.globalVar 1)) .skip,
        internalCall "copy_out" [.lit 4096, .load (.lit 64), .localVar 0],
        .store (.lit 100) (.localVar 0), internalCall "copy_out" [.lit 100, .param 3, .lit 4]] 0,
    answering "fd_fdstat_get"
      [.store (.lit 100) (.binary .add (.param 0) (.lit 100)),
        internalCall "copy_out" [.lit 100, .param 1, .lit 4]] 0,
    answering "fd_close" [internalCall "trace" [.lit 1, .lit 0, .lit 4]] 0,
    answering "fd_sync" [internalCall "trace" [.lit 0, .lit 0, .lit 4]] 0,
    answering "fd_prestat_get" [] 8, peeking]

/-- A module that can only be looked into. -/
def empty : FilesystemModule := { functions := [peeking] }

/-- The standard module. Imports of the filesystem that it has no function for are not supported. -/
def standard : FilesystemModule :=
  let others := (Signature.table.filter fun s => s.route = .filesystem && (standardFunctions.lookup s.name).isNone).map
    fun s => answering s.name [] 52
  { functions := standardFunctions ++ others
    data := [(0, [0x62, 0x6f, 0x6f, 0x6d])]
    globals := [32768, 0] }

end FilesystemModule

end GuestHost
