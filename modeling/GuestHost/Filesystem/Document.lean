/-
  GuestHost.Filesystem.Document — filesystem modules written down as JSON documents.

  A document says how a module differs from the standard one, or from one with nothing in it. A module may
  instead be given by its text, of which only the empty module is understood.
-/

import GuestHost.Guest.Document

namespace GuestHost

/-- The function that a document is, under a name. The parts of its type that are not given are those of
the preview1 import of that name; a result that is given by a value alone is one word. -/
def functionOfJson? (name : String) (j : Json) : Option Function := do
  let usual : FuncType := ((Signature.find? name).map Signature.funcType).getD ⟨[], []⟩
  let params ← match j.field? "params" with
    | some types => types.types?
    | none => some usual.params
  let results ← match j.field? "results", j.field? "ret" with
    | some types, _ => types.types?
    | none, some _ => some [.i32]
    | none, none => some usual.results
  return {
    type := ⟨params, results⟩
    body := ← j.code? "body"
    result := ← Expr.ofJson? ((j.field? "ret").getD (.num 0)) }

/-- A declared import of a filesystem module: its namespace, its name and its kind. -/
def kindedImportOfJson? : Json → Option (ImportName × ImportKind)
  | .arr [.str space, .str name, .str kind] =>
    some (⟨space, name⟩, if kind = "func" then .function ⟨[], []⟩ else .other)
  | _ => none

namespace FilesystemModule

/-- A module that exports nothing. -/
def bare : FilesystemModule := { omitted := [memoryName], internals := [] }

def namedTypes? (j : Json) (key : String) : Option (List (String × FuncType)) :=
  (((j.field? key).map Json.fields).getD []).mapM fun (name, type) => do return (name, ← type.funcType?)

/-- The filesystem module that a document is, if the engine takes it for a module. -/
def ofJson? (j : Json) : Option FilesystemModule :=
  match j.field? "wat" with
  | some text => if text.string? = some emptyModuleText then some bare else none
  | none => do
    let base := if (j.field? "base").bind Json.string? = some "none" then empty else standard
    let exports := ((j.field? "exports").map Json.fields).getD []
    let functions ← exports.mapM fun (name, f) => do return (name, ← functionOfJson? name f)
    let extended := functions.foldl (fun m (name, f) => m.define name f) base
    let pages := (j.nat? "pages").getD 1
    if pageLimit < pages then none
    return { extended with
      omitted := j.strings "omit"
      data := base.data ++ (← j.data? "data")
      globals := if (j.field? "globals").isSome then j.words "globals" else base.globals
      pages
      internalTypes := ← namedTypes? j "internal"
      previewTypes := ← namedTypes? j "wasi"
      extraImports := ← (j.list "extra").mapM kindedImportOfJson?
      startSection := ← j.code? "start_section" }

end FilesystemModule

end GuestHost
