/-
  GuestHost.Guest.Document — guest modules written down as JSON documents.

  A module may instead be given by its text, of which only the empty module is understood.
-/

import GuestHost.Program.Document

namespace GuestHost

def emptyModuleText : String := "(module)"

/-- The bodies of a guest's controls, as a document that names those which are not the usual ones. -/
def ControlBodies.ofJson? (j : Json) : Option ControlBodies := do
  let usual : ControlBodies := {}
  let body (name : String) (old : Stmt) : Option Stmt := if (j.field? name).isSome then j.code? name else some old
  let state := j.field? "get_state"
  return {
    startUnwind := ← body "start_unwind" usual.startUnwind
    stopUnwind := ← body "stop_unwind" usual.stopUnwind
    startRewind := ← body "start_rewind" usual.startRewind
    stopRewind := ← body "stop_rewind" usual.stopRewind
    getState := ← match state with
      | some s => s.code? "body"
      | none => some usual.getState
    getStateResult := ← match state with
      | some s => Expr.ofJson? ((s.field? "ret").getD (.num 0))
      | none => some usual.getStateResult }

/-- A declared import: its namespace, if it is not the usual one, its name and its type. -/
def importOfJson? (j : Json) : Option (ImportName × FuncType) := do
  let space := ((j.field? "ns").bind Json.string?).getD previewNamespace
  return (⟨space, ← (← j.field? "name").string?⟩, ← j.funcType?)

namespace Guest

/-- A guest that exports nothing. -/
def bare : Guest := { omitted := [entryName, memoryName] }

/-- The guest that a document is, if the engine takes it for a module. -/
def ofJson? (j : Json) : Option Guest :=
  match j.field? "wat" with
  | some text => if text.string? = some emptyModuleText then some bare else none
  | none => do
    let guest : Guest := {
      body := ← Stmt.ofItems? (j.list "body")
      data := ← j.data? "data"
      globals := j.words "globals"
      pages := (j.nat? "pages").getD 1
      maxPages := j.nat? "max_pages"
      instrumented := j.flag "asyncify"
      omitted := j.strings "omit"
      mistyped := j.strings "bad_types"
      extraImports := ← (j.list "imports").mapM importOfJson?
      controls := ← ControlBodies.ofJson? ((j.field? "controls").getD .null)
      obeysUnwind := !j.flag "ignore_unwind"
      recordsCalls := (j.field? "record").all Json.isTrue }
    if guest.wellFormed then some guest else none

end Guest

end GuestHost
